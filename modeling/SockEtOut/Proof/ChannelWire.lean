import SockEtOut.Wire.Channel

/-!
# Channels survive the wire as far as their snowflakes are bytes

Everything in a `CreateChannelResponse` has a length the format can express
except a snowflake, which is eight bytes long and is given one. So a channel
comes back as it was exactly when each of its snowflakes fits.
-/

namespace SockEtOut.Proof

open Lib Reader

/-- One byte holds a snowflake exactly when it is below 256. -/
theorem snowflake_byte_iff (s : UInt64) : s.toUInt8.toUInt64 = s ↔ s < 256 := by
  have hback : s.toUInt8.toUInt64.toNat = s.toNat % 256 := by
    rw [UInt8.toNat_toUInt64, UInt64.toNat_toUInt8]
  have hlt : s < 256 ↔ s.toNat < 256 := UInt64.lt_iff_toNat_lt
  rw [← UInt64.toNat_inj, hback, hlt]
  omega

theorem snowflakes_bytes_iff (ss : List UInt64) :
    (ss.map fun s => s.toUInt8.toUInt64) = ss ↔ ∀ s ∈ ss, s < 256 := by
  have hid : (ss.map fun s => s.toUInt8.toUInt64) = ss
      ↔ ∀ s ∈ ss, s.toUInt8.toUInt64 = s := by
    conv => lhs; rhs; rw [← List.map_id ss]
    exact List.map_inj_left
  rw [hid]
  exact forall₂_congr fun s _ => snowflake_byte_iff s

/-- `c` comes back from the bytes of a successful response about it. -/
def ReadsBack (drawn : UUID) (c : Channel) : Prop :=
  ∃ r offset, CreateChannelResponse.deserialize drawn
      ((CreateChannelResponse.mk (.ok c)).serialize []) 0 = some (r, offset)
    ∧ r.isSuccess = true
    ∧ ∃ c', r.getData = some c' ∧ c'.uid = c.uid ∧ c'.name = c.name ∧ c'.userUids = c.userUids
        ∧ c'.messageSnowflakes = c.messageSnowflakes

/--
**When a channel round-trips.** A channel whose name, members and messages fit
their one-byte counts comes back from a `CreateChannelResponse` as it was exactly
when all its snowflakes are below 256.
-/
theorem channel_readsBack_iff (drawn : UUID) (c : Channel) (hname : c.name.length ≤ 255)
    (husers : c.userUids.length ≤ 255) (hmessages : c.messageSnowflakes.length ≤ 255) :
    ReadsBack drawn c ↔ ∀ s ∈ c.messageSnowflakes, s < 256 := by
  have hread := reads_success drawn c hname husers hmessages [] []
  rw [List.nil_append, List.append_nil, List.length_nil] at hread
  rw [← snowflakes_bytes_iff]
  refine ⟨?_, ?_⟩
  · rintro ⟨r, offset, hr, -, c', hdata, -, -, -, hss⟩
    rw [hread] at hr
    cases hr
    cases hdata
    exact hss
  · intro hss
    exact ⟨_, _, hread, rfl, _, rfl, rfl, rfl, rfl, hss⟩

/-- A channel of two members and the two messages 5 and 255. -/
theorem channel_readsBack_small :
    ReadsBack (.ofByte 0) ⟨.ofByte 7, lit "plans", [.ofByte 1, .ofByte 2], [5, 255]⟩ :=
  (channel_readsBack_iff (.ofByte 0) ⟨.ofByte 7, lit "plans", [.ofByte 1, .ofByte 2], [5, 255]⟩
    (by decide) (by decide) (by decide)).mpr (by simp)

/-- The first snowflake the generator issues five milliseconds after the epoch comes back as 0. -/
theorem snowflake_reads_back_as_zero :
    ((CreateChannelResponse.deserialize (.ofByte 0)
        ((CreateChannelResponse.mk
          (.ok ⟨.ofByte 7, lit "plans", [.ofByte 1], [41951488]⟩)).serialize []) 0).bind
      fun r => r.1.getData).map (·.messageSnowflakes) = some [0]
      ∧ ¬ ReadsBack (.ofByte 0) ⟨.ofByte 7, lit "plans", [.ofByte 1], [41951488]⟩ := by
  have hzero : ((CreateChannelResponse.deserialize (.ofByte 0)
        ((CreateChannelResponse.mk
          (.ok ⟨.ofByte 7, lit "plans", [.ofByte 1], [41951488]⟩)).serialize []) 0).bind
      fun r => r.1.getData).map (·.messageSnowflakes) = some [0] := by decide
  refine ⟨hzero, ?_⟩
  rintro ⟨r, offset, hr, -, c', hdata, -, -, -, hss⟩
  rw [hr] at hzero
  dsimp only [Option.bind_some] at hzero
  rw [hdata, Option.map_some, hss] at hzero
  exact absurd hzero (by decide)

end SockEtOut.Proof
