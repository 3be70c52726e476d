import SockEtOut.Proof.JsonRoundTrips
import SockEtOut.Wire.Serializable

/-!
# Sizes are what is written

The contract of `Serializable::size`: as many bytes as `serialize` appends, to any
buffer. Where `serialize` throws, so does `size`. It holds of every class in both
builds, with one exception. `Channel::size` has no JSON branch, so there it counts
bytes that are not written; and as the JSON of a channel is always longer than its
binary form, or not there at all, it is never right.

The JSON library is assumed to dump a value's compact text, and to throw at a string
that is not in UTF-8.
-/

namespace SockEtOut.Proof

open Lib Nlohmann
open Lib.Json hiding parse

/-- `serialize` appends bytes to any buffer, and `size` is their number; or both throw. -/
def SizeContract [Nlohmann] (build : Build) (e : Endian) (s : Serializable) : Prop :=
  ∀ buf, ∃ bytes : Option (List UInt8),
    s.serialize build e buf = bytes.map (buf ++ ·) ∧ s.size build = bytes.map List.length

/-- What is promised of `dump`. -/
def DumpsText [Nlohmann] : Prop :=
  ∀ j, j.WellFormed → dump j = if j.strings.all Json.dumps then some j.text else none

/-! ## The JSON of a channel -/

theorem length_toString (u : UUID) : u.toString.length = 32 := by
  have htwo : ∀ value : List UInt8, (value.flatMap fun byte =>
      [hexDigit (byte.toNat / 16), hexDigit (byte.toNat % 16)]).length = 2 * value.length := by
    intro value
    induction value with
    | nil => rfl
    | cons byte value ih =>
        simp only [List.flatMap_cons, List.length_append, ih, List.length_cons, List.length_nil]
        omega
  rw [UUID.toString, htwo, u.size_eq]

/-- The members of a channel's object, in the order of their keys. -/
def channelMembers (c : Channel) : List (Str × Json) :=
  [(lit "message_snowflakes", .array (c.messageSnowflakes.map .number)),
    (lit "name", .string c.name), (lit "uid", .string c.uid.toString),
    (lit "user_uids", uuids c.userUids)]

theorem channel_ofFields (c : Channel) :
    ofFields [(lit "uid", .string c.uid.toString), (lit "name", .string c.name),
        (lit "user_uids", uuids c.userUids),
        (lit "message_snowflakes", .array (c.messageSnowflakes.map .number))]
      = channelMembers c := rfl

theorem channel_wellFormed (c : Channel) : (Json.object (channelMembers c)).WellFormed := by
  have harray : ∀ {α : Type} (f : α → Json) (xs : List α), (∀ x, (f x).WellFormed) →
      (Json.array (xs.map f)).WellFormed := fun f xs h =>
    elementsWellFormed_of (List.forall_mem_map.mpr fun x _ => h x)
  have hsorted : Sorted (channelMembers c) := by
    rw [← channel_ofFields]
    exact sorted_ofFields _
  exact ⟨hsorted, harray _ _ fun _ => trivial, trivial, trivial, harray _ _ fun _ => trivial,
    trivial⟩

theorem channel_strings (c : Channel) :
    (Json.object (channelMembers c)).strings.all Json.dumps = Json.dumps c.name := by
  cases hname : Json.dumps c.name with
  | true =>
      refine List.all_eq_true.mpr fun s hs => ?_
      have hwritable : Writable Utf8 (.object (channelMembers c)) :=
        writable_fields (channel_writes c hname)
      exact hwritable.strings s hs
  | false =>
      refine List.all_eq_false.mpr ⟨c.name, ?_, by rw [hname]; decide⟩
      simp [channelMembers, strings, membersStrings]

theorem channel_toJson [Nlohmann] (hlib : DumpsText) (c : Channel) :
    c.toJson = if Json.dumps c.name then some (Json.object (channelMembers c)).text else none := by
  rw [Channel.toJson, channel_ofFields, hlib _ (channel_wellFormed c), channel_strings]

/-- Longer by its keys alone. -/
theorem size_lt_length_text (c : Channel) :
    c.size < (Json.object (channelMembers c)).text.length := by
  have hname := length_quoted c.name
  have hquoted : 34 ≤ (quoted c.uid.toString).length := by
    have hquoted := length_quoted c.uid.toString
    rwa [length_toString] at hquoted
  have huids : 34 * c.userUids.length + 2 ≤ (uuids c.userUids).text.length := by
    have heach : ∀ j ∈ c.userUids.map fun uid => Json.string uid.toString,
        34 ≤ j.text.length := by
      intro j hj
      obtain ⟨uid, -, rfl⟩ := List.mem_map.mp hj
      have hquoted := length_quoted uid.toString
      rwa [length_toString] at hquoted
    have harray := length_array heach
    rwa [List.length_map] at harray
  have hsnowflakes : 1 * c.messageSnowflakes.length + 2
      ≤ (Json.array (c.messageSnowflakes.map .number)).text.length := by
    have heach : ∀ j ∈ c.messageSnowflakes.map Json.number, 1 ≤ j.text.length :=
      fun j _ => length_text j
    have harray := length_array heach
    rwa [List.length_map] at harray
  have hsize : c.size
      = 19 + c.name.length + 16 * c.userUids.length + c.messageSnowflakes.length := by
    rw [Channel.size, foldl_length_eq UUID.value, length_uuids]
    omega
  rw [hsize, channelMembers, text, membersText, membersText, membersText, membersText]
  simp only [List.length_cons, List.length_append, text]
  omega

/-! ## The contract -/

/-- Whatever else it is, an object of the JSON build writes its JSON and counts it. -/
theorem sizeJson_eq [Nlohmann] {o : Object} (h : ∀ c, o ≠ .channel c) :
    o.sizeJson = o.toJson.map List.length := by
  cases o with
  | channel c => exact absurd rfl (h c)
  | user | message | request | response => rfl

theorem contract_custom [Nlohmann] (e : Endian) (o : Object) :
    SizeContract .custom e (.object o) := fun buf =>
  ⟨some (o.serializeCustom e []), congrArg some (o.serializeCustom_append e buf),
    congrArg some (o.length_serializeCustom e).symm⟩

theorem contract_json [Nlohmann] (e : Endian) {o : Object} (h : ∀ c, o ≠ .channel c) :
    SizeContract .json e (.object o) := fun _ => ⟨o.toJson, rfl, sizeJson_eq h⟩

/-- A channel's JSON is not of the size that is given, or cannot be written. -/
theorem not_contract_channel [Nlohmann] (hlib : DumpsText) (e : Endian) (c : Channel) :
    ¬ SizeContract .json e (.object (.channel c)) := by
  intro hcontract
  obtain ⟨bytes, hbytes, hsize⟩ := hcontract []
  have hjson : c.toJson = bytes := by
    have happended : c.toJson.map ([] ++ ·) = bytes.map ([] ++ ·) := hbytes
    simpa using happended
  rw [channel_toJson hlib] at hjson
  rw [← hjson] at hsize
  split at hsize
  · have hlt := size_lt_length_text c
    rw [← Option.some.inj hsize] at hlt
    exact Nat.lt_irrefl _ hlt
  · cases hsize

/-- **Where `size` keeps its contract**: everywhere but for a channel in the JSON build. -/
theorem size_contract_iff [Nlohmann] (hlib : DumpsText) (build : Build) (e : Endian)
    (s : Serializable) :
    SizeContract build e s ↔ ∀ c, build = .json → s ≠ .object (.channel c) := by
  cases s with
  | uuid u => exact iff_of_true (fun _ => ⟨some u.value, rfl, rfl⟩) nofun
  | header h => exact iff_of_true (fun _ => ⟨some (h.serialize []), rfl, rfl⟩) nofun
  | object o =>
      cases build with
      | custom => exact iff_of_true (contract_custom e o) nofun
      | json =>
          by_cases hchannel : ∃ c, o = .channel c
          · obtain ⟨c, rfl⟩ := hchannel
            exact iff_of_false (not_contract_channel hlib e c) fun hother => hother c rfl rfl
          · have hother : ∀ c, o ≠ .channel c := fun c hc => hchannel ⟨c, hc⟩
            exact iff_of_true (contract_json e hother) fun c _ hc =>
              hother c (Serializable.object.inj hc)

theorem plainJson_dumpsText : @DumpsText plainJson := fun _ _ => rfl

/-- A login request in the JSON build. -/
theorem size_contract_iff_login :
    @SizeContract plainJson .json .little (.object (.request (.login ⟨lit "ada", lit "pw"⟩))) :=
  (@size_contract_iff plainJson plainJson_dumpsText .json .little _).mpr nofun

/-- Nineteen bytes are announced for an empty channel and 91 are written. -/
theorem size_of_channel_json :
    @Serializable.size plainJson .json (.object (.channel ⟨.ofByte 0, [], [], []⟩)) = some 19
      ∧ (@Serializable.serialize plainJson .json .little
          (.object (.channel ⟨.ofByte 0, [], [], []⟩)) []).map List.length = some 91
      ∧ ¬ ∀ (lib : Nlohmann) (build : Build) (e : Endian) (s : Serializable),
        @DumpsText lib → @SizeContract lib build e s := by
  refine ⟨rfl, by decide, fun hall => ?_⟩
  exact @not_contract_channel plainJson plainJson_dumpsText .little ⟨.ofByte 0, [], [], []⟩
    (hall plainJson .json .little _ plainJson_dumpsText)

end SockEtOut.Proof
