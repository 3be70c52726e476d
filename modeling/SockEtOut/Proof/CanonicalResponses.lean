import SockEtOut.Proof.Canonical

/-!
# Responses have one encoding, but for a byte

What a response is decoded from is what it is written as, behind its first byte. Of
that byte a decoder asks no more than whether it is zero: a success is written with a
zero and found behind no other, an error is written with a one and found behind any
of the other 255.

The values that travel in a response are read back here as the fields of a request
are. A list of users needs more: a user there is read from a copy of the rest, and
the next one is looked for where the user's `size` says.
-/

namespace SockEtOut.Proof

open Lib Reader

/-! ## Users, messages and channels -/

theorem user_repeats (drawn : UUID) :
    Repeats (User.default drawn).deserialize (User.serialize · []) := by
  intro buf offset offset' u h
  obtain ⟨uid, o₁, hfirst, h⟩ := h.of_bind
  obtain ⟨ul, o₂, hul', h⟩ := h.of_bind
  obtain ⟨username, o₃, husername, h⟩ := h.of_bind
  obtain ⟨dl, o₄, hdl', h⟩ := h.of_bind
  obtain ⟨displayName, o₅, hdisplayName, h⟩ := h.of_bind
  obtain ⟨pl, o₆, hpl', h⟩ := h.of_bind
  obtain ⟨profilePic, o₇, hprofilePic, hpure⟩ := h.of_bind
  cases hpure
  obtain ⟨huid, rfl⟩ := uuid_at hfirst
  obtain ⟨hul, rfl⟩ := hul'.at_next
  obtain ⟨hu, hulen, rfl⟩ := husername.at_range
  obtain ⟨hdl, rfl⟩ := hdl'.at_next
  obtain ⟨hd, hdlen, rfl⟩ := hdisplayName.at_range
  obtain ⟨hpl, rfl⟩ := hpl'.at_next
  obtain ⟨hp, hplen, rfl⟩ := hprofilePic.at_range
  dsimp only [User.default]
  rw [User.serialize_eq, List.nil_append]
  dsimp only
  rw [count_eq hulen, count_eq hdlen, count_eq hplen]
  have hpic := hpl.append hp rfl
  have hname := hdl.append (hd.append hpic (by rw [hdlen])) rfl
  have hrest := hul.append (hu.append hname (by rw [hulen])) rfl
  refine ⟨huid.append hrest rfl, ?_⟩
  simp only [List.length_append, List.length_singleton]
  omega

theorem word_repeats (e : Endian) : Repeats (Message.readWord e) e.bytes := by
  intro buf offset offset' n h
  obtain ⟨bytes, o, hbytes, hpure⟩ := h.of_bind
  cases hpure
  obtain ⟨hat, hlength, rfl⟩ := hbytes.at_range
  rw [e.bytes_word hlength, hlength]
  exact ⟨hat, rfl⟩

theorem message_repeats (e : Endian) :
    Repeats (Message.deserialize e) (Message.serialize e · []) := by
  intro buf offset offset' m h
  obtain ⟨senderId, o₁, hsender', h⟩ := h.of_bind
  obtain ⟨channelId, o₂, hchannel', h⟩ := h.of_bind
  obtain ⟨snowflake, o₃, hsnowflake', h⟩ := h.of_bind
  obtain ⟨createdAt, o₄, hcreated', h⟩ := h.of_bind
  obtain ⟨modifiedAt, o₅, hmodified', h⟩ := h.of_bind
  obtain ⟨tl, o₆, htl', h⟩ := h.of_bind
  obtain ⟨text, o₇, htext, h⟩ := h.of_bind
  obtain ⟨rl, o₈, hrl', h⟩ := h.of_bind
  obtain ⟨readBy, o₉, hreadBy, hpure⟩ := h.of_bind
  cases hpure
  obtain ⟨hsender, rfl⟩ := uuid_at hsender'
  obtain ⟨hchannel, rfl⟩ := uuid_at hchannel'
  obtain ⟨hsnowflake, rfl⟩ := word_repeats e hsnowflake'
  obtain ⟨hcreated, rfl⟩ := word_repeats e hcreated'
  obtain ⟨hmodified, rfl⟩ := word_repeats e hmodified'
  obtain ⟨htl, rfl⟩ := htl'.at_next
  obtain ⟨ht, htlen, rfl⟩ := htext.at_range
  obtain ⟨hrl, rfl⟩ := hrl'.at_next
  obtain ⟨hr, hrlen, rfl⟩ := Yields.at_times uuid_at hrl.length_le hreadBy
  dsimp only
  rw [Message.serialize_eq, List.nil_append]
  dsimp only
  rw [count_eq htlen, count_eq hrlen]
  have hreaders := hrl.append hr rfl
  have htext := htl.append (ht.append hreaders (by rw [htlen])) rfl
  have hwords := hsnowflake.append (hcreated.append (hmodified.append htext rfl) rfl) rfl
  refine ⟨hsender.append (hchannel.append hwords rfl) rfl, ?_⟩
  simp only [List.length_append, List.length_singleton]
  omega

/-- The one byte of a snowflake that is read is the one that is written. -/
theorem snowflake_repeats :
    Repeats (do let b ← next; pure b.toUInt64) fun s : UInt64 => [s.toUInt8] := by
  intro buf offset offset' s h
  obtain ⟨b, o, hb, hpure⟩ := h.of_bind
  cases hpure
  dsimp only
  rw [UInt8.toUInt8_toUInt64]
  exact hb.at_next

theorem channel_repeats (drawn : UUID) :
    Repeats (Channel.default drawn).deserialize (Channel.serialize · []) := by
  intro buf offset offset' c h
  obtain ⟨uid, o₁, hfirst, h⟩ := h.of_bind
  obtain ⟨nl, o₂, hnl', h⟩ := h.of_bind
  obtain ⟨name, o₃, hname, h⟩ := h.of_bind
  obtain ⟨ul, o₄, hul', h⟩ := h.of_bind
  obtain ⟨userUids, o₅, husers, h⟩ := h.of_bind
  obtain ⟨ml, o₆, hml', h⟩ := h.of_bind
  obtain ⟨snowflakes, o₇, hsnowflakes, hpure⟩ := h.of_bind
  cases hpure
  obtain ⟨huid, rfl⟩ := uuid_at hfirst
  obtain ⟨hnl, rfl⟩ := hnl'.at_next
  obtain ⟨hn, hnlen, rfl⟩ := hname.at_range
  obtain ⟨hul, rfl⟩ := hul'.at_next
  obtain ⟨hu, hulen, rfl⟩ := Yields.at_times uuid_at hul.length_le husers
  obtain ⟨hml, rfl⟩ := hml'.at_next
  obtain ⟨hm, hmlen, rfl⟩ := snowflake_repeats.at_times hml.length_le hsnowflakes
  dsimp only [Channel.default, Channel.new]
  rw [Channel.serialize_eq, List.nil_append]
  dsimp only
  rw [List.nil_append, List.nil_append, count_eq hnlen, count_eq hulen, count_eq hmlen]
  have hmessages := hml.append hm rfl
  have hmembers := hul.append (hu.append hmessages rfl) rfl
  have hrest := hnl.append (hn.append hmembers (by rw [hnlen])) rfl
  refine ⟨huid.append hrest rfl, ?_⟩
  simp only [List.length_append, List.length_singleton]
  omega

theorem users_repeat (drawn : UUID) :
    Repeats (ListAccountsResponse.deserializeUsers drawn)
      (ListAccountsResponse.serializeUsers · []) := by
  intro buf offset offset' us h
  obtain ⟨ul, o, hul', husers⟩ := h.of_bind
  obtain ⟨hul, rfl⟩ := hul'.at_next
  have heach : Repeats (embedded (User.default drawn).deserialize User.size)
      (User.serialize · []) := by
    refine (user_repeats drawn).embedded (fun u => u.length_serialize.symm) fun u => ?_
    rw [User.size, u.uid.size_eq]
    omega
  obtain ⟨hus, hulen, rfl⟩ := heach.at_times hul.length_le husers
  dsimp only
  rw [ListAccountsResponse.serializeUsers_eq, List.nil_append, count_eq hulen]
  refine ⟨hul.append hus rfl, ?_⟩
  rw [List.length_append, List.length_singleton, Nat.add_assoc]

/-! ## The two cases of a response -/

/-- `bytes` is what a buffer begins with, a zero for a zero and a one for anything else. -/
def Flagged (buf bytes : List UInt8) : Prop :=
  ∃ b rest, At buf 0 (b :: rest) ∧ bytes = (if b = 0 then 0 else 1) :: rest

theorem flagged_data {α : Type} {payload : α → List UInt8 → List UInt8} {rd : Reader UInt8 α}
    {buf : List UInt8} {data : Except Str α} {offset : Nat}
    (happend : ∀ value buf, payload value buf = buf ++ payload value [])
    (hpayload : ∀ {value offset}, 1 ≤ buf.length → Yields rd buf 1 value offset →
      At buf 1 (payload value []))
    (h : Yields (deserializeData rd) buf 0 data offset) :
    Flagged buf (serializeData payload data []) := by
  obtain ⟨b, o₁, hfirst, h⟩ := h.of_bind
  obtain ⟨hb, rfl⟩ := hfirst.at_next
  have hle := hb.length_le
  by_cases hzero : b = 0
  · rw [if_pos hzero] at h
    obtain ⟨value, o₂, hvalue, hpure⟩ := h.of_bind
    cases hpure
    refine ⟨b, payload value [], hb.append (hpayload hle hvalue) rfl, ?_⟩
    rw [if_pos hzero, serializeData, happend]
    rfl
  · rw [if_neg hzero] at h
    obtain ⟨len, o₂, hcounted, h⟩ := h.of_bind
    obtain ⟨error, o₃, hrange, hpure⟩ := h.of_bind
    cases hpure
    obtain ⟨hlen, rfl⟩ := hcounted.at_next
    obtain ⟨herror, hcount, -⟩ := hrange.at_range
    refine ⟨b, [len] ++ error, hb.append (hlen.append herror rfl) rfl, ?_⟩
    rw [if_neg hzero, serializeData, count_eq hcount]
    rfl

/-- At fixed indices it is the same that is read. -/
theorem flagged_dataAt {α : Type} {payload : α → List UInt8 → List UInt8} {rd : Reader UInt8 α}
    {buf : List UInt8} {data : Except Str α} {offset : Nat}
    (happend : ∀ value buf, payload value buf = buf ++ payload value [])
    (hpayload : Repeats rd (payload · []))
    (h : Yields (deserializeDataAt rd) buf 0 data offset) :
    Flagged buf (serializeData payload data []) := by
  obtain ⟨b, o₁, hfirst, h⟩ := h.of_bind
  obtain ⟨hb, rfl⟩ := hfirst.at_byteAt
  by_cases hzero : b = 0
  · rw [if_pos hzero] at h
    obtain ⟨value, o₂, hvalue, hpure⟩ := h.of_bind
    cases hpure
    refine ⟨b, payload value [], hb.append (hpayload hvalue).1 rfl, ?_⟩
    rw [if_pos hzero, serializeData, happend]
    rfl
  · rw [if_neg hzero] at h
    obtain ⟨len, o₂, hcounted, h⟩ := h.of_bind
    obtain ⟨error, o₃, hrange, hpure⟩ := h.of_bind
    cases hpure
    obtain ⟨hlen, -⟩ := hcounted.at_byteAt
    obtain ⟨herror, hcount, -⟩ := hrange.at_slice
    refine ⟨b, [len] ++ error, hb.append (hlen.append herror rfl) rfl, ?_⟩
    rw [if_neg hzero, serializeData, count_eq hcount]
    rfl

/-- `CreateChannelResponse` reads its two cases as the others with a running offset do. -/
theorem createChannel_deserialize (drawn : UUID) :
    CreateChannelResponse.deserialize drawn
      = (deserializeData (Channel.default drawn).deserialize >>= fun data => pure ⟨data⟩) := by
  unfold CreateChannelResponse.deserialize deserializeData
  rw [bind_assoc]
  congr 1
  funext b
  split
  · rw [bind_assoc]
    rfl
  · simp only [bind_assoc]
    rfl

/-- Of whichever class. -/
theorem response_flagged {e : Endian} {drawn : UUID} {operation : Operation} {buf : List UInt8}
    {r : Response} {offset : Nat}
    (h : Yields (Response.deserialize e drawn operation) buf 0 r offset) :
    Flagged buf (r.serialize e []) := by
  cases operation with
  | registerAccount =>
      obtain ⟨r, o, hr, hpure⟩ := h.of_bind
      cases hpure
      obtain ⟨data, o, hdata, hpure⟩ := hr.of_bind
      cases hpure
      exact flagged_data (fun _ buf => (List.append_nil buf).symm) (fun hle _ => at_nil hle) hdata
  | login =>
      obtain ⟨r, o, hr, hpure⟩ := h.of_bind
      cases hpure
      obtain ⟨data, o, hdata, hpure⟩ := hr.of_bind
      cases hpure
      exact flagged_data User.serialize_append (fun _ hu => (user_repeats drawn hu).1) hdata
  | listAccounts =>
      obtain ⟨r, o, hr, hpure⟩ := h.of_bind
      cases hpure
      obtain ⟨data, o, hdata, hpure⟩ := hr.of_bind
      cases hpure
      exact flagged_data ListAccountsResponse.serializeUsers_append
        (fun _ hus => (users_repeat drawn hus).1) hdata
  | deleteAccount =>
      obtain ⟨r, o, hr, hpure⟩ := h.of_bind
      cases hpure
      obtain ⟨data, o, hdata, hpure⟩ := hr.of_bind
      cases hpure
      exact flagged_dataAt User.serialize_append (user_repeats drawn) hdata
  | createChannel =>
      obtain ⟨r, o, hr, hpure⟩ := h.of_bind
      cases hpure
      rw [createChannel_deserialize] at hr
      obtain ⟨data, o, hdata, hpure⟩ := hr.of_bind
      cases hpure
      show Flagged buf ((CreateChannelResponse.mk data).serialize [])
      rw [Response.createChannel_serialize]
      exact flagged_data Channel.serialize_append (fun _ hc => (channel_repeats drawn hc).1) hdata
  | sendMessage =>
      obtain ⟨r, o, hr, hpure⟩ := h.of_bind
      cases hpure
      obtain ⟨data, o, hdata, hpure⟩ := hr.of_bind
      cases hpure
      exact flagged_data (Message.serialize_append e) (fun _ hm => (message_repeats e hm).1) hdata
  | deleteMessage =>
      obtain ⟨r, o, hr, hpure⟩ := h.of_bind
      cases hpure
      obtain ⟨data, o, hdata, hpure⟩ := hr.of_bind
      cases hpure
      exact flagged_dataAt (Message.serialize_append e) (message_repeats e) hdata
  | _ => cases h

/-! ## The result -/

/-- What a response is written as, next to the bytes it was decoded from. -/
theorem Flagged.next_to {buf bytes : List UInt8} (h : Flagged buf bytes) :
    bytes.tail = (buf.take bytes.length).tail
      ∧ (bytes.head? = some 0 ↔ buf.head? = some 0)
      ∧ (bytes = buf.take bytes.length ↔ buf.head? = some 0 ∨ buf.head? = some 1) := by
  obtain ⟨b, rest, hat, rfl⟩ := h
  have htake := hat.eq_take
  have hhead : buf.head? = some b := by
    obtain ⟨before, after, rfl, hbefore⟩ := hat
    rw [List.length_eq_zero_iff.mp hbefore]
    rfl
  rw [List.drop_zero, List.length_cons] at htake
  rw [List.length_cons, htake, hhead]
  by_cases hzero : b = 0
  · simp [hzero]
  · simp [hzero, eq_comm]

/--
**Decoding a response is canonical, but for one byte.** Written again, it is the first
`size` bytes of what it was decoded from, but for the byte that says whether an error
follows: all of them exactly when that byte was a zero or a one. So two buffers that
decode to one response agree so far behind that byte, and it is zero in both or in none.
-/
theorem response_is_canonical {e : Endian} {drawn : UUID} {operation : Operation}
    {buf : List UInt8} {r : Response} {offset : Nat}
    (h : Yields (Response.deserialize e drawn operation) buf 0 r offset) :
    (r.serialize e []).tail = (buf.take r.size).tail
      ∧ (r.serialize e [] = buf.take r.size ↔ buf.head? = some 0 ∨ buf.head? = some 1)
      ∧ ∀ {drawn' : UUID} {operation' : Operation} {buf' : List UInt8} {offset' : Nat},
          Yields (Response.deserialize e drawn' operation') buf' 0 r offset' →
          (buf'.take r.size).tail = (buf.take r.size).tail
            ∧ (buf'.head? = some 0 ↔ buf.head? = some 0) := by
  obtain ⟨htail, hzero, hwhole⟩ := (response_flagged h).next_to
  rw [r.length_serialize e] at htail hwhole
  refine ⟨htail, hwhole, ?_⟩
  intro drawn' operation' buf' offset' h'
  obtain ⟨htail', hzero', -⟩ := (response_flagged h').next_to
  rw [r.length_serialize e] at htail'
  exact ⟨htail'.symm.trans htail, hzero'.symm.trans hzero⟩

/-- A refused login behind a seven. -/
theorem response_is_canonical_refused :
    ((Response.login (.error [0x61])).serialize .little []).tail = [1, 0x61] :=
  (@response_is_canonical .little (.ofByte 0) .login [7, 1, 0x61, 9] (.login (.error [0x61])) 3
    rfl).1

end SockEtOut.Proof
