import SockEtOut.Wire.Packets

/-!
# Requests have one encoding

The converse of the round trips: whatever bytes a request is decoded from, they are
the bytes it is written as. A decoder of the custom build takes each length and each
field from where it stands, so what it has read can be put together again from the
fields alone.

It is shown field by field. `Yields.at_next` and its companions say where a value was
found; here the finds are laid side by side, in the order the encoder writes them.
-/

namespace SockEtOut.Proof

open Lib Reader

/-- What `rd` comes to at the start of a buffer stands there as `enc` writes it. -/
def Redone {γ : Type} (rd : Reader UInt8 γ) (enc : γ → List UInt8) : Prop :=
  ∀ {buf : List UInt8} {y : γ} {offset : Nat}, Yields rd buf 0 y offset → At buf 0 (enc y)

/-- A length byte is the length of what it counts. -/
theorem count_eq {α : Type} {xs : List α} {b : UInt8} (h : xs.length = b.toNat) :
    UInt8.ofNat xs.length = b := by
  rw [h, UInt8.ofNat_toNat]

theorem uuid_at {buf : List UInt8} {u : UUID} {offset offset' : Nat}
    (h : Yields UUID.deserialize buf offset u offset') :
    At buf offset u.value ∧ offset' = offset + u.value.length := by
  obtain ⟨value, o, hrange, hpure⟩ := h.of_bind
  obtain ⟨hat, hlength, hoffset⟩ := hrange.at_range
  rw [dif_pos hlength] at hpure
  cases hpure
  exact ⟨hat, by rw [hoffset, hlength]⟩

/-! ## The seven classes -/

theorem registerAccount_redone :
    Redone RegisterAccountMessage.deserialize (RegisterAccountMessage.serialize · []) := by
  intro buf m offset h
  obtain ⟨ul, o₁, hul, h⟩ := h.of_bind
  obtain ⟨pl, o₂, hpl, h⟩ := h.of_bind
  obtain ⟨dl, o₃, hdl, h⟩ := h.of_bind
  obtain ⟨username, o₄, husername, h⟩ := h.of_bind
  obtain ⟨password, o₅, hpassword, h⟩ := h.of_bind
  obtain ⟨displayName, o₆, hdisplayName, hpure⟩ := h.of_bind
  cases hpure
  obtain ⟨hu, hulen, -⟩ := husername.at_slice
  obtain ⟨hp, hplen, -⟩ := hpassword.at_slice
  obtain ⟨hd, hdlen, -⟩ := hdisplayName.at_slice
  dsimp only
  rw [RegisterAccountMessage.serialize, count_eq hulen, count_eq hplen, count_eq hdlen]
  simp only [List.nil_append]
  have h₁ := hul.at_byteAt.1.append hu rfl
  have h₂ := h₁.append hpl.at_byteAt.1 (by simp; omega)
  have h₃ := h₂.append hp (by simp; omega)
  have h₄ := h₃.append hdl.at_byteAt.1 (by simp; omega)
  exact h₄.append hd (by simp; omega)

theorem credentials_redone :
    Redone deserializeCredentials fun p => serializeCredentials p.1 p.2 [] := by
  intro buf p offset h
  obtain ⟨ul, o₁, hul, h⟩ := h.of_bind
  obtain ⟨pl, o₂, hpl, h⟩ := h.of_bind
  obtain ⟨username, o₃, husername, h⟩ := h.of_bind
  obtain ⟨password, o₄, hpassword, hpure⟩ := h.of_bind
  cases hpure
  obtain ⟨hu, hulen, -⟩ := husername.at_slice
  obtain ⟨hp, hplen, -⟩ := hpassword.at_slice
  dsimp only
  rw [serializeCredentials, count_eq hulen, count_eq hplen]
  simp only [List.nil_append]
  have h₁ := hul.at_byteAt.1.append hu rfl
  have h₂ := h₁.append hpl.at_byteAt.1 (by simp; omega)
  exact h₂.append hp (by simp; omega)

theorem login_redone : Redone LoginMessage.deserialize (LoginMessage.serialize · []) := by
  intro buf m offset h
  obtain ⟨p, o, hp, hpure⟩ := h.of_bind
  cases hpure
  exact credentials_redone hp

theorem deleteAccount_redone :
    Redone DeleteAccountMessage.deserialize (DeleteAccountMessage.serialize · []) := by
  intro buf m offset h
  obtain ⟨p, o, hp, hpure⟩ := h.of_bind
  cases hpure
  exact credentials_redone hp

theorem listAccounts_redone :
    Redone ListAccountsMessage.deserialize (ListAccountsMessage.serialize · []) := by
  intro buf m offset h
  obtain ⟨rl, o₁, hrl, h⟩ := h.of_bind
  obtain ⟨regex, o₂, hregex, hpure⟩ := h.of_bind
  cases hpure
  obtain ⟨hr, hrlen, -⟩ := hregex.at_slice
  dsimp only
  rw [ListAccountsMessage.serialize, count_eq hrlen, List.nil_append]
  exact hrl.at_byteAt.1.append hr rfl

theorem createChannel_redone :
    Redone (CreateChannelMessage.mk [] []).deserialize (CreateChannelMessage.serialize · []) := by
  intro buf m offset h
  obtain ⟨nl, o₁, hnl, h⟩ := h.of_bind
  obtain ⟨channelName, o₂, hname, h⟩ := h.of_bind
  obtain ⟨count, o₃, hcount, h⟩ := h.of_bind
  obtain ⟨members, o₄, hmembers, hpure⟩ := h.of_bind
  cases hpure
  obtain ⟨hn, rfl⟩ := hnl.at_next
  obtain ⟨hs, hnlen, rfl⟩ := hname.at_range
  obtain ⟨hc, rfl⟩ := hcount.at_next
  -- the members stand one behind the other, from behind their count on
  obtain ⟨hm, hmlen, -⟩ := Yields.at_times uuid_at hc.length_le hmembers
  dsimp only
  rw [CreateChannelMessage.serialize_eq, List.nil_append, List.nil_append, count_eq hnlen,
    count_eq hmlen]
  have hrest := hs.append (hc.append hm rfl) (by rw [hnlen])
  exact hn.append hrest rfl

theorem sendMessage_redone :
    Redone SendMessageMessage.deserialize (SendMessageMessage.serialize · []) := by
  intro buf m offset h
  obtain ⟨channelUid, o₁, hchannel, h⟩ := h.of_bind
  obtain ⟨senderUid, o₂, hsender, h⟩ := h.of_bind
  obtain ⟨tl, o₃, htl, h⟩ := h.of_bind
  obtain ⟨text, o₄, htext, hpure⟩ := h.of_bind
  cases hpure
  obtain ⟨hc, rfl⟩ := uuid_at hchannel
  obtain ⟨hs, rfl⟩ := uuid_at hsender
  obtain ⟨hl, rfl⟩ := htl.at_next
  obtain ⟨ht, htlen, -⟩ := htext.at_range
  dsimp only
  rw [SendMessageMessage.serialize_eq, List.nil_append, count_eq htlen]
  have hrest := hs.append (hl.append ht rfl) rfl
  exact hc.append hrest rfl

/-- The loop has shifted in the bytes that stand at its indices. -/
theorem snowflake_at {buf : List UInt8} : ∀ {n i offset offset' : Nat} {s s' : UInt64},
    16 + i ≤ buf.length →
      Yields (DeleteMessageMessage.readSnowflake n i s) buf offset s' offset' →
      ∃ bs : List UInt8, bs.length = n ∧ At buf (16 + i) bs
        ∧ s' = bs.foldl (fun (n : UInt64) b => (n <<< 8) ||| b.toUInt64) s
  | 0, i, offset, offset', s, s', hle, h => by
      cases h
      exact ⟨[], rfl, at_nil hle, rfl⟩
  | n + 1, i, offset, offset', s, s', hle, h => by
      obtain ⟨b, o, hb, h⟩ := h.of_bind
      obtain ⟨hb, -⟩ := hb.at_byteAt
      obtain ⟨bs, hlength, hbs, rfl⟩ := snowflake_at hb.length_le h
      exact ⟨b :: bs, by rw [List.length_cons, hlength], hb.append hbs rfl, rfl⟩

theorem deleteMessage_redone :
    Redone DeleteMessageMessage.deserialize (DeleteMessageMessage.serialize · []) := by
  intro buf m offset h
  obtain ⟨channelUid, o₁, hchannel, h⟩ := h.of_bind
  obtain ⟨messageSnowflake, o₂, hsnowflake, hpure⟩ := h.of_bind
  cases hpure
  obtain ⟨hchannel, -⟩ := uuid_at hchannel
  have hle := hchannel.length_le
  rw [channelUid.size_eq] at hle
  obtain ⟨bs, hlength, hbs, rfl⟩ := snowflake_at (by omega) hsnowflake
  dsimp only
  rw [DeleteMessageMessage.serialize_eq, List.nil_append]
  dsimp only
  rw [← Word.ofBytes, Word.toBytes_ofBytes hlength]
  exact hchannel.append hbs (by rw [channelUid.size_eq])

/-- Of whichever class. -/
theorem request_redone (operation : Operation) :
    Redone (RequestMessage.deserialize operation) (RequestMessage.serialize · []) := by
  intro buf m offset h
  cases operation with
  | registerAccount =>
      obtain ⟨m, o, hm, hpure⟩ := Yields.of_bind h
      cases hpure
      exact registerAccount_redone hm
  | login =>
      obtain ⟨m, o, hm, hpure⟩ := Yields.of_bind h
      cases hpure
      exact login_redone hm
  | listAccounts =>
      obtain ⟨m, o, hm, hpure⟩ := Yields.of_bind h
      cases hpure
      exact listAccounts_redone hm
  | deleteAccount =>
      obtain ⟨m, o, hm, hpure⟩ := Yields.of_bind h
      cases hpure
      exact deleteAccount_redone hm
  | createChannel =>
      obtain ⟨m, o, hm, hpure⟩ := Yields.of_bind h
      cases hpure
      exact createChannel_redone hm
  | sendMessage =>
      obtain ⟨m, o, hm, hpure⟩ := Yields.of_bind h
      cases hpure
      exact sendMessage_redone hm
  | deleteMessage =>
      obtain ⟨m, o, hm, hpure⟩ := Yields.of_bind h
      cases hpure
      exact deleteMessage_redone hm
  | _ => cases h

/-! ## The result -/

/--
**Decoding a request is canonical.** Written again, it is the first `size` bytes of
what it was decoded from; so two buffers that decode to one request agree so far.
-/
theorem request_is_canonical {operation : Operation} {buf : List UInt8} {m : RequestMessage}
    {offset : Nat} (h : Yields (RequestMessage.deserialize operation) buf 0 m offset) :
    m.serialize [] = buf.take m.size
      ∧ ∀ {operation' : Operation} {buf' : List UInt8} {offset' : Nat},
          Yields (RequestMessage.deserialize operation') buf' 0 m offset' →
          buf'.take m.size = buf.take m.size := by
  have hbegins : ∀ {operation : Operation} {buf : List UInt8} {offset : Nat},
      Yields (RequestMessage.deserialize operation) buf 0 m offset →
      m.serialize [] = buf.take m.size := by
    intro operation buf offset h
    have htake := (request_redone operation h).eq_take
    rw [m.length_serialize, List.drop_zero] at htake
    exact htake.symm
  exact ⟨hbegins h, fun h' => (hbegins h').symm.trans (hbegins h)⟩

/-- A login with a byte behind it. -/
theorem request_is_canonical_login :
    (RequestMessage.login ⟨[0x61], [0x62]⟩).serialize [] = [1, 0x61, 1, 0x62] :=
  (@request_is_canonical .login [1, 0x61, 1, 0x62, 7] (.login ⟨[0x61], [0x62]⟩) 4 rfl).1

end SockEtOut.Proof
