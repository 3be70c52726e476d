import SockEtOut.Proof.MessageLife
import SockEtOut.Proof.Replica

/-!
# Clients that follow the server

All seven requests, as often as anyone likes: messages are deleted, accounts are
deleted, and a connection logs in again, as the same user or as another. The client
takes no message off its lists, so they are no longer the server's histories. But they
miss nothing of them, they are in the same order, and what they have beyond them is
gone at the server, or its sender is.

The invariant is again about what a client will come to. It says two things apart: what
is in order in the session whoever is logged in (`InOrder`), which any frame keeps, and
what the channels of the user that the connection has authenticated now are to the
server's (`Reflects`), which a login starts again.
-/

namespace SockEtOut.Proof

open Lib System SnowflakeIDGenerator

variable {k : Int} {db db' : Database} {s s' : Server} {call : Server.Call}

/-! ## Snowflakes that have been issued -/

/-- A new snowflake is above all that were issued in the same span. -/
theorem issued_lt {g g' : SnowflakeIDGenerator} {readings : List Int} {id : BitVec 64}
    (hid : g.nextId readings = (.returned id, g'))
    (hr : ∀ r ∈ readings, spanStart k ≤ r ∧ r < spanStart k + idSpan) {t : UInt64}
    (h : Issued (spanStart k) g t) : t < .ofBitVec id := by
  obtain ⟨r, q, hq, hin, hpack, -, hlater⟩ := nextId_returned hid
  obtain ⟨r₀, q₀, hq₀, hlo₀, -, rfl, hbefore⟩ := h
  have hend : r < epoch + (k + 1) * idSpan := by
    have hspan := (hr r hin).2
    rw [spanStart] at hspan
    rw [Int.add_mul]
    omega
  have hlt := pack_lt g hq₀ hq hlo₀ hend (by omega)
  rw [hpack, UInt64.lt_iff_toNat_lt]
  exact hlt

/-- Nothing that has been issued is ever issued again. -/
theorem issued_effect {op : Database.Op} (hr : ReadingsWithin (spanStart k) op)
    (he : Effect db op db') {t : UInt64} (h : Issued (spanStart k) db.generator t) :
    Issued (spanStart k) db'.generator t := by
  cases he with
  | messageAdded hc hid => exact (issued_nextId hid hr).2.2 t h
  | _ => exact h

/-- Under an issued snowflake, messages only go. -/
theorem stored_effect {op : Database.Op} (hr : ReadingsWithin (spanStart k) op)
    (he : Effect db op db') {t : UInt64} (h : Issued (spanStart k) db.generator t) {m : Message}
    (hm : db'.messages.lookup t = some m) : db.messages.lookup t = some m := by
  cases he with
  | @messageAdded sender c content readings now ch id generator hc hid =>
      rcases Table.lookup_of_emplace hm with hold | ⟨rfl, -⟩
      · exact hold
      · exact absurd h (issued_nextId hid hr).2.1
  | messageRemoved hgone hc => exact (Table.lookup_of_erase hm).2
  | @channelRemoved c ch messages hc hmsg =>
      dsimp only at hm
      rw [hmsg] at hm
      split at hm
      · cases hm
      · exact hm
  | _ => exact hm

/-! ## What is gone -/

/-- A snowflake without a message, or with one that is nobody's any more. -/
def Gone (db : Database) (t : UInt64) : Prop :=
  ∀ m, db.messages.lookup t = some m → db.users.lookup m.senderId = none

/-- The users of a stored message are among the UUIDs in use. -/
theorem senderId_mem_uids {t : UInt64} {m : Message} (h : db.messages.lookup t = some m) :
    m.senderId ∈ db.uids := by
  simp only [Database.uids, List.mem_append, List.mem_flatMap]
  exact Or.inr ⟨m, Table.mem_values_iff.mpr ⟨t, h⟩, List.mem_cons_self ..⟩

/-- An operation that registers nobody under a UUID. -/
def Spares (u : UUID) : Database.Op → Prop
  | .addUser uid .. => uid ≠ u
  | _ => True

/-- Who is not registered is not unless registered. -/
theorem unregistered_effect {op : Database.Op} {u : UUID} (hspares : Spares u op)
    (he : Effect db op db') (h : db.users.lookup u = none) : db'.users.lookup u = none := by
  cases he with
  | nothing => exact h
  | @userAdded uid username displayName password salt passwords =>
      cases hu : (db.users.emplace uid (.new uid username displayName)).lookup u with
      | none => rfl
      | some user =>
          rcases Table.lookup_of_emplace hu with hold | ⟨rfl, -⟩
          · rw [h] at hold
            cases hold
          · exact absurd rfl hspares
  | channelAdded | channelRemoved =>
      dsimp only
      rw [Table.lookup_foldl_modify, h]
      rfl
  | userJoined =>
      dsimp only
      rw [Table.lookup_modify]
      split
      · rename_i heq
        rw [← heq, h]
        rfl
      · exact h
  | messageAdded => exact h
  | messageRemoved => exact h
  | userRemoved =>
      dsimp only
      rw [Table.lookup_erase]
      split
      · rfl
      · exact h

/-- Nobody comes back under a UUID in use. -/
theorem spares_of_mem_uids {op : Database.Op} (hf : db.FreshUids op) {u : UUID}
    (h : u ∈ db.uids) : Spares u op := by
  cases op with
  | addUser uid =>
      rintro rfl
      exact hf h
  | _ => trivial

/-- What is gone stays gone. -/
theorem gone_effect {op : Database.Op} (hf : db.FreshUids op)
    (hr : ReadingsWithin (spanStart k) op) (he : Effect db op db') {t : UInt64}
    (hissued : Issued (spanStart k) db.generator t) (h : Gone db t) : Gone db' t := by
  intro m hm
  have hold := stored_effect hr he hissued hm
  exact unregistered_effect (spares_of_mem_uids hf (senderId_mem_uids hold)) he (h m hold)

/-! ## A session in order -/

/-- A message that has been issued, and is the one stored if any is. -/
structure Genuine (k : Int) (db : Database) (m : Message) : Prop where
  issued : Issued (spanStart k) db.generator m.snowflake
  same : ∀ m', db.messages.lookup m.snowflake = some m' → m' = m

/-- Whoever is logged in: lists have channels, they ascend, and their messages are genuine. -/
structure InOrder (k : Int) (db : Database) (session : Session) : Prop where
  keys : ∀ c, (session.channels.lookup c).isSome = (session.channelMessages.lookup c).isSome
  ascend : ∀ c ss, viewHistory session c = some ss → ss.Pairwise (· < ·)
  genuine : ∀ c ms, session.channelMessages.lookup c = some ms →
    ∀ m ∈ ms, m.channelId = c ∧ Genuine k db m

theorem inOrder_new : InOrder k db .new where
  keys _ := rfl
  ascend c ss h := absurd h (by simp [viewHistory, Session.new])
  genuine c ms h := absurd h (by simp [Session.new])

theorem genuine_effect {op : Database.Op} (hr : ReadingsWithin (spanStart k) op)
    (he : Effect db op db') {m : Message} (h : Genuine k db m) : Genuine k db' m where
  issued := issued_effect hr he h.issued
  same m' hm := h.same m' (stored_effect hr he h.issued hm)

theorem inOrder_effect {op : Database.Op} (hr : ReadingsWithin (spanStart k) op)
    (he : Effect db op db') {session : Session} (h : InOrder k db session) :
    InOrder k db' session where
  keys := h.keys
  ascend := h.ascend
  genuine c ms hc m hm :=
    ⟨(h.genuine c ms hc m hm).1, genuine_effect hr he (h.genuine c ms hc m hm).2⟩

/-- What a list shows has been issued. -/
theorem issued_of_view {session : Session} (h : InOrder k db session) {c : UUID}
    {ss : List UInt64} (hview : viewHistory session c = some ss) {t : UInt64} (ht : t ∈ ss) :
    Issued (spanStart k) db.generator t := by
  obtain ⟨ms, hms, rfl⟩ := Option.map_eq_some_iff.mp hview
  obtain ⟨m, hm, rfl⟩ := List.mem_map.mp ht
  exact (h.genuine c ms hms m hm).2.issued

/-! ## A channel next to the server's -/

/-- A history kept elsewhere: all of the server's history, and besides what is gone. -/
def Reflects (db : Database) (h : Histories) (c : UUID) : Prop :=
  ∃ ch ss, db.channels.lookup c = some ch ∧ h c = some ss
    ∧ List.Sublist ch.messageSnowflakes ss
    ∧ ∀ t ∈ ss, t ∉ ch.messageSnowflakes → Gone db t

/-- Messages are only ever sent to other channels than this. -/
def SpareOf (c : UUID) : Database.Op → Prop
  | .addMessage _ d .. => d ≠ c
  | _ => True

/-- What the server does to a channel that it writes nothing to. -/
theorem reflects_effect {op : Database.Op} (hf : db.FreshUids op)
    (hr : ReadingsWithin (spanStart k) op) (he : Effect db op db') {session : Session}
    (horder : InOrder k db session) {c : UUID} (hspare : SpareOf c op)
    (hstays : (db'.channels.lookup c).isSome) (h : Reflects db (viewHistory session) c) :
    Reflects db' (viewHistory session) c := by
  obtain ⟨ch, ss, hc, hview, hsub, hextra⟩ := h
  have hgone : ∀ t ∈ ss, t ∉ ch.messageSnowflakes → Gone db' t := fun t ht hnot =>
    gone_effect hf hr he (issued_of_view horder hview ht) (hextra t ht hnot)
  cases he with
  | nothing => exact ⟨ch, ss, hc, hview, hsub, hgone⟩
  | userAdded => exact ⟨ch, ss, hc, hview, hsub, hgone⟩
  | channelAdded => exact ⟨ch, ss, Table.lookup_emplace_of_some hc _ _, hview, hsub, hgone⟩
  | @userJoined u d user ch₀ hu hd =>
      by_cases heq : c = d
      · refine ⟨ch.addUser u, ss, ?_, hview, hsub, hgone⟩
        dsimp only
        rw [Table.lookup_modify, if_pos heq, ← heq, hc]
        rfl
      · refine ⟨ch, ss, ?_, hview, hsub, hgone⟩
        dsimp only
        rw [Table.lookup_modify, if_neg heq]
        exact hc
  | @messageAdded sender d content readings now ch₀ id generator hd hid =>
      -- to another channel, this one being spared
      refine ⟨ch, ss, ?_, hview, hsub, hgone⟩
      dsimp only
      rw [Table.lookup_modify, if_neg (Ne.symm hspare)]
      exact hc
  | @messageRemoved t₀ m ch₀ hm hd =>
      by_cases heq : c = m.channelId
      · refine ⟨ch.removeMessage t₀, ss, ?_, hview, ?_, ?_⟩
        · dsimp only
          rw [Table.lookup_modify, if_pos heq, ← heq, hc]
          rfl
        · rw [Channel.removeMessage_messageSnowflakes]
          exact List.filter_sublist.trans hsub
        · -- what was listed and is not now is the message that went
          intro t ht hnot
          by_cases hlisted : t ∈ ch.messageSnowflakes
          · rw [Channel.removeMessage_messageSnowflakes, List.mem_filter] at hnot
            have ht₀ : t = t₀ := by
              by_contra hne
              exact hnot ⟨hlisted, by simpa using hne⟩
            intro m' hm'
            dsimp only at hm'
            rw [ht₀, Table.lookup_erase, if_pos rfl] at hm'
            cases hm'
          · exact hgone t ht hlisted
      · refine ⟨ch, ss, ?_, hview, hsub, hgone⟩
        dsimp only
        rw [Table.lookup_modify, if_neg heq]
        exact hc
  | @channelRemoved d ch₀ messages hd hmsg =>
      -- another one, for this one is there
      obtain ⟨ch', hc'⟩ := Option.isSome_iff_exists.mp hstays
      obtain ⟨-, hold⟩ := Table.lookup_of_erase hc'
      rw [hc] at hold
      cases hold
      exact ⟨ch, ss, hc', hview, hsub, hgone⟩
  | @userRemoved u user hu =>
      obtain ⟨ch', hc'⟩ := Option.isSome_iff_exists.mp hstays
      obtain ⟨old, hold, hleft, hsame⟩ := leaveChannels_some hc'
      rw [hc] at hold
      cases hold
      by_cases hin : c ∈ user.channels
      · refine ⟨ch', ss, hc', hview, (hleft hin).sublist.trans hsub, ?_⟩
        intro t ht hnot
        by_cases hlisted : t ∈ ch.messageSnowflakes
        · -- the sweep takes only the user's own messages
          intro m hm
          have hsent : ¬ NotSentBy db u t := fun hns => hnot ((hleft hin).keeps t hlisted hns)
          by_cases hsender : m.senderId = u
          · dsimp only
            rw [hsender, Table.lookup_erase, if_pos rfl]
          · refine absurd ?_ hsent
            intro m' hm'
            rw [hm] at hm'
            cases hm'
            exact hsender
        · exact hgone t ht hlisted
      · rw [hsame hin] at hc'
        exact ⟨ch, ss, hc', hview, hsub, hgone⟩

/-! ## Frames -/

/-- Where the messages of a session come from. -/
theorem mem_of_handle {session session' : Session} {r : Response}
    (h : session.handle r = .ok session') {c : UUID} {ms' : List Message}
    (hms' : session'.channelMessages.lookup c = some ms') {m : Message} (hm : m ∈ ms') :
    (∃ ms, session.channelMessages.lookup c = some ms ∧ m ∈ ms)
      ∨ r = .sendMessage (.ok m) ∧ m.channelId = c := by
  have hsame : session'.channelMessages = session.channelMessages →
      ∃ ms, session.channelMessages.lookup c = some ms ∧ m ∈ ms := fun heq =>
    ⟨ms', heq ▸ hms', hm⟩
  cases r with
  | registerAccount data | listAccounts data =>
      cases h
      exact Or.inl (hsame rfl)
  | login data =>
      cases data <;> cases h <;> exact Or.inl (hsame rfl)
  | deleteAccount data =>
      cases data with
      | error e =>
          cases h
          exact Or.inl (hsame rfl)
      | ok user =>
          cases h
          cases hms'
  | createChannel data =>
      cases data with
      | error e =>
          cases h
          exact Or.inl (hsame rfl)
      | ok channel =>
          -- the list of the channel starts over, with nothing in it
          simp only [Session.handle, Session.onCreateChannelResponse] at h
          split at h
          · cases h
          · cases h
            change (session.channelMessages.assign channel.uid []).lookup c = some ms' at hms'
            rw [Table.lookup_assign] at hms'
            split at hms'
            · cases hms'
              cases hm
            · exact Or.inl ⟨ms', hms', hm⟩
  | sendMessage data =>
      cases data with
      | error e =>
          cases h
          exact Or.inl (hsame rfl)
      | ok message =>
          simp only [Session.handle, Session.addMessage] at h
          split at h
          · cases h
            exact Or.inl (hsame rfl)
          · rename_i ms hms
            split at h
            · cases h
            · cases h
              dsimp only at hms'
              rw [Table.lookup_assign] at hms'
              split at hms'
              · rename_i heq
                cases hms'
                rcases List.mem_append.mp hm with hold | hnew
                · exact Or.inl ⟨ms, heq ▸ hms, hold⟩
                · rw [List.mem_singleton] at hnew
                  subst hnew
                  exact Or.inr ⟨rfl, heq.symm⟩
              · exact Or.inl ⟨ms', hms', hm⟩
  | deleteMessage data =>
      cases data with
      | error e =>
          cases h
          exact Or.inl (hsame rfl)
      | ok message =>
          simp only [Session.handle, Session.removeMessage] at h
          split at h
          · cases h
            exact Or.inl (hsame rfl)
          · split at h
            · cases h
            · cases h
              exact Or.inl (hsame rfl)

/-- Genuine messages in, genuine messages on the lists. -/
theorem genuine_foldlM {rs : List Response}
    (hrs : ∀ m, Response.sendMessage (.ok m) ∈ rs → Genuine k db m) :
    ∀ {session session' : Session}, rs.foldlM Session.handle session = .ok session' →
      (∀ c ms, session.channelMessages.lookup c = some ms →
        ∀ m ∈ ms, m.channelId = c ∧ Genuine k db m) →
      ∀ c ms, session'.channelMessages.lookup c = some ms →
        ∀ m ∈ ms, m.channelId = c ∧ Genuine k db m := by
  induction rs with
  | nil =>
      intro session session' h hall
      cases h
      exact hall
  | cons r rs ih =>
      intro session session' h hall
      rw [List.foldlM_cons] at h
      cases hone : session.handle r with
      | error e =>
          rw [hone] at h
          cases h
      | ok session₁ =>
          rw [hone] at h
          refine ih (fun m hm => hrs m (List.mem_cons_of_mem _ hm)) h ?_
          intro c ms hms m hm
          rcases mem_of_handle hone hms hm with ⟨old, hold, hin⟩ | ⟨rfl, hchan⟩
          · exact hall c old hold m hin
          · exact ⟨hchan, hrs m (List.mem_cons_self ..)⟩

end SockEtOut.Proof
