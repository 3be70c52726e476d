import SockEtOut.Proof.Cascade
import SockEtOut.Proof.History
import SockEtOut.Server.Handlers

/-!
# Who is notified of what

Two facts meet here. An operation emits a message's signals only on members of
the message's channel, and a channel's only on members of the channel. And a
connection has its slots on a user's signals, each once, exactly when that user
is the one it has authenticated: every login disconnects the old ones first.

So a notification reaches the connections of the user it is emitted on, once
each, and no other.
-/

namespace SockEtOut.Proof

open Lib System

variable {db db' : Database}

/-! ## Emission -/

/-- The user a signal is emitted on is a member of the channel it is about. -/
def Entitled (db : Database) : Signal → Prop
  | .channelAdded u ch => u ∈ ch.userUids
  | .messageReceived u m | .messageDeleted u m =>
      ∃ ch, db.channels.lookup m.channelId = some ch ∧ u ∈ ch.userUids

/-- Registration announces nothing. -/
theorem addUser_emitted [External] (user : User) (password salt : Str) :
    (db.addUser user password salt).emitted = [] := by
  unfold Database.addUser
  split <;> rfl

/-- Only a message that has been listed is announced, and only to its channel's members. -/
theorem mem_addMessage_emitted {sender c : UUID} {content : Str} {readings : List Int}
    {now : UInt64} {sig : Signal}
    (h : sig ∈ (db.addMessage sender c content readings now).emitted) :
    ∃ ch id, db.channels.lookup c = some ch
      ∧ (db.addMessage sender c content readings now).db.channels
          = db.channels.modify c (·.addMessage (.ofBitVec id))
      ∧ ∃ u ∈ ch.userUids, sig = .messageReceived u (.new sender c content (.ofBitVec id) now) := by
  rcases addMessage_cases db sender c content readings now with
    ⟨e, heq⟩ | ⟨e, heq⟩ | ⟨generator, heq⟩ | ⟨ch, id, generator, hc, hid, heq⟩
  · rw [heq] at h
    exact absurd h List.not_mem_nil
  · rw [heq] at h
    exact absurd h List.not_mem_nil
  · rw [heq] at h
    exact absurd h List.not_mem_nil
  · rw [heq] at h ⊢
    obtain ⟨u, hu, -, hsig⟩ := mem_notify h
    exact ⟨ch, id, hc, rfl, u, hu, hsig⟩

/-- A new message is announced to the members of its channel, as they are and as they stay. -/
theorem addMessage_entitled {sender c : UUID} {content : Str} {readings : List Int} {now : UInt64}
    {sig : Signal} (h : sig ∈ (db.addMessage sender c content readings now).emitted) :
    Entitled db sig ∧ Entitled (db.addMessage sender c content readings now).db sig := by
  obtain ⟨ch, id, hc, hchannels, u, hu, rfl⟩ := mem_addMessage_emitted h
  refine ⟨⟨ch, hc, hu⟩, ch.addMessage (.ofBitVec id), ?_, hu⟩
  show (db.addMessage sender c content readings now).db.channels.lookup c = _
  rw [hchannels, Table.lookup_modify, if_pos rfl, hc]
  rfl

/-- A new channel is announced to its members. -/
theorem addChannel_entitled {uid : UUID} {channelName : Str} {members : List UUID} {sig : Signal}
    (h : sig ∈ (db.addChannel uid channelName members).emitted) (db' : Database) :
    Entitled db' sig := by
  obtain ⟨u, hu, -, rfl⟩ := mem_notify h
  exact hu

/-- A deletion is announced to the members of the message's channel. -/
theorem removeMessage_entitled {t : UInt64} {sig : Signal}
    (h : sig ∈ (db.removeMessage t).emitted) :
    Entitled db sig ∧ Entitled (db.removeMessage t).db sig := by
  rcases removeMessage_cases db t with ⟨e, heq⟩ | ⟨m, ch, hm, hc, heq⟩
  · rw [heq] at h
    exact absurd h List.not_mem_nil
  · rw [heq] at h ⊢
    obtain ⟨u, hu, -, rfl⟩ := mem_notify h
    refine ⟨⟨ch, hc, hu⟩, ch.removeMessage t, ?_, hu⟩
    show (db.channels.modify m.channelId _).lookup m.channelId = _
    rw [Table.lookup_modify, if_pos rfl, hc]
    rfl

/-- One channel's share of the sweep: messages in its history, to its other members. -/
theorem mem_leaveChannel_emitted {u c : UUID} {sig : Signal}
    (h : sig ∈ (db.leaveChannel u c).2) :
    ∃ ch, db.channels.lookup c = some ch ∧ ∃ v ∈ ch.userUids, v ≠ u
      ∧ ∃ s ∈ ch.messageSnowflakes, ∃ m, db.messages.lookup s = some m
        ∧ sig = .messageDeleted v m := by
  unfold Database.leaveChannel at h
  cases hc : db.channels.lookup c with
  | none =>
      rw [hc] at h
      exact absurd h List.not_mem_nil
  | some ch =>
      rw [hc] at h
      obtain ⟨v, hv, s, hs, m, hm, -, rfl⟩ := mem_sweepHistory_emitted h
      rw [Channel.removeUser_userUids, List.mem_filter] at hv
      exact ⟨ch, rfl, v, hv.1, by simpa using hv.2, s, hs, m, hm, rfl⟩

/-- The whole sweep's: each signal is about a history that was there before it. -/
theorem mem_leaveChannels_emitted {u : UUID} : ∀ {cs : List UUID} {db : Database} {sig : Signal},
    sig ∈ (db.leaveChannels u cs).2 →
    ∃ c ch, db.channels.lookup c = some ch ∧ ∃ v ∈ ch.userUids, v ≠ u
      ∧ ∃ s ∈ ch.messageSnowflakes, ∃ m, db.messages.lookup s = some m
        ∧ sig = .messageDeleted v m := by
  intro cs
  induction cs with
  | nil => intro db sig h; exact absurd h List.not_mem_nil
  | cons c cs ih =>
      intro db sig h
      rw [Database.leaveChannels] at h
      rcases List.mem_append.mp h with hnow | hlater
      · exact ⟨c, mem_leaveChannel_emitted hnow⟩
      · obtain ⟨d, ch₁, hd, v, hv, hne, s, hs, m, hm, rfl⟩ := ih hlater
        rw [leaveChannel_frame] at hm
        -- the first pass has only taken things out of the history seen later
        by_cases hcd : d = c
        · subst hcd
          cases hch : db.channels.lookup d with
          | none =>
              rw [leaveChannel_none hch, hch] at hd
              exact absurd hd (by simp)
          | some ch =>
              obtain ⟨ch', hch', hleft⟩ := leaveChannel_self (u := u) hch
              have heq : ch' = ch₁ := Option.some.inj (hch'.symm.trans hd)
              subst heq
              rw [hleft.userUids, List.mem_filter] at hv
              exact ⟨d, ch, hch, v, hv.1, hne, s, hleft.sublist.subset hs, m, hm, rfl⟩
        · rw [leaveChannel_other hcd] at hd
          exact ⟨d, ch₁, hd, v, hv, hne, s, hs, m, hm, rfl⟩

/-- The sweep announces deletions to members who stay. -/
theorem removeUser_entitled (howned : HistoryOwned db) {u : UUID} {sig : Signal}
    (h : sig ∈ (db.removeUser u).emitted) :
    Entitled db sig ∧ Entitled (db.removeUser u).db sig := by
  cases hu : db.users.lookup u with
  | none =>
      rw [removeUser_none hu] at h
      exact absurd h List.not_mem_nil
  | some user =>
      rw [removeUser_some hu] at h ⊢
      obtain ⟨c, ch, hc, v, hv, hne, s, hs, m, hm, rfl⟩ := mem_leaveChannels_emitted h
      -- the history is the message's own channel's
      obtain ⟨m', hm', hchan⟩ := (howned c ch hc).2 s hs
      rw [hm] at hm'
      cases hm'
      subst hchan
      refine ⟨⟨ch, hc, hv⟩, ?_⟩
      obtain ⟨ch', hch', -, -, hcount, -⟩ := leaveChannels_kept u user.channels hc
      refine ⟨ch', hch', ?_⟩
      rw [← List.count_pos_iff, hcount v hne, List.count_pos_iff]
      exact hv

/-! ## Slots -/

/-- A connection has each slot on a user's signals once if it has authenticated that user. -/
def SlotsInv (s : Server) : Prop :=
  ∀ (conn : Nat) (u : UUID) (kind : SlotKind),
    s.slots.count ⟨u, kind, conn⟩ = if s.authenticatedUser conn = some u then 1 else 0

theorem slotsInv_new : SlotsInv Server.new := by
  intro conn u kind
  rfl

theorem count_slotsOf (conn conn' : Nat) (u v : UUID) (kind : SlotKind) :
    (Server.slotsOf conn u).count ⟨v, kind, conn'⟩ = if conn' = conn ∧ v = u then 1 else 0 := by
  unfold Server.slotsOf
  by_cases h : conn' = conn ∧ v = u
  · obtain ⟨rfl, rfl⟩ := h
    rw [if_pos ⟨rfl, rfl⟩]
    cases kind <;> simp
  · rw [if_neg h, List.count_eq_zero]
    intro hin
    simp only [List.mem_cons, Slot.mk.injEq, List.not_mem_nil, or_false] at hin
    refine h ?_
    rcases hin with ⟨hv, -, hc⟩ | ⟨hv, -, hc⟩ | ⟨hv, -, hc⟩ <;> exact ⟨hc, hv⟩

/-- What is left after the disconnection: nothing of this connection's. -/
theorem count_disconnected {s : Server} (h : SlotsInv s) (conn conn' : Nat) (u : UUID)
    (kind : SlotKind) :
    (s.disconnected conn).count ⟨u, kind, conn'⟩
      = if conn' = conn then 0 else s.slots.count ⟨u, kind, conn'⟩ := by
  unfold Server.disconnected
  cases hauth : s.authenticatedUser conn with
  | none =>
      dsimp only
      split
      · rename_i heq
        rw [heq, h, hauth]
        rfl
      · rfl
  | some old =>
      have hmem : (⟨u, kind, conn'⟩ : Slot) ∈ Server.slotsOf conn old
          ↔ conn' = conn ∧ u = old := by
        rw [← List.count_pos_iff, count_slotsOf]
        split <;> simp_all
      dsimp only
      by_cases hin : (⟨u, kind, conn'⟩ : Slot) ∈ Server.slotsOf conn old
      · rw [if_pos (hmem.mp hin).1, List.count_eq_zero]
        intro hfilter
        have hnot := (List.mem_filter.mp hfilter).2
        exact absurd hin (by simpa using hnot)
      · rw [List.count_filter (by simpa using hin)]
        split
        · rename_i heq
          have hne : u ≠ old := fun hu => hin (hmem.mpr ⟨heq, hu⟩)
          rw [heq, h, hauth, if_neg (by simpa using Ne.symm hne)]
        · rfl

/-- A login leaves a connection with the slots of its new user and no others. -/
theorem slotsInv_setAuthenticatedUser {s : Server} (h : SlotsInv s) (conn : Nat) (uid : UUID) :
    SlotsInv (s.setAuthenticatedUser conn uid) := by
  intro conn' u kind
  unfold Server.setAuthenticatedUser
  dsimp only
  rw [List.count_append, count_disconnected h, count_slotsOf, h]
  by_cases hc : conn' = conn
  · subst hc
    simp [eq_comm]
  · simp [hc]

theorem framesFor_append (conn : Nat) (w w' : List (Nat × Response)) :
    framesFor conn (w ++ w') = framesFor conn w ++ framesFor conn w' := by
  unfold framesFor
  rw [List.filter_append, List.map_append]

/-- A signal is written to a connection once for each of its slots on it. -/
theorem framesFor_deliver_count (s : Server) (conn : Nat) (sig : Signal) :
    framesFor conn (s.deliver sig)
      = List.replicate (s.slots.count ⟨sig.user, sig.kind, conn⟩) sig.response := by
  -- the slots that write to this connection are copies of one slot
  have hslots : (s.slots.filter fun slot => slot.sender = sig.user ∧ slot.kind = sig.kind).filter
        (fun slot => decide (slot.receiver = conn))
      = s.slots.filter (· == ⟨sig.user, sig.kind, conn⟩) := by
    rw [List.filter_filter]
    refine List.filter_congr fun slot _ => ?_
    rcases slot with ⟨sender, kind, receiver⟩
    simp only [Bool.and_eq_decide, beq_eq_decide, Slot.mk.injEq]
    simp only [decide_eq_true_eq, decide_eq_decide]
    tauto
  unfold framesFor Server.deliver
  rw [List.filter_map, List.map_map]
  show ((List.filter (fun slot : Slot => decide (slot.receiver = conn)) _).map
    fun _ => sig.response) = _
  rw [hslots, List.filter_beq, List.map_replicate]

/-- **A signal reaches the connections of its user, once each, and no other.** -/
theorem framesFor_deliver {s : Server} (h : SlotsInv s) (conn : Nat) (sig : Signal) :
    framesFor conn (s.deliver sig)
      = if s.authenticatedUser conn = some sig.user then [sig.response] else [] := by
  rw [framesFor_deliver_count, h]
  split <;> rfl

/-- A connection hears all of its user's signals, in order, and nobody else's. -/
theorem framesFor_notified {s : Server} (h : SlotsInv s) (conn : Nat) (sigs : List Signal) :
    framesFor conn (sigs.flatMap s.deliver)
      = (sigs.filter fun sig => s.authenticatedUser conn = some sig.user).map Signal.response := by
  induction sigs with
  | nil => rfl
  | cons sig sigs ih =>
      rw [List.flatMap_cons, framesFor_append, ih, framesFor_deliver h, List.filter_cons]
      by_cases hauth : s.authenticatedUser conn = some sig.user
      · rw [if_pos hauth, if_pos (by simpa using hauth)]
        rfl
      · rw [if_neg hauth, if_neg (by simpa using hauth)]
        rfl

/-- A registered user is signalled as often as it is listed. -/
theorem filter_notify {userUids : List UUID} {signal : UUID → Signal}
    (hsignal : ∀ v, (signal v).user = v) {u : UUID} {user : User}
    (hu : db.users.lookup u = some user) :
    (db.notify userUids signal).filter (fun sig => some u = some sig.user)
      = List.replicate (userUids.count u) (signal u) := by
  unfold Database.notify
  rw [List.filter_map, List.filter_filter]
  -- of the listed users only `u` counts, and it is registered
  have honly : (userUids.filter fun v =>
        ((fun sig => decide (some u = some sig.user)) ∘ signal) v && (db.users.lookup v).isSome)
      = userUids.filter (· == u) := by
    refine List.filter_congr fun v _ => ?_
    by_cases hv : v = u
    · subst hv
      simp [hsignal, hu]
    · simp [hsignal, hv, Ne.symm hv]
  rw [honly, List.filter_beq, List.map_replicate]

/-- A connection without a user hears nothing. -/
theorem framesFor_notified_none {s : Server} (h : SlotsInv s) {conn : Nat}
    (hauth : s.authenticatedUser conn = none) (sigs : List Signal) :
    framesFor conn (sigs.flatMap s.deliver) = [] := by
  rw [framesFor_notified h, hauth]
  simp

/-- A connection of a registered user hears an announcement as often as it lists the user. -/
theorem framesFor_notify_count {s : Server} (h : SlotsInv s) {conn : Nat} {u : UUID} {user : User}
    (hauth : s.authenticatedUser conn = some u) (hu : s.db.users.lookup u = some user)
    (userUids : List UUID) {signal : UUID → Signal} (hsignal : ∀ v, (signal v).user = v) :
    framesFor conn ((s.db.notify userUids signal).flatMap s.deliver)
      = List.replicate (userUids.count u) (signal u).response := by
  rw [framesFor_notified h, hauth, filter_notify hsignal hu, List.map_replicate]

/-- A connection of a registered user hears an announcement once, if it is to that user. -/
theorem framesFor_notify {s : Server} (h : SlotsInv s) {conn : Nat} {u : UUID} {user : User}
    (hauth : s.authenticatedUser conn = some u) (hu : s.db.users.lookup u = some user)
    {userUids : List UUID} (hnd : userUids.Nodup) {signal : UUID → Signal}
    (hsignal : ∀ v, (signal v).user = v) :
    framesFor conn ((s.db.notify userUids signal).flatMap s.deliver)
      = if u ∈ userUids then [(signal u).response] else [] := by
  rw [framesFor_notify_count h hauth hu userUids hsignal]
  by_cases hin : u ∈ userUids
  · rw [if_pos hin, List.count_eq_one_of_mem hnd hin]
    rfl
  · rw [if_neg hin, List.count_eq_zero_of_not_mem hin]
    rfl

/-- Frames that all go to one connection. -/
theorem framesFor_own (conn conn' : Nat) (rs : List Response) :
    framesFor conn' (rs.map fun r => (conn, r)) = if conn' = conn then rs else [] := by
  unfold framesFor
  rw [List.filter_map, List.map_map]
  by_cases h : conn' = conn
  · subst h
    simp [Function.comp_def]
  · simp [Function.comp_def, h, Ne.symm h]

theorem mem_framesFor {conn : Nat} {r : Response} {written : List (Nat × Response)} :
    r ∈ framesFor conn written ↔ (conn, r) ∈ written := by
  unfold framesFor
  constructor
  · intro h
    obtain ⟨⟨c, r'⟩, hmem, rfl⟩ := List.mem_map.mp h
    obtain ⟨hin, hc⟩ := List.mem_filter.mp hmem
    have hc' : c = conn := by simpa using hc
    exact hc' ▸ hin
  · intro h
    exact List.mem_map.mpr ⟨(conn, r), List.mem_filter.mpr ⟨h, by simp⟩, rfl⟩

end SockEtOut.Proof
