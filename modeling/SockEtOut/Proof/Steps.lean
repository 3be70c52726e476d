import SockEtOut.Server.Database

/-!
# What one operation does

`Effect` lists, once, everything a finished call of a `Database` operation can
have done. A call that reports an error or throws has done nothing: that is one
constructor for all of them, and the reason the invariants over runs have seven
cases and not twenty.

Account deletion is the exception that a constructor cannot describe by itself.
Its sweep over channels and histories is summarised by `Left`, which says what
one channel may look like afterwards.
-/

namespace SockEtOut.Proof

open Lib

variable {db db' : Database}

/-! ## Signals -/

theorem mem_notify {userUids : List UUID} {signal : UUID → Signal} {s : Signal}
    (h : s ∈ db.notify userUids signal) :
    ∃ uid ∈ userUids, (∃ user, db.users.lookup uid = some user) ∧ s = signal uid := by
  unfold Database.notify at h
  obtain ⟨uid, hm, rfl⟩ := List.mem_map.mp h
  obtain ⟨hin, hsome⟩ := List.mem_filter.mp hm
  exact ⟨uid, hin, Option.isSome_iff_exists.mp hsome, rfl⟩

/-! ## The sweep of account deletion -/

/-- Nothing stored under `s` was sent by `u`. -/
def NotSentBy (db : Database) (u : UUID) (s : UInt64) : Prop :=
  ∀ m, db.messages.lookup s = some m → m.senderId ≠ u

/-- The sweep invents no snowflake, keeps the order, and drops only what `u` sent. -/
theorem sweepHistory_toList (u : UUID) (members : List UUID) :
    ∀ (n i : Nat) (history : Vec UInt64),
      List.Sublist (db.sweepHistory u members n i history).1.toList history.toList
      ∧ ∀ s ∈ history.toList, NotSentBy db u s →
          s ∈ (db.sweepHistory u members n i history).1.toList := by
  intro n
  induction n with
  | zero => intro i history; exact ⟨List.Sublist.refl _, fun s hs _ => hs⟩
  | succ n ih =>
      intro i history
      rw [Database.sweepHistory]
      split
      · exact ih (i + 1) history
      · rename_i m hm
        obtain ⟨x, hx, hxm⟩ := Option.bind_eq_some_iff.mp hm
        split
        · rename_i hsender
          obtain ⟨hsub, hkeep⟩ := ih (i + 1) (history.eraseIf (Vec.refEq i))
          refine ⟨hsub.trans (Vec.eraseIf_sublist _ _), fun s hs hns => hkeep s ?_ hns⟩
          -- the removal compares with `x`, which `u` did send
          have hne : s ≠ x := by
            rintro rfl
            exact hns m hxm hsender
          exact Vec.mem_eraseIf_refEq hx hs hne
        · exact ih (i + 1) history

/-- What the sweep emits: deletions of `u`'s stored messages found in the storage, to members. -/
theorem mem_sweepHistory_emitted {u : UUID} {members : List UUID} :
    ∀ {n i : Nat} {history : Vec UInt64} {sig : Signal},
      sig ∈ (db.sweepHistory u members n i history).2 →
      ∃ uid ∈ members, ∃ s ∈ history.cells, ∃ m, db.messages.lookup s = some m
        ∧ m.senderId = u ∧ sig = .messageDeleted uid m := by
  intro n
  induction n with
  | zero => intro i history sig h; exact absurd h List.not_mem_nil
  | succ n ih =>
      intro i history sig h
      rw [Database.sweepHistory] at h
      split at h
      · exact ih h
      · rename_i m hm
        obtain ⟨x, hx, hxm⟩ := Option.bind_eq_some_iff.mp hm
        split at h
        · rename_i hsender
          rcases List.mem_append.mp h with h | h
          · obtain ⟨uid, huid, -, rfl⟩ := mem_notify h
            exact ⟨uid, huid, x, List.mem_of_getElem? hx, m, hxm, hsender, rfl⟩
          · obtain ⟨uid, huid, s, hs, rest⟩ := ih h
            exact ⟨uid, huid, s, Vec.eraseIf_mem_cells hs, rest⟩
        · exact ih h

/-- What a channel that `u` has left looks like, the message table being that of `db`. -/
structure Left (db : Database) (u : UUID) (ch ch' : Channel) : Prop where
  uid : ch'.uid = ch.uid
  name : ch'.name = ch.name
  userUids : ch'.userUids = ch.userUids.filter (fun v => !(v == u))
  sublist : List.Sublist ch'.messageSnowflakes ch.messageSnowflakes
  keeps : ∀ s ∈ ch.messageSnowflakes, NotSentBy db u s → s ∈ ch'.messageSnowflakes

theorem Left.trans {u : UUID} {ch ch' ch'' : Channel} (h : Left db u ch ch')
    (h' : Left db u ch' ch'') : Left db u ch ch'' where
  uid := h'.uid.trans h.uid
  name := h'.name.trans h.name
  userUids := by rw [h'.userUids, h.userUids, List.filter_filter]; simp
  sublist := h'.sublist.trans h.sublist
  keeps s hs hns := h'.keeps s (h.keeps s hs hns) hns

theorem Left.not_mem {u : UUID} {ch ch' : Channel} (h : Left db u ch ch') : u ∉ ch'.userUids := by
  rw [h.userUids]
  simp

theorem Left.count {u v : UUID} {ch ch' : Channel} (h : Left db u ch ch') (hv : v ≠ u) :
    ch'.userUids.count v = ch.userUids.count v := by
  rw [h.userUids]
  exact List.count_filter (by simpa using hv)

/-- Only the channel table changes when `u` leaves a channel. -/
theorem leaveChannel_frame (db : Database) (u c : UUID) :
    (db.leaveChannel u c).1 = { db with channels := (db.leaveChannel u c).1.channels } := by
  unfold Database.leaveChannel
  split <;> rfl

theorem leaveChannel_none {u c : UUID} (h : db.channels.lookup c = none) :
    (db.leaveChannel u c).1 = db := by
  unfold Database.leaveChannel
  rw [h]

theorem leaveChannel_self {u c : UUID} {ch : Channel} (h : db.channels.lookup c = some ch) :
    ∃ ch', (db.leaveChannel u c).1.channels.lookup c = some ch' ∧ Left db u ch ch' := by
  unfold Database.leaveChannel
  rw [h]
  dsimp only
  rw [Table.lookup_assign, if_pos rfl]
  have hsweep := @sweepHistory_toList db u (ch.removeUser u).userUids
    (ch.removeUser u).messageSnowflakes.length 0 (Vec.ofList (ch.removeUser u).messageSnowflakes)
  rw [Vec.toList_ofList, Channel.removeUser_messageSnowflakes] at hsweep
  exact ⟨_, rfl,
    { uid := rfl
      name := rfl
      userUids := Channel.removeUser_userUids ch u
      sublist := hsweep.1
      keeps := hsweep.2 }⟩

theorem leaveChannel_other {u c d : UUID} (h : d ≠ c) :
    (db.leaveChannel u c).1.channels.lookup d = db.channels.lookup d := by
  unfold Database.leaveChannel
  split
  · rfl
  · dsimp only
    rw [Table.lookup_assign, if_neg h]

theorem leaveChannels_frame (u : UUID) : ∀ (cs : List UUID) (db : Database),
    (db.leaveChannels u cs).1 = { db with channels := (db.leaveChannels u cs).1.channels } := by
  intro cs
  induction cs with
  | nil => intro db; rfl
  | cons c cs ih =>
      intro db
      rw [Database.leaveChannels]
      dsimp only
      rw [ih (db.leaveChannel u c).1, leaveChannel_frame]

/-- A channel off the list is not touched. -/
theorem leaveChannels_other {u d : UUID} : ∀ {cs : List UUID} {db : Database}, d ∉ cs →
    (db.leaveChannels u cs).1.channels.lookup d = db.channels.lookup d := by
  intro cs
  induction cs with
  | nil => intro db _; rfl
  | cons c cs ih =>
      intro db h
      rw [List.mem_cons, not_or] at h
      rw [Database.leaveChannels]
      dsimp only
      rw [ih h.2, leaveChannel_other h.1]

/-- No channel appears. -/
theorem leaveChannels_none {u d : UUID} : ∀ {cs : List UUID} {db : Database},
    db.channels.lookup d = none → (db.leaveChannels u cs).1.channels.lookup d = none := by
  intro cs
  induction cs with
  | nil => intro db h; exact h
  | cons c cs ih =>
      intro db h
      rw [Database.leaveChannels]
      refine ih ?_
      by_cases hc : d = c
      · subst hc
        rw [leaveChannel_none h]
        exact h
      · rw [leaveChannel_other hc]
        exact h

/-- A channel on the list is left, however often it is listed. -/
theorem leaveChannels_mem {u d : UUID} : ∀ {cs : List UUID} {db : Database} {ch : Channel},
    d ∈ cs → db.channels.lookup d = some ch →
    ∃ ch', (db.leaveChannels u cs).1.channels.lookup d = some ch' ∧ Left db u ch ch' := by
  intro cs
  induction cs with
  | nil => intro db ch h _; exact absurd h List.not_mem_nil
  | cons c cs ih =>
      intro db ch hmem hch
      rw [Database.leaveChannels]
      dsimp only
      -- the message table the later passes see is the one the first pass saw
      have hmsg : ∀ {a b : Channel}, Left (db.leaveChannel u c).1 u a b → Left db u a b := by
        intro a b hab
        rw [leaveChannel_frame] at hab
        exact ⟨hab.uid, hab.name, hab.userUids, hab.sublist, hab.keeps⟩
      by_cases hc : d = c
      · subst hc
        obtain ⟨ch₁, hch₁, hleft⟩ := leaveChannel_self (u := u) hch
        by_cases hin : d ∈ cs
        · obtain ⟨ch₂, hch₂, hleft'⟩ := ih hin hch₁
          exact ⟨ch₂, hch₂, hleft.trans (hmsg hleft')⟩
        · exact ⟨ch₁, by rw [leaveChannels_other hin]; exact hch₁, hleft⟩
      · have hin : d ∈ cs := (List.mem_cons.mp hmem).resolve_left hc
        obtain ⟨ch', hch', hleft⟩ := ih hin ((leaveChannel_other (u := u) hc).trans hch)
        exact ⟨ch', hch', hmsg hleft⟩

/-- Read backwards: where a channel found after the sweep comes from. -/
theorem leaveChannels_some {u d : UUID} {cs : List UUID} {ch' : Channel}
    (h : (db.leaveChannels u cs).1.channels.lookup d = some ch') :
    ∃ ch, db.channels.lookup d = some ch ∧ (d ∈ cs → Left db u ch ch') ∧ (d ∉ cs → ch' = ch) := by
  cases hch : db.channels.lookup d with
  | none =>
      rw [leaveChannels_none hch] at h
      exact absurd h (by simp)
  | some ch =>
      refine ⟨ch, rfl, ?_, ?_⟩
      · intro hin
        obtain ⟨ch₁, hch₁, hleft⟩ := leaveChannels_mem (u := u) hin hch
        rw [hch₁] at h
        exact Option.some.inj h ▸ hleft
      · intro hin
        rw [leaveChannels_other hin, hch] at h
        exact (Option.some.inj h).symm

/-- Deleting an account empties its row in the user table and touches nothing but channels. -/
theorem removeUser_some {u : UUID} {user : User} (hu : db.users.lookup u = some user) :
    db.removeUser u =
      ⟨.returned (.ok user),
        { db with
          users := db.users.erase u
          channels := (db.leaveChannels u user.channels).1.channels },
        (db.leaveChannels u user.channels).2⟩ := by
  unfold Database.removeUser
  rw [hu]
  dsimp only
  rw [leaveChannels_frame]
  dsimp only
  unfold UserTable.removeUser
  rw [hu]

theorem removeUser_none {u : UUID} (hu : db.users.lookup u = none) :
    db.removeUser u = ⟨.returned (.error (lit "User does not exist")), db, []⟩ := by
  unfold Database.removeUser
  rw [hu]

theorem registered_of_removeUser_ok {u : UUID} {user : User}
    (h : (db.removeUser u).outcome = .returned (.ok user)) : db.users.lookup u = some user := by
  cases hu : db.users.lookup u with
  | none =>
      rw [removeUser_none hu] at h
      exact absurd h (by simp)
  | some old =>
      rw [removeUser_some hu] at h
      cases h
      rfl

/-! ## Messages -/

/-- A new message is stored, listed and announced; anything else changes no table. -/
theorem addMessage_cases (db : Database) (sender c : UUID) (content : Str) (readings : List Int)
    (now : UInt64) :
    (∃ e, db.addMessage sender c content readings now = ⟨.returned (.error e), db, []⟩)
      ∨ (∃ e, db.addMessage sender c content readings now = ⟨.raised e, db, []⟩)
      ∨ (∃ generator, db.addMessage sender c content readings now
          = ⟨.waiting, { db with generator }, []⟩)
      ∨ ∃ ch id generator, db.channels.lookup c = some ch
          ∧ db.generator.nextId readings = (.returned id, generator)
          ∧ db.addMessage sender c content readings now =
            ⟨.returned (.ok (.new sender c content (.ofBitVec id) now)),
              { db with
                messages := db.messages.emplace (.ofBitVec id)
                  (.new sender c content (.ofBitVec id) now)
                generator
                channels := db.channels.modify c (·.addMessage (.ofBitVec id)) },
              db.notify ch.userUids
                (.messageReceived · (.new sender c content (.ofBitVec id) now))⟩ := by
  unfold Database.addMessage MessageTable.addMessage
  cases hc : db.channels.lookup c with
  | none => exact Or.inl ⟨_, rfl⟩
  | some ch =>
      cases hid : db.generator.nextId readings with
      | mk outcome generator =>
          cases outcome with
          | returned id => exact Or.inr (Or.inr (Or.inr ⟨ch, id, generator, rfl, rfl, rfl⟩))
          | raised e =>
              have hg := SnowflakeIDGenerator.nextId_raised hid
              subst hg
              exact Or.inr (Or.inl ⟨e, rfl⟩)
          | waiting => exact Or.inr (Or.inr (Or.inl ⟨generator, rfl⟩))

/-- A stored message of an existing channel is erased, unlisted and announced as deleted. -/
theorem removeMessage_cases (db : Database) (s : UInt64) :
    (∃ e, db.removeMessage s = ⟨.returned (.error e), db, []⟩)
      ∨ ∃ m ch, db.messages.lookup s = some m ∧ db.channels.lookup m.channelId = some ch
          ∧ db.removeMessage s =
            ⟨.returned (.ok ()),
              { db with
                messages := db.messages.erase s
                channels := db.channels.modify m.channelId (·.removeMessage s) },
              db.notify ch.userUids (.messageDeleted · m)⟩ := by
  unfold Database.removeMessage
  cases hm : db.messages.lookup s with
  | none => exact Or.inl ⟨_, rfl⟩
  | some m =>
      dsimp only
      cases hc : db.channels.lookup m.channelId with
      | none => exact Or.inl ⟨_, rfl⟩
      | some ch => exact Or.inr ⟨m, ch, rfl, hc, rfl⟩

/-! ## Channel deletion -/

/-- The messages of a deleted channel's history leave the table, and no others. -/
theorem lookup_removeListed (ss : List UInt64) : ∀ (t : MessageTable) (s : UInt64),
    Table.lookup (ss.foldl
      (fun messages s' =>
        match Table.lookup messages s' with
        | none => messages
        | some _ => (MessageTable.removeMessage messages s').2) t) s
      = if s ∈ ss then none else Table.lookup t s := by
  induction ss with
  | nil => intro t s; simp
  | cons a ss ih =>
      intro t s
      rw [List.foldl_cons, ih]
      have hone : Table.lookup (match Table.lookup t a with
          | none => t
          | some _ => (MessageTable.removeMessage t a).2) s
          = if s = a then none else Table.lookup t s := by
        split
        · rename_i ha
          split
          · rename_i hs; rw [hs, ha]
          · rfl
        · exact Table.lookup_erase t a s
      rw [hone]
      by_cases hs : s = a <;> by_cases hin : s ∈ ss <;> simp [hs, hin]

/-! ## Everything a call can have done -/

/-- The seven operations, each by what it does when it succeeds. -/
inductive Effect (db : Database) : Database.Op → Database → Prop where
  /-- An error, or an exception: the call has done nothing. -/
  | nothing (op : Database.Op) : Effect db op db
  | userAdded {uid : UUID} {username displayName password salt : Str}
      (passwords : PasswordTable) :
      Effect db (.addUser uid username displayName password salt)
        { db with passwords, users := db.users.emplace uid (.new uid username displayName) }
  | channelAdded {uid : UUID} {channelName : Str} {members : List UUID} :
      Effect db (.addChannel uid channelName members)
        { db with
          channels := db.channels.emplace uid (.new uid channelName members)
          users := members.foldl (fun users u => users.modify u (·.addChannel uid)) db.users }
  | userJoined {u c : UUID} {user : User} {ch : Channel}
      (hu : db.users.lookup u = some user) (hc : db.channels.lookup c = some ch) :
      Effect db (.addUserToChannel u c)
        { db with
          users := db.users.modify u (·.addChannel c)
          channels := db.channels.modify c (·.addUser u) }
  | messageAdded {sender c : UUID} {content : Str} {readings : List Int} {now : UInt64}
      {ch : Channel} {id : BitVec 64} {generator : SnowflakeIDGenerator}
      (hc : db.channels.lookup c = some ch)
      (hid : db.generator.nextId readings = (.returned id, generator)) :
      Effect db (.addMessage sender c content readings now)
        { db with
          messages := db.messages.emplace (.ofBitVec id)
            (.new sender c content (.ofBitVec id) now)
          generator
          channels := db.channels.modify c (·.addMessage (.ofBitVec id)) }
  | messageRemoved {s : UInt64} {m : Message} {ch : Channel}
      (hm : db.messages.lookup s = some m) (hc : db.channels.lookup m.channelId = some ch) :
      Effect db (.removeMessage s)
        { db with
          messages := db.messages.erase s
          channels := db.channels.modify m.channelId (·.removeMessage s) }
  | channelRemoved {c : UUID} {ch : Channel} (messages : MessageTable)
      (hc : db.channels.lookup c = some ch)
      (hm : ∀ s, messages.lookup s
        = if s ∈ ch.messageSnowflakes then none else db.messages.lookup s) :
      Effect db (.removeChannel c)
        { db with
          users := ch.userUids.foldl (fun users u => users.modify u (·.removeChannel c)) db.users
          messages
          channels := db.channels.erase c }
  | userRemoved {u : UUID} {user : User} (hu : db.users.lookup u = some user) :
      Effect db (.removeUser u)
        { db with
          users := db.users.erase u
          channels := (db.leaveChannels u user.channels).1.channels }

/-- **What a step does.** -/
theorem step_effect [External] {op : Database.Op} (h : Database.step db op = some db') :
    Effect db op db' := by
  cases op with
  | addUser uid username displayName password salt =>
      cases h
      exact .userAdded _
  | addChannel uid channelName members =>
      cases h
      exact .channelAdded
  | addUserToChannel u c =>
      rw [Database.step, Database.addUserToChannel] at h
      split at h
      · cases h
        exact .nothing _
      · rename_i user hu
        split at h
        · cases h
          exact .nothing _
        · rename_i ch hc
          cases h
          exact .userJoined hu hc
  | addMessage sender c content readings now =>
      rw [Database.step] at h
      rcases addMessage_cases db sender c content readings now with
        ⟨e, heq⟩ | ⟨e, heq⟩ | ⟨generator, heq⟩ | ⟨ch, id, generator, hc, hid, heq⟩
      · rw [heq] at h
        cases h
        exact .nothing _
      · rw [heq] at h
        cases h
        exact .nothing _
      · rw [heq] at h
        cases h
      · rw [heq] at h
        cases h
        exact .messageAdded hc hid
  | removeMessage s =>
      rw [Database.step] at h
      rcases removeMessage_cases db s with ⟨e, heq⟩ | ⟨m, ch, hm, hc, heq⟩
      · rw [heq] at h
        cases h
        exact .nothing _
      · rw [heq] at h
        cases h
        exact .messageRemoved hm hc
  | removeChannel c =>
      rw [Database.step, Database.removeChannel] at h
      split at h
      · cases h
        exact .nothing _
      · rename_i ch hc
        cases h
        exact .channelRemoved _ hc (lookup_removeListed _ _)
  | removeUser u =>
      rw [Database.step] at h
      cases hu : db.users.lookup u with
      | none =>
          rw [removeUser_none hu] at h
          cases h
          exact .nothing _
      | some user =>
          rw [removeUser_some hu] at h
          cases h
          exact .userRemoved hu

end SockEtOut.Proof
