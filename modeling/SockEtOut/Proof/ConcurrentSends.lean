import SockEtOut.Proof.Listings
import SockEtOut.Proof.MessageLife

/-!
# Sending while a connection logs in

One connection logs in and the others send messages. The step inversions for the
two kinds of thread are here, and what the senders keep: a message between its
storing and its listing is in the table and in no history, one that is being
announced is in both, and no two threads have the same message.
-/

namespace SockEtOut.Proof

open Lib System Threads SnowflakeIDGenerator

/-! ## The calls -/

/-- The user of the first successful `LoginResponse` among frames. -/
def greeted (frames : List Response) : Option User :=
  frames.findSome? fun
    | .login (.ok user) => some user
    | _ => none

/-- The channel whose history a loop is walking. -/
def walks : Pc → Option UUID
  | .replayingHistory channelUid .. => some channelUid
  | _ => none

/-- The channel that a message is about to be listed in. -/
def listsIn : Pc → Option UUID
  | .listing message => some message.channelId
  | _ => none

/--
The connection logs in once, and the other threads send; the clock stays in one
span. No list that the connection's loop is walking is moved.
-/
def LoginAmongSends (lo : Int) (conn : Nat) (s : State) : Nat × Act → Prop
  | (i, .sendMessage ..) => i ≠ conn
  | (_, .deleteMessage _) => False
  | (i, .login ..) => i = conn ∧ (greeted (s.written conn)).isNone
  | (_, .advance readings _) => ∀ r ∈ readings, lo ≤ r ∧ r < lo + idSpan
  | (i, .relocate) => ∀ c ∈ walks (s.pc conn), listsIn (s.pc i) ≠ some c
  | (_, .deliver) => True

instance (lo : Int) (conn : Nat) (s : State) :
    (a : Nat × Act) → Decidable (LoginAmongSends lo conn s a)
  | (i, .sendMessage ..) => inferInstanceAs (Decidable (i ≠ conn))
  | (_, .deleteMessage _) => inferInstanceAs (Decidable False)
  | (i, .login ..) => inferInstanceAs (Decidable (i = conn ∧ (greeted (s.written conn)).isNone))
  | (_, .advance readings _) =>
      inferInstanceAs (Decidable (∀ r ∈ readings, lo ≤ r ∧ r < lo + idSpan))
  | (i, .relocate) =>
      inferInstanceAs (Decidable (∀ c ∈ walks (s.pc conn), listsIn (s.pc i) ≠ some c))
  | (_, .deliver) => inferInstanceAs (Decidable True)

/-- Where a thread that sends can stand. -/
def AtSend : Pc → Prop
  | .idle | .storing .. | .listing _ | .announcing .. => True
  | _ => False

/-- Where a thread that logs in can stand. -/
def AtLogin : Pc → Prop
  | .idle | .disconnecting _ | .connecting _ | .greeting _ | .replaying _ | .openingHistory ..
  | .replayingHistory .. => True
  | _ => False

/-- Every thread keeps to its kind of call. -/
structure Roles (conn : Nat) (s : State) : Prop where
  login : AtLogin (s.pc conn)
  send : ∀ i, i ≠ conn → AtSend (s.pc i)

/-! ## What a step can be -/

/-- A step of a thread that sends. -/
inductive SenderMove (lo : Int) (conn : Nat) (s : State) (i : Nat) : State → Prop where
  /-- There is no such channel. -/
  | refused : SenderMove lo conn s i s
  | started {sender c : UUID} {content : Str} (hpc : s.pc i = .idle)
      (hc : (s.server.db.channels.lookup c).isSome) :
      SenderMove lo conn s i (s.setPc i (.storing sender c content))
  /-- The clock has moved backwards. -/
  | failed {sender c : UUID} {content : Str} (hpc : s.pc i = .storing sender c content) :
      SenderMove lo conn s i (s.setPc i .idle)
  | stored {sender c : UUID} {content : Str} {readings : List Int} {now : UInt64}
      {id : BitVec 64} {generator : SnowflakeIDGenerator} (hpc : s.pc i = .storing sender c content)
      (hid : s.server.db.generator.nextId readings = (.returned id, generator))
      (hr : ∀ r ∈ readings, lo ≤ r ∧ r < lo + idSpan) :
      SenderMove lo conn s i
        ((s.setDb { s.server.db with
            messages := s.server.db.messages.emplace (.ofBitVec id)
              (.new sender c content (.ofBitVec id) now)
            generator }).setPc i (.listing (.new sender c content (.ofBitVec id) now)))
  /-- The list is full, and the connection's loop is not walking it. -/
  | relocated {m : Message} (hpc : s.pc i = .listing m)
      (hapart : ∀ c ∈ walks (s.pc conn), m.channelId ≠ c) :
      SenderMove lo conn s i
        { s with block := Function.update s.block m.channelId (s.block m.channelId + 1) }
  | listed {m : Message} (hpc : s.pc i = .listing m) :
      SenderMove lo conn s i
        ((s.setDb { s.server.db with
            channels :=
              s.server.db.channels.modify m.channelId (·.addMessage m.snowflake) }).setPc i
          (.announcing m (members s.server.db m.channelId)))
  | announced {m : Message} {u : UUID} {us : List UUID} (hpc : s.pc i = .announcing m (u :: us)) :
      SenderMove lo conn s i ((s.signal i u (.messageReceived · m)).setPc i (.announcing m us))
  | returned {m : Message} (hpc : s.pc i = .announcing m []) :
      SenderMove lo conn s i (s.setPc i .idle)
  | delivered {r : Response} {rs : List Response} (hpc : s.pc i = .idle)
      (hqueued : s.queued i = r :: rs) :
      SenderMove lo conn s i { s.write i [r] with queued := Function.update s.queued i rs }

theorem senderMove_of_step [External] {lo : Int} {conn i : Nat} {s s' : State} {act : Act}
    (hrole : AtSend (s.pc i)) (hi : i ≠ conn) (hg : LoginAmongSends lo conn s (i, act))
    (hstep : Threads.step s (i, act) = some s') : SenderMove lo conn s i s' := by
  rcases threads_step_cases hstep with ⟨readings, now, rfl, hs⟩ | ⟨m, rfl, hpc, rfl⟩ | ⟨hpc, hs⟩
  · cases hpc : s.pc i with
    | idle =>
        rw [hpc] at hs
        cases hs
    | storing sender c content =>
        rw [hpc] at hs
        unfold advance MessageTable.addMessage at hs
        dsimp only at hs
        cases hid : s.server.db.generator.nextId readings with
        | mk outcome generator =>
            rw [hid] at hs
            cases outcome with
            | returned id =>
                cases hs
                exact .stored hpc hid hg
            | raised e =>
                -- the generator is as it was
                cases hs
                have hsame := nextId_raised hid
                subst hsame
                exact .failed hpc
            | waiting => cases hs
    | listing m =>
        rw [hpc] at hs
        cases hs
        exact .listed hpc
    | announcing m us =>
        rw [hpc] at hs
        cases us with
        | nil =>
            cases hs
            exact .returned hpc
        | cons u us =>
            cases hs
            exact .announced hpc
    | _ =>
        rw [hpc] at hrole
        exact hrole.elim
  · refine .relocated hpc fun c hc heq => hg c hc ?_
    rw [hpc, ← heq]
    rfl
  · cases act with
    | relocate => cases hs
    | sendMessage sender c text =>
        unfold pickUp at hs
        dsimp only at hs
        split at hs
        · cases hs
          exact .refused
        · rename_i ch hc
          cases hs
          exact .started hpc (by rw [hc]; rfl)
    | deleteMessage t => exact hg.elim
    | login username password => exact absurd hg.1 hi
    | advance readings now => cases hs
    | deliver =>
        unfold pickUp at hs
        dsimp only at hs
        split at hs
        · cases hs
        · rename_i r rs hqueued
          cases hs
          exact .delivered hpc hqueued

/-- The loop over channels or over a history is under way. -/
def Replaying : Pc → Prop
  | .replaying _ | .openingHistory .. | .replayingHistory .. => True
  | _ => False

/-- A loop over a history is where the list's cells are. -/
def InPlace (s : State) (pc : Pc) : Prop :=
  ∀ c b ts cs, pc = .replayingHistory c b ts cs → s.block c = b

theorem inPlace_of_ne {s : State} {pc : Pc} (h : ∀ c b ts cs, pc ≠ .replayingHistory c b ts cs) :
    InPlace s pc :=
  fun c b ts cs hpc => absurd hpc (h c b ts cs)

/-- What is left of the range of the loop over a history. -/
def snapshot : Pc → List UInt64
  | .replayingHistory _ _ messageSnowflakes _ => messageSnowflakes
  | _ => []

/-- The channels whose history has not been read yet. -/
def remaining : Pc → List UUID
  | .greeting user => user.channels
  | .replaying channelUids | .replayingHistory _ _ _ channelUids => channelUids
  | .openingHistory channelUid channelUids => channelUid :: channelUids
  | _ => []

/-- What the replay will still read, if nothing changes. -/
def toReplay (db : Database) (pc : Pc) : List UInt64 :=
  snapshot pc ++ (remaining pc).flatMap (history db)

/-- The snowflakes of the messages that frames carry. -/
def carried (frames : List Response) : List UInt64 :=
  frames.filterMap fun
    | .sendMessage (.ok message) => some message.snowflake
    | _ => none

/-- A step of the thread that logs in. -/
inductive LoginMove (s : State) (conn : Nat) : State → Prop where
  | refused (rs : List Response) (hpc : s.pc conn = .idle)
      (hrs : ∀ r ∈ rs, ∃ e, r = .login (.error e)) : LoginMove s conn (s.write conn rs)
  | accepted {uid : UUID} {user : User} (hpc : s.pc conn = .idle)
      (hnew : greeted (s.written conn) = none) (hu : s.server.db.users.lookup uid = some user) :
      LoginMove s conn (s.setPc conn (.disconnecting user))
  | disconnected {user : User} (hpc : s.pc conn = .disconnecting user) :
      LoginMove s conn
        { s.setPc conn (.connecting user) with
          server := { s.server with slots := s.server.disconnected conn } }
  | connected {user : User} (hpc : s.pc conn = .connecting user) :
      LoginMove s conn
        { s.setPc conn (.greeting user) with
          server := { s.server with
            authenticatedUser :=
              Function.update s.server.authenticatedUser conn (some user.uid)
            slots := s.server.slots ++ Server.slotsOf conn user.uid } }
  | greeted {user : User} (hpc : s.pc conn = .greeting user) :
      LoginMove s conn
        ((s.write conn [.login (.ok user)]).setPc conn (.replaying user.channels))
  /-- What the replay reads it writes, and then goes on with the rest. -/
  | replayed (pc' : Pc) (rs : List Response) (hpc : Replaying (s.pc conn))
      (hpc' : Replaying pc' ∨ pc' = .idle)
      (hrest : carried rs ++ toReplay s.server.db pc' = toReplay s.server.db (s.pc conn))
      (hchannels : (remaining pc').Sublist (remaining (s.pc conn))) (hplace : InPlace s pc')
      (hrs : ∀ r ∈ rs, (∃ ch, r = .createChannel (.ok ch))
        ∨ ∃ m, r = .sendMessage (.ok m) ∧ s.server.db.messages.lookup m.snowflake = some m) :
      LoginMove s conn ((s.write conn rs).setPc conn pc')
  | delivered {r : Response} {rs : List Response} (hpc : s.pc conn = .idle)
      (hqueued : s.queued conn = r :: rs) :
      LoginMove s conn { s.write conn [r] with queued := Function.update s.queued conn rs }

theorem write_nil (s : State) (conn : Nat) : s.write conn [] = s := by
  unfold State.write
  rw [List.append_nil, Function.update_eq_self]

theorem loginMove_of_advance {s s' : State} {conn : Nat} {readings : List Int} {now : UInt64}
    (hrole : AtLogin (s.pc conn)) (hkeyed : Keyed s.server.db)
    (hstored : ∀ t ∈ toReplay s.server.db (s.pc conn), ∃ m, s.server.db.messages.lookup t = some m)
    (hplace : InPlace s (s.pc conn))
    (hs : advance s conn readings now (s.pc conn) = some s') : LoginMove s conn s' := by
  -- the steps of the replay that write nothing
  have hsilent : ∀ pc', Replaying (s.pc conn) → (Replaying pc' ∨ pc' = .idle) →
      toReplay s.server.db pc' = toReplay s.server.db (s.pc conn) →
      (remaining pc').Sublist (remaining (s.pc conn)) → InPlace s pc' →
      LoginMove s conn (s.setPc conn pc') := by
    intro pc' hpc hpc' hrest hchannels hplace'
    have hreplayed : LoginMove s conn ((s.write conn []).setPc conn pc') :=
      .replayed pc' [] hpc hpc' hrest hchannels hplace' fun r hr => absurd hr List.not_mem_nil
    rwa [write_nil] at hreplayed
  cases hpc : s.pc conn with
  | idle =>
      rw [hpc] at hs
      cases hs
  | disconnecting user =>
      rw [hpc] at hs
      cases hs
      exact .disconnected hpc
  | connecting user =>
      rw [hpc] at hs
      cases hs
      exact .connected hpc
  | greeting user =>
      rw [hpc] at hs
      cases hs
      exact .greeted hpc
  | replaying cs =>
      rw [hpc] at hs hsilent hstored
      cases cs with
      | nil =>
          cases hs
          exact hsilent .idle trivial (Or.inr rfl) rfl (List.Sublist.refl _) nofun
      | cons c cs =>
          unfold advance at hs
          dsimp only at hs
          split at hs
          · rename_i hnone
            cases hs
            refine hsilent _ trivial (Or.inl trivial) ?_ (List.sublist_cons_self c cs) nofun
            have hempty : history s.server.db c = [] := by
              unfold history
              rw [hnone]
              rfl
            show cs.flatMap (history s.server.db) = (c :: cs).flatMap (history s.server.db)
            rw [List.flatMap_cons, hempty, List.nil_append]
          · rename_i ch hch
            cases hs
            refine .replayed (.openingHistory c cs) [.createChannel (.ok ch)] (by rw [hpc]; trivial)
              (Or.inl trivial) (by rw [hpc]; rfl) (by rw [hpc]; exact List.Sublist.refl _) nofun ?_
            intro r hr
            exact Or.inl ⟨ch, List.mem_singleton.mp hr⟩
  | openingHistory c cs =>
      rw [hpc] at hs hsilent
      cases hs
      refine hsilent _ trivial (Or.inl trivial) ?_ (List.sublist_cons_self c cs) ?_
      · show history s.server.db c ++ cs.flatMap _ = (c :: cs).flatMap _
        rw [List.flatMap_cons]
      · intro d b ts ds heq
        cases heq
        rfl
  | replayingHistory c b ts cs =>
      rw [hpc] at hs hsilent hstored
      have hblock : s.block c = b := hplace c b ts cs hpc
      unfold advance at hs
      dsimp only at hs
      rw [if_neg (not_not_intro hblock)] at hs
      cases ts with
      | nil =>
          cases hs
          exact hsilent _ trivial (Or.inl trivial) rfl (List.Sublist.refl _) nofun
      | cons t ts =>
          dsimp only at hs
          obtain ⟨m, hm⟩ := hstored t List.mem_cons_self
          rw [hm] at hs
          cases hs
          have hkey : m.snowflake = t := hkeyed t m hm
          refine .replayed (.replayingHistory c b ts cs) [.sendMessage (.ok m)]
            (by rw [hpc]; trivial) (Or.inl trivial) ?_
            (by rw [hpc]; exact List.Sublist.refl _) ?_ ?_
          · rw [hpc]
            show m.snowflake :: (ts ++ cs.flatMap _) = t :: (ts ++ cs.flatMap _)
            rw [hkey]
          · intro d b' ts' ds heq
            cases heq
            exact hblock
          · intro r hr
            exact Or.inr ⟨m, List.mem_singleton.mp hr, hkey ▸ hm⟩
  | _ =>
      rw [hpc] at hrole
      exact hrole.elim

theorem loginMove_of_step [External] {lo : Int} {conn : Nat} {s s' : State} {act : Act}
    (hrole : AtLogin (s.pc conn)) (hkeyed : Keyed s.server.db)
    (hstored : ∀ t ∈ toReplay s.server.db (s.pc conn), ∃ m, s.server.db.messages.lookup t = some m)
    (hplace : InPlace s (s.pc conn)) (hg : LoginAmongSends lo conn s (conn, act))
    (hstep : Threads.step s (conn, act) = some s') : LoginMove s conn s' := by
  rcases threads_step_cases hstep with ⟨readings, now, -, hs⟩ | ⟨m, -, hpc, -⟩ | ⟨hpc, hs⟩
  · exact loginMove_of_advance hrole hkeyed hstored hplace hs
  · rw [hpc] at hrole
    exact hrole.elim
  · cases act with
    | relocate => cases hs
    | sendMessage sender c text => exact absurd rfl hg
    | deleteMessage t => exact hg.elim
    | advance readings now => cases hs
    | login username password =>
        cases hs
        have hnew : greeted (s.written conn) = none := Option.isNone_iff_eq_none.mp hg.2
        have hnothing : LoginMove s conn s := by
          have hrefused : LoginMove s conn (s.write conn []) :=
            .refused [] hpc fun r hr => absurd hr List.not_mem_nil
          rwa [write_nil] at hrefused
        unfold login
        split
        · exact hnothing
        · split
          · exact .refused _ hpc fun r hr => ⟨_, List.mem_singleton.mp hr⟩
          · exact .refused _ hpc fun r hr => ⟨_, List.mem_singleton.mp hr⟩
          · split
            · exact hnothing
            · rename_i user hu
              exact .accepted hpc hnew hu
    | deliver =>
        unfold pickUp at hs
        dsimp only at hs
        split at hs
        · cases hs
        · rename_i r rs hqueued
          cases hs
          exact .delivered hpc hqueued

/-! ## What the senders keep -/

/-- The message a thread has stored and not returned from. -/
def adding : Pc → Option Message
  | .listing message | .announcing message _ => some message
  | _ => none

/-- The tables are in order, and each sender's message is where its program counter says. -/
structure SendsInv (lo : Int) (conn : Nat) (s : State) : Prop where
  roles : Roles conn s
  keyed : Keyed s.server.db
  stamped : Stamped lo s.server.db
  owned : HistoryOwned s.server.db
  nodup : ∀ c, (history s.server.db c).Nodup
  once : MembersNodup s.server.db
  agree : MembershipInv s.server.db
  /-- The channel a message is about to be stored for is there. -/
  storing : ∀ i sender c content, s.pc i = .storing sender c content →
    (s.server.db.channels.lookup c).isSome
  /-- A sender's message is stored. -/
  added : ∀ i m, adding (s.pc i) = some m → s.server.db.messages.lookup m.snowflake = some m
  /-- Before it is listed, it is listed nowhere. -/
  listing : ∀ i m, s.pc i = .listing m → (s.server.db.channels.lookup m.channelId).isSome
    ∧ ∀ c, m.snowflake ∉ history s.server.db c
  /-- When it is announced, it is listed, and the members are signalled once each. -/
  announcing : ∀ i m us, s.pc i = .announcing m us →
    m.snowflake ∈ history s.server.db m.channelId
      ∧ us.Sublist (members s.server.db m.channelId)
  /-- No two senders have one message. -/
  apart : ∀ i j m m', adding (s.pc i) = some m → adding (s.pc j) = some m' →
    m.snowflake = m'.snowflake → i = j

/-- What a history lists is stored, for its channel. -/
theorem stored_of_history {db : Database} (howned : HistoryOwned db) {c : UUID} {t : UInt64}
    (ht : t ∈ history db c) : ∃ m, db.messages.lookup t = some m ∧ m.channelId = c := by
  cases hc : db.channels.lookup c with
  | none =>
      unfold history at ht
      rw [hc] at ht
      exact absurd ht List.not_mem_nil
  | some ch =>
      rw [history_of_lookup hc] at ht
      exact (howned c ch hc).2 t ht

theorem members_modify (db : Database) (c d : UUID) {f : Channel → Channel}
    (hf : ∀ ch, (f ch).userUids = ch.userUids) :
    members { db with channels := db.channels.modify c f } d = members db d := by
  unfold members
  rw [Table.map_lookup_modify _ _ _ hf]

/-- A step that leaves the database alone and moves one thread, with the same message or none. -/
theorem sendsInv_of_frame {lo : Int} {conn i : Nat} {s s' : State} {pc' : Pc}
    (h : SendsInv lo conn s) (hdb : s'.server.db = s.server.db)
    (hpc : ∀ j, s'.pc j = if j = i then pc' else s.pc j)
    (hlogin : i = conn → AtLogin pc') (hsend : i ≠ conn → AtSend pc')
    (hstoring : ∀ sender c content, pc' = .storing sender c content →
      (s.server.db.channels.lookup c).isSome)
    (hlisting : ∀ m, pc' ≠ .listing m)
    (hannouncing : ∀ m us, pc' = .announcing m us →
      ∃ us', s.pc i = .announcing m us' ∧ us.Sublist us') : SendsInv lo conn s' := by
  -- nothing is being added now that was not before
  have hadding : ∀ j m, adding (s'.pc j) = some m → adding (s.pc j) = some m := by
    intro j m hj
    rw [hpc] at hj
    split at hj
    · rename_i heq
      cases hpc' : pc' with
      | listing m' => exact absurd hpc' (hlisting m')
      | announcing m' us =>
          obtain ⟨us', hus', -⟩ := hannouncing m' us hpc'
          rw [heq, hus']
          rw [hpc'] at hj
          exact hj
      | _ =>
          rw [hpc'] at hj
          cases hj
    · exact hj
  refine
    { roles := ?_
      keyed := hdb ▸ h.keyed
      stamped := hdb ▸ h.stamped
      owned := hdb ▸ h.owned
      nodup := hdb ▸ h.nodup
      once := hdb ▸ h.once
      agree := hdb ▸ h.agree
      storing := ?_
      added := ?_
      listing := ?_
      announcing := ?_
      apart := fun j k m m' hj hk => h.apart j k m m' (hadding j m hj) (hadding k m' hk) }
  · refine ⟨?_, ?_⟩
    · rw [hpc]
      split
      · rename_i heq
        exact hlogin heq.symm
      · exact h.roles.login
    · intro j hj
      rw [hpc]
      split
      · rename_i heq
        exact hsend (heq ▸ hj)
      · exact h.roles.send j hj
  · intro j sender c content hj
    rw [hdb]
    rw [hpc] at hj
    split at hj
    · exact hstoring sender c content hj
    · exact h.storing j sender c content hj
  · intro j m hj
    rw [hdb]
    exact h.added j m (hadding j m hj)
  · intro j m hj
    rw [hdb]
    rw [hpc] at hj
    split at hj
    · exact absurd hj (hlisting m)
    · exact h.listing j m hj
  · intro j m us hj
    rw [hdb]
    rw [hpc] at hj
    split at hj
    · obtain ⟨us', hus', hsub⟩ := hannouncing m us hj
      obtain ⟨hin, hmembers⟩ := h.announcing i m us' hus'
      exact ⟨hin, hsub.trans hmembers⟩
    · exact h.announcing j m us hj

/-- A step that moves no thread. -/
theorem sendsInv_still {lo : Int} {conn : Nat} {s s' : State} (h : SendsInv lo conn s)
    (hdb : s'.server.db = s.server.db) (hthreads : s'.threads = s.threads) :
    SendsInv lo conn s' := by
  have hpc : ∀ j, s'.pc j = s.pc j := by
    intro j
    unfold State.pc
    rw [hthreads]
  exact
    { roles := ⟨hpc conn ▸ h.roles.login, fun j hj => hpc j ▸ h.roles.send j hj⟩
      keyed := hdb ▸ h.keyed
      stamped := hdb ▸ h.stamped
      owned := hdb ▸ h.owned
      nodup := hdb ▸ h.nodup
      once := hdb ▸ h.once
      agree := hdb ▸ h.agree
      storing := fun j sender c content hj => hdb ▸ h.storing j sender c content (hpc j ▸ hj)
      added := fun j m hj => hdb ▸ h.added j m (hpc j ▸ hj)
      listing := fun j m hj => hdb ▸ h.listing j m (hpc j ▸ hj)
      announcing := fun j m us hj => hdb ▸ h.announcing j m us (hpc j ▸ hj)
      apart := fun j k m m' hj hk => h.apart j k m m' (hpc j ▸ hj) (hpc k ▸ hk) }

theorem sendsInv_stored {lo : Int} {conn i : Nat} {s : State} (h : SendsInv lo conn s)
    (hi : i ≠ conn) {sender c : UUID} {content : Str} {readings : List Int} {now : UInt64}
    {id : BitVec 64} {generator : SnowflakeIDGenerator} (hpc : s.pc i = .storing sender c content)
    (hid : s.server.db.generator.nextId readings = (.returned id, generator))
    (hr : ∀ r ∈ readings, lo ≤ r ∧ r < lo + idSpan) :
    SendsInv lo conn
      ((s.setDb { s.server.db with
          messages := s.server.db.messages.emplace (.ofBitVec id)
            (.new sender c content (.ofBitVec id) now)
          generator }).setPc i (.listing (.new sender c content (.ofBitVec id) now))) := by
  have hfree : s.server.db.messages.lookup (.ofBitVec id) = none := nextId_fresh h.stamped hid hr
  obtain ⟨hnew, -, hold⟩ := issued_nextId hid hr
  generalize hm : Message.new sender c content (.ofBitVec id) now = m
  have hkey : m.snowflake = .ofBitVec id := by rw [← hm]; rfl
  have hchannel : m.channelId = c := by rw [← hm]; rfl
  have hlookup : ∀ t, (s.server.db.messages.emplace (.ofBitVec id) m).lookup t
      = if t = .ofBitVec id then some m else s.server.db.messages.lookup t :=
    fun t => Table.lookup_emplace hfree t m
  have hkept : ∀ {t m'}, s.server.db.messages.lookup t = some m' →
      (s.server.db.messages.emplace (.ofBitVec id) m).lookup t = some m' :=
    fun hm' => Table.lookup_emplace_of_some hm' _ _
  have hpc' : ∀ j, ((s.setDb { s.server.db with
        messages := s.server.db.messages.emplace (.ofBitVec id) m
        generator }).setPc i (.listing m)).pc j = if j = i then .listing m else s.pc j :=
    fun j => threads_pc_setPc _ i j _
  -- another sender's message is an old one
  have hother : ∀ j m', j ≠ i → adding (s.pc j) = some m' → m'.snowflake ≠ m.snowflake := by
    intro j m' _ hj heq
    have hm' := h.added j m' hj
    rw [heq, hkey, hfree] at hm'
    cases hm'
  refine
    { roles := ⟨?_, ?_⟩
      keyed := ?_
      stamped := ?_
      owned := ?_
      nodup := h.nodup
      once := h.once
      agree := h.agree
      storing := ?_
      added := ?_
      listing := ?_
      announcing := ?_
      apart := ?_ }
  · rw [hpc', if_neg (Ne.symm hi)]
    exact h.roles.login
  · intro j hj
    rw [hpc']
    split
    · trivial
    · exact h.roles.send j hj
  · intro t m' hm'
    have hcase := (hlookup t).symm.trans hm'
    split at hcase
    · rename_i ht
      rw [← Option.some.inj hcase, ht, hkey]
    · exact h.keyed t m' hcase
  · intro t m' hm'
    have hcase := (hlookup t).symm.trans hm'
    split at hcase
    · rename_i ht
      rw [ht]
      exact hnew
    · exact hold t (h.stamped t m' hcase)
  · intro d ch hd
    obtain ⟨huid, hown⟩ := h.owned d ch hd
    refine ⟨huid, ?_⟩
    intro t ht
    obtain ⟨m', hm', hchan⟩ := hown t ht
    exact ⟨m', hkept hm', hchan⟩
  · intro j sender' d content' hj
    rw [hpc'] at hj
    split at hj
    · cases hj
    · exact h.storing j sender' d content' hj
  · intro j m' hj
    rw [hpc'] at hj
    split at hj
    · cases hj
      exact (hlookup _).trans (if_pos hkey)
    · exact hkept (h.added j m' hj)
  · intro j m' hj
    rw [hpc'] at hj
    split at hj
    · cases hj
      refine ⟨?_, ?_⟩
      · rw [hchannel]
        exact h.storing i sender c content hpc
      · intro d hd
        obtain ⟨old, hm', -⟩ := stored_of_history h.owned hd
        rw [hkey, hfree] at hm'
        cases hm'
    · exact h.listing j m' hj
  · intro j m' us hj
    rw [hpc'] at hj
    split at hj
    · cases hj
    · exact h.announcing j m' us hj
  · intro j k m₁ m₂ hj hk heq
    rw [hpc'] at hj hk
    split at hj
    · rename_i hji
      split at hk
      · rename_i hki
        exact hji.trans hki.symm
      · rename_i hki
        cases hj
        exact absurd heq.symm (hother k m₂ hki hk)
    · rename_i hji
      split at hk
      · cases hk
        exact absurd heq (hother j m₁ hji hj)
      · exact h.apart j k m₁ m₂ hj hk heq

theorem sendsInv_listed {lo : Int} {conn i : Nat} {s : State} (h : SendsInv lo conn s)
    (hi : i ≠ conn) {m : Message} (hpc : s.pc i = .listing m) :
    SendsInv lo conn
      ((s.setDb { s.server.db with
          channels := s.server.db.channels.modify m.channelId (·.addMessage m.snowflake) }).setPc i
        (.announcing m (members s.server.db m.channelId))) := by
  obtain ⟨hsome, hnowhere⟩ := h.listing i m hpc
  obtain ⟨ch, hc⟩ := Option.isSome_iff_exists.mp hsome
  have hm : s.server.db.messages.lookup m.snowflake = some m := h.added i m (by rw [hpc]; rfl)
  have hhistory := history_addMessage (t := m.snowflake) hc
  have hkept : ∀ {d t}, t ∈ history s.server.db d → t ∈ history { s.server.db with
      channels := s.server.db.channels.modify m.channelId (·.addMessage m.snowflake) } d := by
    intro d t ht
    rw [hhistory]
    split
    · exact List.mem_append_left _ ht
    · exact ht
  have hmembers : ∀ d, members { s.server.db with
      channels := s.server.db.channels.modify m.channelId (·.addMessage m.snowflake) } d
      = members s.server.db d := fun d => members_modify s.server.db _ d fun ch => rfl
  have hpc' : ∀ j, ((s.setDb { s.server.db with
        channels := s.server.db.channels.modify m.channelId (·.addMessage m.snowflake) }).setPc i
          (.announcing m (members s.server.db m.channelId))).pc j
      = if j = i then .announcing m (members s.server.db m.channelId) else s.pc j :=
    fun j => threads_pc_setPc _ i j _
  have hadding : ∀ j m', adding (if j = i
      then .announcing m (members s.server.db m.channelId) else s.pc j) = some m' →
      adding (s.pc j) = some m' := by
    intro j m' hj
    split at hj
    · rename_i heq
      rw [heq, hpc]
      exact hj
    · exact hj
  refine
    { roles := ⟨?_, ?_⟩
      keyed := h.keyed
      stamped := h.stamped
      owned := ?_
      nodup := ?_
      once := ?_
      agree := ?_
      storing := ?_
      added := ?_
      listing := ?_
      announcing := ?_
      apart := ?_ }
  · rw [hpc', if_neg (Ne.symm hi)]
    exact h.roles.login
  · intro j hj
    rw [hpc']
    split
    · trivial
    · exact h.roles.send j hj
  · intro d ch' hd
    obtain ⟨old, hold, hsame, hother⟩ := Table.lookup_of_modify hd
    obtain ⟨huid, hown⟩ := h.owned d old hold
    by_cases heq : d = m.channelId
    · rw [hsame heq]
      refine ⟨huid, ?_⟩
      intro t ht
      rcases List.mem_append.mp ht with ht | ht
      · exact hown t ht
      · rw [List.mem_singleton.mp ht]
        exact ⟨m, hm, heq.symm⟩
    · rw [hother heq]
      exact ⟨huid, hown⟩
  · intro d
    show (history { s.server.db with channels := _ } d).Nodup
    rw [hhistory]
    split
    · refine List.Nodup.append (h.nodup d) (List.nodup_singleton _) ?_
      intro t ht ht'
      rw [List.mem_singleton.mp ht'] at ht
      exact hnowhere d ht
    · exact h.nodup d
  · intro d ch' hd
    obtain ⟨old, hold, hsame, hother⟩ := Table.lookup_of_modify hd
    by_cases heq : d = m.channelId
    · rw [hsame heq]
      exact h.once d old hold
    · rw [hother heq]
      exact h.once d old hold
  · intro u user hu d
    rw [h.agree u user hu d]
    refine (memberCount_modify s.server.db.channels _ _ _ ?_).symm
    intro ch
    rfl
  · intro j sender d content hj
    rw [hpc'] at hj
    split at hj
    · cases hj
    · exact (Table.isSome_lookup_modify _ _ _ _).trans (h.storing j sender d content hj)
  · intro j m' hj
    rw [hpc'] at hj
    exact h.added j m' (hadding j m' hj)
  · intro j m' hj
    rw [hpc'] at hj
    split at hj
    · cases hj
    · rename_i hji
      obtain ⟨hsome', hnowhere'⟩ := h.listing j m' hj
      refine ⟨(Table.isSome_lookup_modify _ _ _ _).trans hsome', ?_⟩
      intro d
      show m'.snowflake ∉ history { s.server.db with channels := _ } d
      -- what is listed now is the message of another thread
      have hne : m'.snowflake ≠ m.snowflake := fun heq =>
        hji (h.apart j i m' m (by rw [hj]; rfl) (by rw [hpc]; rfl) heq)
      rw [hhistory]
      split
      · rw [List.mem_append, List.mem_singleton]
        exact fun hin => hin.elim (hnowhere' d) hne
      · exact hnowhere' d
  · intro j m' us hj
    rw [hpc'] at hj
    refine ⟨?_, ?_⟩
    · split at hj
      · cases hj
        show m.snowflake ∈ history { s.server.db with channels := _ } m.channelId
        rw [hhistory, if_pos rfl]
        exact List.mem_append_right _ List.mem_cons_self
      · exact hkept (h.announcing j m' us hj).1
    · show us.Sublist (members { s.server.db with channels := _ } m'.channelId)
      rw [hmembers]
      split at hj
      · cases hj
        exact List.Sublist.refl _
      · exact (h.announcing j m' us hj).2
  · intro j k m₁ m₂ hj hk
    rw [hpc'] at hj hk
    exact h.apart j k m₁ m₂ (hadding j m₁ hj) (hadding k m₂ hk)

/-- **Preserved by every step of a sender.** -/
theorem sendsInv_sender {lo : Int} {conn i : Nat} {s s' : State} (h : SendsInv lo conn s)
    (hi : i ≠ conn) (hmove : SenderMove lo conn s i s') : SendsInv lo conn s' := by
  cases hmove with
  | refused => exact h
  | @started sender c content hpc hc =>
      refine sendsInv_of_frame h rfl (threads_pc_setPc s i · _) (fun heq => absurd heq hi)
        (fun _ => trivial) ?_ (by simp) (by simp)
      intro sender' d content' heq
      cases heq
      exact hc
  | failed hpc =>
      exact sendsInv_of_frame h rfl (threads_pc_setPc s i · _) (fun heq => absurd heq hi)
        (fun _ => trivial) (by simp) (by simp) (by simp)
  | stored hpc hid hr => exact sendsInv_stored h hi hpc hid hr
  | relocated hpc hapart => exact sendsInv_still h rfl rfl
  | listed hpc => exact sendsInv_listed h hi hpc
  | @announced m u us hpc =>
      obtain ⟨hserver, -, hthreads⟩ := signal_frame s i u (.messageReceived · m)
      have hpc' : ∀ j, ((s.signal i u (.messageReceived · m)).setPc i (.announcing m us)).pc j
          = if j = i then .announcing m us else s.pc j := by
        intro j
        rw [threads_pc_setPc]
        unfold State.pc
        rw [hthreads]
      refine sendsInv_of_frame h (congrArg Server.db hserver) hpc' (fun heq => absurd heq hi)
        (fun _ => trivial) (by simp) (by simp) ?_
      · intro m' us' heq
        cases heq
        exact ⟨u :: us, hpc, List.sublist_cons_self u us⟩
  | returned hpc =>
      exact sendsInv_of_frame h rfl (threads_pc_setPc s i · _) (fun heq => absurd heq hi)
        (fun _ => trivial) (by simp) (by simp) (by simp)
  | delivered hpc hqueued => exact sendsInv_still h rfl rfl

/-- **And by every step of the login.** -/
theorem sendsInv_login {lo : Int} {conn : Nat} {s s' : State} (h : SendsInv lo conn s)
    (hmove : LoginMove s conn s') : SendsInv lo conn s' := by
  have hframe : ∀ {s' : State} (pc' : Pc), AtLogin pc' → s'.server.db = s.server.db →
      (∀ j, s'.pc j = if j = conn then pc' else s.pc j) → SendsInv lo conn s' := by
    intro s' pc' hlogin hdb hpc
    refine sendsInv_of_frame h hdb hpc (fun _ => hlogin) (fun hne => absurd rfl hne) ?_ ?_ ?_
    · rintro sender c content rfl
      exact hlogin.elim
    · rintro m rfl
      exact hlogin
    · rintro m us rfl
      exact hlogin.elim
  cases hmove with
  | refused rs hpc hrs => exact sendsInv_still h rfl rfl
  | @accepted uid user hpc hnew hu =>
      exact hframe (.disconnecting user) trivial rfl (threads_pc_setPc s conn · _)
  | @disconnected user hpc =>
      exact hframe (.connecting user) trivial rfl (threads_pc_setPc s conn · _)
  | @connected user hpc =>
      exact hframe (.greeting user) trivial rfl (threads_pc_setPc s conn · _)
  | @greeted user hpc =>
      exact hframe (.replaying user.channels) trivial rfl (threads_pc_setPc _ conn · _)
  | replayed pc' rs hpc hpc' hrest hchannels hplace hrs =>
      refine hframe pc' ?_ rfl (threads_pc_setPc _ conn · _)
      rcases hpc' with hpc' | rfl
      · cases pc' with
        | replaying _ | openingHistory _ _ | replayingHistory _ _ _ _ => trivial
        | _ => exact hpc'.elim
      · trivial
  | delivered hpc hqueued => exact sendsInv_still h rfl rfl

end SockEtOut.Proof
