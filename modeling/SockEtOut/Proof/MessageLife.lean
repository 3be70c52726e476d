import SockEtOut.Proof.History
import SockEtOut.Server.Threads

/-!
# The life of a message

Sending stores a message and then lists it; deleting finds it, erases it and then
unlists it. Between any two of these another thread may move, and what a snowflake
can look like in between is its `Phase`. `view` is what the store and the threads
show of a snowflake, and `StoreMove` is all that a step of any handler can do to
either.
-/

namespace SockEtOut.Proof

open Lib System Threads SnowflakeIDGenerator

/-! ## Issued snowflakes -/

/-- `t` was issued in the span from `lo`, and no later than the generator's last id. -/
def Issued (lo : Int) (g : SnowflakeIDGenerator) (t : UInt64) : Prop :=
  ∃ (r : Int) (q : Nat), q ≤ maxSequence ∧ lo ≤ r ∧ r < lo + idSpan ∧ t = .ofBitVec (g.pack r q)
    ∧ (r < g.lastTimestamp ∨ r = g.lastTimestamp ∧ q ≤ g.sequence)

/-- A new id is issued and not issued before, and what was issued stays issued. -/
theorem issued_nextId {lo : Int} {g g' : SnowflakeIDGenerator} {readings : List Int}
    {id : BitVec 64} (hid : g.nextId readings = (.returned id, g'))
    (hr : ∀ r ∈ readings, lo ≤ r ∧ r < lo + idSpan) :
    Issued lo g' (.ofBitVec id) ∧ ¬ Issued lo g (.ofBitVec id)
      ∧ ∀ t, Issued lo g t → Issued lo g' t := by
  obtain ⟨r, q, hq, hin, hpack, rfl, hlater⟩ := nextId_returned hid
  obtain ⟨hlo, hhi⟩ := hr r hin
  refine ⟨⟨r, q, hq, hlo, hhi, by rw [hpack]; rfl, Or.inr ⟨rfl, Nat.le_refl q⟩⟩, ?_, ?_⟩
  · rintro ⟨r₀, q₀, hq₀, hlo₀, hhi₀, heq, hbefore⟩
    rw [hpack] at heq
    have hsame := pack_inj g hq hq₀ ⟨hlo, hhi⟩ ⟨hlo₀, hhi₀⟩ (ofBitVec_inj heq)
    omega
  · rintro t ⟨r₀, q₀, hq₀, hlo₀, hhi₀, heq, hbefore⟩
    refine ⟨r₀, q₀, hq₀, hlo₀, hhi₀, heq, ?_⟩
    show r₀ < r ∨ r₀ = r ∧ q₀ ≤ q
    omega

/-! ## Phases -/

/-- What a thread has in hand of a snowflake. -/
inductive Hand where
  | nothing
  /-- It has stored the message and will list it. -/
  | sending (message : Message)
  /-- It has found the message and will erase it. -/
  | deleting (message : Message)
  /-- It has erased the message and will unlist it. -/
  | erased (message : Message)
  deriving DecidableEq

/-- What a program counter has in hand of a snowflake. -/
def inHand (t : UInt64) : Pc → Hand
  | .listing message => if message.snowflake = t then .sending message else .nothing
  | .findingChannel message | .erasing message =>
      if message.snowflake = t then .deleting message else .nothing
  | .announcingDeletion message _ => if message.snowflake = t then .erased message else .nothing
  | _ => .nothing

/-- All that the store and the threads show of a snowflake. -/
@[ext] structure View where
  /-- The message stored under it. -/
  stored : Option Message
  /-- How often each channel lists it. -/
  listed : UUID → Nat
  hand : Nat → Hand
  /-- How many deletions of it have succeeded. -/
  removed : Nat

/-- The view after a thread has changed what it has in hand. -/
def View.put (v : View) (i : Nat) (hand : Hand) : View :=
  { v with hand := fun j => if j = i then hand else v.hand j }

def view (s : State) (t : UInt64) : View where
  stored := s.server.db.messages.lookup t
  listed c := (history s.server.db c).count t
  hand i := inHand t (s.pc i)
  removed := s.removed.count t

/-- From being sent to being deleted; a sender and a deleter are threads. -/
inductive Phase where
  | unborn
  | stored (message : Message) (sender : Nat)
  | storedFound (message : Message) (sender deleter : Nat) (apart : sender ≠ deleter)
  | listed (message : Message)
  | listedFound (message : Message) (deleter : Nat)
  | erasedUnlisted (message : Message) (sender deleter : Nat) (apart : sender ≠ deleter)
  | erasedListed (message : Message) (deleter : Nat)
  | removed

/-- Listed once, in one channel. -/
def onlyIn (c : UUID) : UUID → Nat := fun d => if d = c then 1 else 0

/-- In the hands of one thread. -/
def heldBy (i : Nat) (hand : Hand) : Nat → Hand := fun j => if j = i then hand else .nothing

/-- In the hands of two. -/
def heldByBoth (i j : Nat) (hand hand' : Hand) : Nat → Hand :=
  fun k => if k = i then hand else if k = j then hand' else .nothing

/-- What a phase looks like. -/
def Phase.view : Phase → View
  | .unborn => ⟨none, fun _ => 0, fun _ => .nothing, 0⟩
  | .stored m i => ⟨some m, fun _ => 0, heldBy i (.sending m), 0⟩
  | .storedFound m i j _ => ⟨some m, fun _ => 0, heldByBoth i j (.sending m) (.deleting m), 0⟩
  | .listed m => ⟨some m, onlyIn m.channelId, fun _ => .nothing, 0⟩
  | .listedFound m j => ⟨some m, onlyIn m.channelId, heldBy j (.deleting m), 0⟩
  | .erasedUnlisted m i j _ => ⟨none, fun _ => 0, heldByBoth i j (.sending m) (.erased m), 0⟩
  | .erasedListed m j => ⟨none, onlyIn m.channelId, heldBy j (.erased m), 0⟩
  | .removed => ⟨none, fun _ => 0, fun _ => .nothing, 1⟩

/-- The steps of a life. -/
inductive Phase.Next : Phase → Phase → Prop where
  | store (m i) : Next .unborn (.stored m i)
  | find (m i j h) : Next (.stored m i) (.storedFound m i j h)
  | findListed (m j) : Next (.listed m) (.listedFound m j)
  | list (m i) : Next (.stored m i) (.listed m)
  | listFound (m i j h) : Next (.storedFound m i j h) (.listedFound m j)
  | listErased (m i j h) : Next (.erasedUnlisted m i j h) (.erasedListed m j)
  | erase (m i j h) : Next (.storedFound m i j h) (.erasedUnlisted m i j h)
  | eraseListed (m j) : Next (.listedFound m j) (.erasedListed m j)
  | unlist (m j) : Next (.erasedListed m j) .removed

/-! ## Hands -/

theorem put_heldBy {i j : Nat} (h : i ≠ j) (a b : Hand) :
    (fun k => if k = j then b else heldBy i a k) = heldByBoth i j a b := by
  funext k
  unfold heldBy heldByBoth
  by_cases hj : k = j
  · subst hj
    rw [if_pos rfl, if_neg (Ne.symm h), if_pos rfl]
  · rw [if_neg hj, if_neg hj]

theorem change_heldBy (i : Nat) (a b : Hand) :
    (fun k => if k = i then b else heldBy i a k) = heldBy i b := by
  funext k
  unfold heldBy
  by_cases hi : k = i
  · rw [if_pos hi, if_pos hi]
  · rw [if_neg hi, if_neg hi, if_neg hi]

theorem heldBy_nothing (i : Nat) : heldBy i .nothing = fun _ => .nothing := by
  funext k
  unfold heldBy
  split <;> rfl

theorem drop_first {i j : Nat} (h : i ≠ j) (a b : Hand) :
    (fun k => if k = i then .nothing else heldByBoth i j a b k) = heldBy j b := by
  funext k
  unfold heldBy heldByBoth
  by_cases hi : k = i
  · subst hi
    rw [if_pos rfl, if_neg h]
  · rw [if_neg hi, if_neg hi]

theorem change_second {i j : Nat} (h : i ≠ j) (a b b' : Hand) :
    (fun k => if k = j then b' else heldByBoth i j a b k) = heldByBoth i j a b' := by
  funext k
  unfold heldByBoth
  by_cases hj : k = j
  · subst hj
    rw [if_pos rfl, if_neg (Ne.symm h), if_pos rfl]
  · rw [if_neg hj, if_neg hj, if_neg hj]

@[simp] theorem heldBy_self (i : Nat) (a : Hand) : heldBy i a i = a := if_pos rfl

@[simp] theorem heldByBoth_first (i j : Nat) (a b : Hand) : heldByBoth i j a b i = a := if_pos rfl

theorem heldByBoth_second {i j : Nat} (h : i ≠ j) (a b : Hand) : heldByBoth i j a b j = b := by
  unfold heldByBoth
  rw [if_neg (Ne.symm h), if_pos rfl]

theorem heldBy_eq {i j : Nat} {a b : Hand} (h : heldBy i a j = b) (hb : b ≠ .nothing) :
    j = i ∧ a = b := by
  unfold heldBy at h
  split at h
  · rename_i hj
    exact ⟨hj, h⟩
  · exact absurd h.symm hb

theorem heldByBoth_eq {i j k : Nat} {a b c : Hand} (h : heldByBoth i j a b k = c)
    (hc : c ≠ .nothing) : k = i ∧ a = c ∨ k = j ∧ b = c := by
  unfold heldByBoth at h
  split at h
  · rename_i hk
    exact Or.inl ⟨hk, h⟩
  · split at h
    · rename_i hk
      exact Or.inr ⟨hk, h⟩
    · exact absurd h.symm hc

/-! ## What a step does to the store -/

/-- The channel a program counter is about to store or list a message in. -/
def target : Pc → Option UUID
  | .storing _ channelUid _ => some channelUid
  | .listing message => some message.channelId
  | _ => none

theorem threads_pc_setPc (s : State) (i j : Nat) (pc : Pc) :
    (s.setPc i pc).pc j = if j = i then pc else s.pc j := by
  unfold State.pc State.setPc
  dsimp only
  rw [Table.lookup_assign]
  split <;> rfl

theorem self_setPc (s : State) (i : Nat) (pc : Pc) : (s.setPc i pc).pc i = pc :=
  (threads_pc_setPc s i i pc).trans (if_pos rfl)

theorem others_setPc (s : State) (i : Nat) (pc : Pc) (j : Nat) (hj : j ≠ i) :
    (s.setPc i pc).pc j = s.pc j :=
  (threads_pc_setPc s i j pc).trans (if_neg hj)

theorem written_write (s : State) (i : Nat) (rs : List Response) :
    (s.write i rs).written i = s.written i ++ rs :=
  Function.update_self ..

/-- What holds of all program counters in the table holds of every thread's. -/
theorem pc_of_values {s : State} {p : Pc → Bool} (hidle : p .idle = false)
    (h : ∀ pc ∈ s.threads.values, p pc = false) (i : Nat) : p (s.pc i) = false := by
  unfold State.pc
  cases hi : s.threads.lookup i with
  | none => exact hidle
  | some pc => exact h pc (Table.mem_values_iff.mpr ⟨i, hi⟩)

/-- When all the program counters in the table are idle, every thread is. -/
theorem idle_of_values {s : State} (h : ∀ pc ∈ s.threads.values, pc = .idle) (i : Nat) :
    s.pc i = .idle := by
  have hall := pc_of_values (s := s) (p := fun pc => decide (pc ≠ .idle)) rfl
    (fun pc hpc => by simpa using h pc hpc) i
  simpa using hall

/-- The ways a step can touch the tables, or what a thread has in hand. -/
inductive StoreMove (s : State) : Nat × Act → State → Prop where
  /-- It does neither, and moves no thread. -/
  | still {i : Nat} {act : Act} {s' : State} (hdb : s'.server.db = s.server.db)
      (hremoved : s'.removed = s.removed) (hthreads : s'.threads = s.threads) :
      StoreMove s (i, act) s'
  /-- It does neither. -/
  | quiet {i : Nat} {act : Act} {s' : State} (pc' : Pc) (hdb : s'.server.db = s.server.db)
      (hremoved : s'.removed = s.removed) (hpc : ∀ j, s'.pc j = if j = i then pc' else s.pc j)
      (hhand : ∀ t, inHand t pc' = inHand t (s.pc i))
      (htarget : ∀ c, target pc' = some c → (s.server.db.channels.lookup c).isSome) :
      StoreMove s (i, act) s'
  /-- A deletion finds the message but not its channel. -/
  | lost {i : Nat} {m : Message} {readings : List Int} {now : UInt64}
      (hpc : s.pc i = .findingChannel m) (hnone : s.server.db.channels.lookup m.channelId = none) :
      StoreMove s (i, .advance readings now) (s.setPc i .idle)
  | found {i : Nat} {t : UInt64} {m : Message} (hpc : s.pc i = .idle)
      (hm : s.server.db.messages.lookup t = some m) :
      StoreMove s (i, .deleteMessage t) (s.setPc i (.findingChannel m))
  | stored {i : Nat} {sender c : UUID} {content : Str} {readings : List Int} {now : UInt64}
      {id : BitVec 64} {generator : SnowflakeIDGenerator} (hpc : s.pc i = .storing sender c content)
      (hid : s.server.db.generator.nextId readings = (.returned id, generator)) :
      StoreMove s (i, .advance readings now)
        ((s.setDb { s.server.db with
            messages := s.server.db.messages.emplace (.ofBitVec id)
              (.new sender c content (.ofBitVec id) now)
            generator }).setPc i (.listing (.new sender c content (.ofBitVec id) now)))
  | listed {i : Nat} {m : Message} {readings : List Int} {now : UInt64}
      (hpc : s.pc i = .listing m) :
      StoreMove s (i, .advance readings now)
        ((s.setDb { s.server.db with
            channels :=
              s.server.db.channels.modify m.channelId (·.addMessage m.snowflake) }).setPc i
          (.announcing m (members s.server.db m.channelId)))
  | erased {i : Nat} {m : Message} {readings : List Int} {now : UInt64}
      (hpc : s.pc i = .erasing m) :
      StoreMove s (i, .advance readings now)
        ((s.setDb { s.server.db with messages := s.server.db.messages.erase m.snowflake }).setPc i
          (.announcingDeletion m (members s.server.db m.channelId)))
  | unlisted {i : Nat} {m : Message} {readings : List Int} {now : UInt64}
      (hpc : s.pc i = .announcingDeletion m []) :
      StoreMove s (i, .advance readings now)
        { (s.setDb { s.server.db with
            channels :=
              s.server.db.channels.modify m.channelId (·.removeMessage m.snowflake) }).setPc i
            .idle with
          removed := s.removed ++ [m.snowflake] }

/-- A step that leaves the tables alone and takes nothing in hand. -/
theorem storeMove_setPc {s : State} {i : Nat} {act : Act} (pc' : Pc)
    (hhand : ∀ t, inHand t pc' = inHand t (s.pc i))
    (htarget : ∀ c, target pc' = some c → (s.server.db.channels.lookup c).isSome) {s₁ : State}
    (hdb : s₁.server.db = s.server.db) (hremoved : s₁.removed = s.removed)
    (hthreads : s₁.threads = s.threads) : StoreMove s (i, act) (s₁.setPc i pc') := by
  refine .quiet pc' hdb hremoved ?_ hhand htarget
  intro j
  rw [threads_pc_setPc]
  unfold State.pc
  rw [hthreads]

/-- Signalling touches queues and sockets only. -/
theorem signal_frame (s : State) (i : Nat) (u : UUID) (signal : UUID → Signal) :
    (s.signal i u signal).server = s.server ∧ (s.signal i u signal).removed = s.removed
      ∧ (s.signal i u signal).threads = s.threads := by
  unfold State.signal
  split
  · exact ⟨rfl, rfl, rfl⟩
  · exact ⟨rfl, rfl, rfl⟩

theorem login_frame [External] (s : State) (i : Nat) (username password : Str) :
    ∃ s₁ : State, s₁.server = s.server ∧ s₁.removed = s.removed ∧ s₁.threads = s.threads
      ∧ (login s i username password = s₁
        ∨ ∃ user, login s i username password = s₁.setPc i (.disconnecting user)) := by
  unfold login
  split
  · exact ⟨s, rfl, rfl, rfl, Or.inl rfl⟩
  · split
    · rename_i error _
      exact ⟨s.write i [.login (.error error)], rfl, rfl, rfl, Or.inl rfl⟩
    · exact ⟨s.write i [.login (.error (lit "Incorrect password"))], rfl, rfl, rfl, Or.inl rfl⟩
    · split
      · exact ⟨s, rfl, rfl, rfl, Or.inl rfl⟩
      · exact ⟨s, rfl, rfl, rfl, Or.inr ⟨_, rfl⟩⟩

theorem storeMove_of_advance {s s' : State} {i : Nat} {readings : List Int} {now : UInt64}
    (hs : advance s i readings now (s.pc i) = some s') :
    StoreMove s (i, .advance readings now) s' := by
  cases hpc : s.pc i with
  | idle =>
      rw [hpc] at hs
      cases hs
  | storing sender c content =>
      rw [hpc] at hs
      unfold advance MessageTable.addMessage at hs
      dsimp only at hs
      cases hid : s.server.db.generator.nextId readings with
      | mk outcome generator =>
          rw [hid] at hs
          cases outcome with
          | returned id =>
              cases hs
              exact .stored hpc hid
          | raised e =>
              -- the clock has moved back, and the generator is as it was
              cases hs
              have hg := nextId_raised hid
              subst hg
              exact storeMove_setPc .idle (fun t => by rw [hpc]; rfl) (fun c hc => by cases hc)
                rfl rfl rfl
          | waiting => cases hs
  | listing m =>
      rw [hpc] at hs
      cases hs
      exact .listed hpc
  | announcing m us =>
      rw [hpc] at hs
      cases us with
      | nil =>
          cases hs
          exact storeMove_setPc .idle (fun t => by rw [hpc]; rfl) (fun c hc => by cases hc)
            rfl rfl rfl
      | cons u us =>
          cases hs
          obtain ⟨hserver, hremoved, hthreads⟩ := signal_frame s i u (.messageReceived · m)
          exact storeMove_setPc (.announcing m us) (fun t => by rw [hpc]; rfl)
            (fun c hc => by cases hc) (congrArg Server.db hserver) hremoved hthreads
  | findingChannel m =>
      rw [hpc] at hs
      unfold advance at hs
      dsimp only at hs
      split at hs
      · rename_i hnone
        cases hs
        exact .lost hpc hnone
      · cases hs
        exact storeMove_setPc (.erasing m) (fun t => by rw [hpc]; rfl) (fun c hc => by cases hc)
          rfl rfl rfl
  | erasing m =>
      rw [hpc] at hs
      cases hs
      exact .erased hpc
  | announcingDeletion m us =>
      rw [hpc] at hs
      cases us with
      | nil =>
          cases hs
          exact .unlisted hpc
      | cons u us =>
          cases hs
          obtain ⟨hserver, hremoved, hthreads⟩ := signal_frame s i u (.messageDeleted · m)
          exact storeMove_setPc (.announcingDeletion m us) (fun t => by rw [hpc]; rfl)
            (fun c hc => by cases hc) (congrArg Server.db hserver) hremoved hthreads
  | disconnecting user =>
      -- a login touches no message, from here on
      rw [hpc] at hs
      cases hs
      refine .quiet (.connecting user) rfl rfl (threads_pc_setPc s i · _)
        (fun t => by rw [hpc]; rfl) (fun c hc => by cases hc)
  | connecting user =>
      rw [hpc] at hs
      cases hs
      refine .quiet (.greeting user) rfl rfl (threads_pc_setPc s i · _)
        (fun t => by rw [hpc]; rfl) (fun c hc => by cases hc)
  | greeting user =>
      rw [hpc] at hs
      cases hs
      exact storeMove_setPc _ (fun t => by rw [hpc]; rfl) (fun c hc => by cases hc) rfl rfl rfl
  | replaying cs =>
      rw [hpc] at hs
      cases cs with
      | nil =>
          cases hs
          exact storeMove_setPc _ (fun t => by rw [hpc]; rfl) (fun c hc => by cases hc) rfl rfl rfl
      | cons c cs =>
          unfold advance at hs
          dsimp only at hs
          split at hs <;> cases hs <;>
            exact storeMove_setPc _ (fun t => by rw [hpc]; rfl) (fun c hc => by cases hc)
              rfl rfl rfl
  | openingHistory c cs =>
      rw [hpc] at hs
      cases hs
      exact storeMove_setPc _ (fun t => by rw [hpc]; rfl) (fun c hc => by cases hc) rfl rfl rfl
  | replayingHistory c b ts cs =>
      rw [hpc] at hs
      unfold advance at hs
      dsimp only at hs
      split at hs
      · cases hs
        exact storeMove_setPc _ (fun t => by rw [hpc]; rfl) (fun c hc => by cases hc) rfl rfl rfl
      · cases ts with
        | nil =>
            cases hs
            exact storeMove_setPc _ (fun t => by rw [hpc]; rfl) (fun c hc => by cases hc) rfl rfl
              rfl
        | cons t ts =>
            dsimp only at hs
            split at hs <;> cases hs <;>
              exact storeMove_setPc _ (fun t => by rw [hpc]; rfl) (fun c hc => by cases hc)
                rfl rfl rfl

theorem storeMove_of_pickUp [External] {s s' : State} {i : Nat} {act : Act}
    (hpc : s.pc i = .idle) (hs : pickUp s i act = some s') : StoreMove s (i, act) s' := by
  cases act with
  | advance readings now => cases hs
  | relocate => cases hs
  | sendMessage sender c text =>
      unfold pickUp at hs
      dsimp only at hs
      split at hs
      · cases hs
        exact .still rfl rfl rfl
      · rename_i ch hc
        cases hs
        refine storeMove_setPc _ (fun t => by rw [hpc]; rfl) ?_ rfl rfl rfl
        intro d hd
        cases hd
        rw [hc]
        rfl
  | deleteMessage t =>
      unfold pickUp at hs
      dsimp only at hs
      split at hs
      · cases hs
        exact .still rfl rfl rfl
      · rename_i m hm
        cases hs
        exact .found hpc hm
  | login username password =>
      cases hs
      obtain ⟨s₁, hserver, hremoved, hthreads, heq | ⟨user, heq⟩⟩ :=
        login_frame s i username password
      · rw [heq]
        exact .still (congrArg Server.db hserver) hremoved hthreads
      · rw [heq]
        exact storeMove_setPc _ (fun t => by rw [hpc]; rfl) (fun c hc => by cases hc)
          (congrArg Server.db hserver) hremoved hthreads
  | deliver =>
      unfold pickUp at hs
      dsimp only at hs
      split at hs
      · cases hs
      · cases hs
        exact .still rfl rfl rfl

/-- A thread takes its handler a step further, moves a list, or is idle and does something new. -/
theorem threads_step_cases [External] {s s' : State} {i : Nat} {act : Act}
    (hs : Threads.step s (i, act) = some s') :
    (∃ readings now, act = .advance readings now ∧ advance s i readings now (s.pc i) = some s')
      ∨ (∃ m, act = .relocate ∧ s.pc i = .listing m
        ∧ s' = { s with block := Function.update s.block m.channelId (s.block m.channelId + 1) })
      ∨ s.pc i = .idle ∧ pickUp s i act = some s' := by
  cases act with
  | advance readings now => exact Or.inl ⟨readings, now, rfl, hs⟩
  | relocate =>
      rw [Threads.step] at hs
      cases hpc : s.pc i with
      | listing m =>
          rw [hpc] at hs
          cases hs
          exact Or.inr (Or.inl ⟨m, rfl, rfl, rfl⟩)
      | _ =>
          rw [hpc] at hs
          cases hs
  | sendMessage _ _ _ => exact Or.inr (Or.inr (Option.ite_none_right_eq_some.mp hs))
  | deleteMessage _ => exact Or.inr (Or.inr (Option.ite_none_right_eq_some.mp hs))
  | login _ _ => exact Or.inr (Or.inr (Option.ite_none_right_eq_some.mp hs))
  | deliver => exact Or.inr (Or.inr (Option.ite_none_right_eq_some.mp hs))

/-- **What a step does to the store.** -/
theorem storeMove_of_step [External] {s s' : State} {i : Nat} {act : Act}
    (hs : Threads.step s (i, act) = some s') : StoreMove s (i, act) s' := by
  rcases threads_step_cases hs with ⟨readings, now, rfl, hs⟩ | ⟨m, rfl, hpc, rfl⟩ | ⟨hpc, hs⟩
  · exact storeMove_of_advance hs
  · exact .still rfl rfl rfl
  · exact storeMove_of_pickUp hpc hs

/-! ## The view of a snowflake after a step -/

theorem history_of_lookup {db : Database} {c : UUID} {ch : Channel}
    (hc : db.channels.lookup c = some ch) : history db c = ch.messageSnowflakes := by
  unfold history
  rw [hc]
  rfl

theorem members_of_lookup {db : Database} {c : UUID} {ch : Channel}
    (hc : db.channels.lookup c = some ch) : members db c = ch.userUids := by
  unfold members
  rw [hc]
  rfl

theorem history_addMessage {db : Database} {c : UUID} {t : UInt64} {ch : Channel}
    (hc : db.channels.lookup c = some ch) (d : UUID) :
    history { db with channels := db.channels.modify c (·.addMessage t) } d
      = if d = c then history db d ++ [t] else history db d := by
  unfold history
  dsimp only
  rw [Table.lookup_modify]
  split
  · rename_i hd
    rw [hd, hc]
    rfl
  · rfl

theorem history_removeMessage (db : Database) (c : UUID) (t : UInt64) (d : UUID) :
    history { db with channels := db.channels.modify c (·.removeMessage t) } d
      = if d = c then (history db d).filter (fun t' => !(t' == t)) else history db d := by
  unfold history
  dsimp only
  rw [Table.lookup_modify]
  split
  · rename_i hd
    rw [hd]
    cases hc : db.channels.lookup c with
    | none => rfl
    | some ch => exact Channel.removeMessage_messageSnowflakes ch t
  · rfl

/-- An unlisted snowflake is listed in the channel no more, and others as often as before. -/
theorem count_removeMessage (db : Database) (c : UUID) (t : UInt64) (d : UUID) (t' : UInt64) :
    (history { db with channels := db.channels.modify c (·.removeMessage t) } d).count t'
      = if d = c ∧ t' = t then 0 else (history db d).count t' := by
  rw [history_removeMessage]
  by_cases hd : d = c
  · rw [if_pos hd]
    by_cases ht : t' = t
    · rw [if_pos ⟨hd, ht⟩, ht, List.count_eq_zero]
      simp
    · rw [if_neg (fun hboth => ht hboth.2)]
      exact List.count_filter (by simpa using ht)
  · rw [if_neg hd, if_neg (fun hboth => hd hboth.1)]

/-- What a thread's move shows of a snowflake. -/
theorem view_setPc (s : State) (i : Nat) (pc : Pc) (t : UInt64) :
    view (s.setPc i pc) t = (view s t).put i (inHand t pc) := by
  refine View.ext rfl rfl ?_ rfl
  funext j
  show inHand t ((s.setPc i pc).pc j) = _
  rw [threads_pc_setPc]
  exact apply_ite (inHand t) (j = i) pc (s.pc j)

/-- A move that takes nothing in hand of a snowflake shows nothing of it. -/
theorem view_setPc_of_hand {s : State} {i : Nat} {pc : Pc} {t : UInt64}
    (h : inHand t pc = inHand t (s.pc i)) : view (s.setPc i pc) t = view s t := by
  rw [view_setPc]
  refine View.ext rfl rfl ?_ rfl
  funext j
  show (if j = i then _ else _) = _
  split
  · rename_i hj
    rw [hj, h]
    rfl
  · rfl

/-- What the tables show of a snowflake. -/
theorem view_setDb (s : State) (db : Database) (t : UInt64) :
    view (s.setDb db) t
      = { view s t with
          stored := db.messages.lookup t
          listed := fun c => (history db c).count t } := rfl

end SockEtOut.Proof
