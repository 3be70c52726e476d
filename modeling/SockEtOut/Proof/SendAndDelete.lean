import SockEtOut.Proof.Histories
import SockEtOut.Proof.MessageLife
import SockEtOut.Proof.Orphans
import SockEtOut.Proof.Serving

/-!
# Sending and deleting at the same time

Every snowflake shows a phase of its life, and a step takes at most one of them a
step further. Two steps have no phase to lead to, and the condition is that they
are not made. A deletion that finds a message another deletion has found will
succeed a second time. A deletion that unlists a message before its sender has
listed it leaves the snowflake to be listed for good.
-/

namespace SockEtOut.Proof

open Lib System Threads SnowflakeIDGenerator

/-! ## The condition -/

/-- The thread has found the message, and has not returned. -/
def deletes (t : UInt64) (pc : Pc) : Bool :=
  match inHand t pc with
  | .deleting _ | .erased _ => true
  | _ => false

/-- The thread has stored the message, and has not listed it. -/
def sends (t : UInt64) (pc : Pc) : Bool :=
  match inHand t pc with
  | .sending _ => true
  | _ => false

/-- The clock stays in one span, and no snowflake is unlisted before its sender has listed it. -/
def AdvancesApart (lo : Int) (s : State) (readings : List Int) : Pc → Prop
  | .storing .. => ∀ r ∈ readings, lo ≤ r ∧ r < lo + idSpan
  | .announcingDeletion m [] => ∀ pc ∈ s.threads.values, sends m.snowflake pc = false
  | _ => True

instance (lo : Int) (s : State) (readings : List Int) :
    (pc : Pc) → Decidable (AdvancesApart lo s readings pc)
  | .storing .. => inferInstanceAs (Decidable (∀ r ∈ readings, lo ≤ r ∧ r < lo + idSpan))
  | .announcingDeletion m [] =>
      inferInstanceAs (Decidable (∀ pc ∈ s.threads.values, sends m.snowflake pc = false))
  | .announcingDeletion _ (_ :: _) | .idle | .listing _ | .announcing .. | .findingChannel _
  | .erasing _ | .disconnecting _ | .connecting _ | .greeting _ | .replaying _
  | .openingHistory .. | .replayingHistory .. => inferInstanceAs (Decidable True)

/--
A deletion finds no message that another deletion has found and not returned from,
and takes no snowflake out of the list before its sender has put it in.
-/
def DeletesApart (lo : Int) (s : State) : Nat × Act → Prop
  | (_, .deleteMessage t) =>
      (s.server.db.messages.lookup t).isSome → ∀ pc ∈ s.threads.values, deletes t pc = false
  | (i, .advance readings _) => AdvancesApart lo s readings (s.pc i)
  | _ => True

instance (lo : Int) (s : State) : (a : Nat × Act) → Decidable (DeletesApart lo s a)
  | (_, .deleteMessage t) => inferInstanceAs (Decidable
      ((s.server.db.messages.lookup t).isSome → ∀ pc ∈ s.threads.values, deletes t pc = false))
  | (i, .advance readings _) => inferInstanceAs (Decidable (AdvancesApart lo s readings (s.pc i)))
  | (_, .sendMessage ..) | (_, .login ..) | (_, .relocate) | (_, .deliver) =>
      inferInstanceAs (Decidable True)

/-! ## The invariant -/

/-- Every snowflake is somewhere in its life, and was issued unless it is unborn. -/
structure LifeInv (lo : Int) (s : State) : Prop where
  phase : ∀ t, ∃ p : Phase, view s t = p.view
  issued : ∀ t, view s t = Phase.unborn.view ∨ Issued lo s.server.db.generator t
  /-- A stored message is stored under its own snowflake. -/
  keyed : Keyed s.server.db
  /-- The channel of a stored message exists. -/
  stored : ∀ t m, s.server.db.messages.lookup t = some m →
    (s.server.db.channels.lookup m.channelId).isSome
  /-- A channel a message is about to go into exists. -/
  target : ∀ i c, target (s.pc i) = some c → (s.server.db.channels.lookup c).isSome

/-- A message found and not erased is stored, as it was found. -/
theorem stored_of_deleting {lo : Int} {s : State} (h : LifeInv lo s) {i : Nat} {m : Message}
    (hhand : inHand m.snowflake (s.pc i) = .deleting m) :
    s.server.db.messages.lookup m.snowflake = some m := by
  obtain ⟨p, hp⟩ := h.phase m.snowflake
  have hi : p.view.hand i = .deleting m := by rw [← hp]; exact hhand
  have hstored : s.server.db.messages.lookup m.snowflake = p.view.stored := by rw [← hp]; rfl
  rw [hstored]
  cases p with
  | unborn | listed _ | removed => cases hi
  | stored m' a =>
      obtain ⟨-, hm⟩ := heldBy_eq hi (by simp)
      cases hm
  | storedFound m' a b hab =>
      rcases heldByBoth_eq hi (by simp) with ⟨-, hm⟩ | ⟨-, hm⟩ <;> cases hm
      rfl
  | listedFound m' b =>
      obtain ⟨-, hm⟩ := heldBy_eq hi (by simp)
      cases hm
      rfl
  | erasedUnlisted m' a b hab =>
      rcases heldByBoth_eq hi (by simp) with ⟨-, hm⟩ | ⟨-, hm⟩ <;> cases hm
  | erasedListed m' b =>
      obtain ⟨-, hm⟩ := heldBy_eq hi (by simp)
      cases hm

/--
One snowflake is a step further in its life, if that much is said of it, and the
others show what they showed.
-/
def MovesOne (lo : Int) (s s' : State) : Prop :=
  (∀ t, view s' t = view s t)
    ∨ ∃ t, (∀ t', t' ≠ t → view s' t' = view s t') ∧ ∃ p p', view s t = p.view
      ∧ Phase.Next p p' ∧ view s' t = p'.view ∧ Issued lo s'.server.db.generator t

theorem movesOne_found {lo : Int} {s : State} (h : LifeInv lo s) {i : Nat} {t : UInt64}
    {m : Message} (hpc : s.pc i = .idle) (hm : s.server.db.messages.lookup t = some m)
    (hg : DeletesApart lo s (i, .deleteMessage t)) :
    MovesOne lo s (s.setPc i (.findingChannel m)) := by
  have hkey : m.snowflake = t := h.keyed t m hm
  have halone : ∀ j, deletes t (s.pc j) = false :=
    pc_of_values rfl (hg (by rw [hm]; rfl))
  refine Or.inr ⟨t, ?_, ?_⟩
  · intro t' ht'
    refine view_setPc_of_hand ?_
    rw [hpc]
    exact if_neg (hkey ▸ Ne.symm ht')
  · obtain ⟨p, hp⟩ := h.phase t
    have hissued : Issued lo s.server.db.generator t := by
      refine (h.issued t).resolve_left ?_
      intro hunborn
      have hnone : s.server.db.messages.lookup t = none := congrArg View.stored hunborn
      rw [hm] at hnone
      cases hnone
    have hstored : p.view.stored = some m := by rw [← hp]; exact hm
    have hi : p.view.hand i = .nothing := by
      rw [← hp]
      show inHand t (s.pc i) = _
      rw [hpc]
      rfl
    have hnobody : ∀ j m', p.view.hand j ≠ .deleting m' := by
      intro j m' hj
      have hdeletes := halone j
      unfold deletes at hdeletes
      rw [show inHand t (s.pc j) = .deleting m' by rw [← hj, ← hp]; rfl] at hdeletes
      cases hdeletes
    have hview : view (s.setPc i (.findingChannel m)) t = p.view.put i (.deleting m) := by
      rw [view_setPc, hp]
      exact congrArg _ (if_pos hkey)
    refine ⟨p, ?_⟩
    rw [hview]
    cases p with
    | unborn | erasedUnlisted _ _ _ _ | erasedListed _ _ | removed => cases hstored
    | stored m' a =>
        cases hstored
        -- the sender is not the thread that was idle
        have hne : a ≠ i := by
          rintro rfl
          rw [show (Phase.stored m a).view.hand a = .sending m from heldBy_self a _] at hi
          cases hi
        exact ⟨_, hp, .find m a i hne, View.ext rfl rfl (put_heldBy hne _ _) rfl, hissued⟩
    | storedFound m' a b hab => exact absurd (heldByBoth_second hab _ _) (hnobody b m')
    | listed m' =>
        cases hstored
        exact ⟨_, hp, .findListed m i, rfl, hissued⟩
    | listedFound m' b => exact absurd (heldBy_self b _) (hnobody b m')

/-- A new snowflake is unborn. -/
theorem movesOne_stored {lo : Int} {s : State} (h : LifeInv lo s) {i : Nat} {sender c : UUID}
    {content : Str} {readings : List Int} {now : UInt64} {id : BitVec 64}
    {generator : SnowflakeIDGenerator} (hpc : s.pc i = .storing sender c content)
    (hid : s.server.db.generator.nextId readings = (.returned id, generator))
    (hg : DeletesApart lo s (i, .advance readings now)) :
    MovesOne lo s
      ((s.setDb { s.server.db with
          messages := s.server.db.messages.emplace (.ofBitVec id)
            (.new sender c content (.ofBitVec id) now)
          generator }).setPc i (.listing (.new sender c content (.ofBitVec id) now))) := by
  have hr : AdvancesApart lo s readings (s.pc i) := hg
  rw [hpc] at hr
  obtain ⟨hnew, hnot, -⟩ := issued_nextId hid hr
  have hunborn : view s (.ofBitVec id) = Phase.unborn.view :=
    (h.issued _).resolve_right hnot
  have hnone : s.server.db.messages.lookup (.ofBitVec id) = none := congrArg View.stored hunborn
  generalize hm : Message.new sender c content (.ofBitVec id) now = m
  have hkey : m.snowflake = .ofBitVec id := by rw [← hm]; rfl
  have hhand : ∀ t, inHand t (s.pc i) = .nothing := by
    intro t
    rw [hpc]
    rfl
  refine Or.inr ⟨.ofBitVec id, ?_, ?_⟩
  · -- the other snowflakes are as they were
    intro t ht
    rw [view_setPc, view_setDb]
    refine View.ext ?_ rfl ?_ rfl
    · show (s.server.db.messages.emplace _ _).lookup t = _
      rw [Table.lookup_emplace hnone, if_neg ht]
      rfl
    · funext j
      show (if j = i then inHand t (.listing m) else inHand t (s.pc j)) = inHand t (s.pc j)
      split
      · rename_i hj
        rw [hj, hhand]
        exact if_neg (hkey ▸ Ne.symm ht)
      · rfl
  · refine ⟨.unborn, .stored m i, hunborn, .store m i, ?_, hnew⟩
    rw [view_setPc, view_setDb, hunborn]
    refine View.ext ?_ ?_ ?_ rfl
    · show (s.server.db.messages.emplace _ _).lookup _ = _
      rw [Table.lookup_emplace hnone, if_pos rfl]
      rfl
    · show (view s _).listed = _
      rw [hunborn]
      rfl
    · funext j
      show (if j = i then inHand _ (.listing m) else _) = heldBy i (.sending m) j
      exact if_congr Iff.rfl (if_pos hkey) rfl

/-- What has something in hand of a snowflake has its message, and the snowflake is born. -/
theorem issued_of_hand {lo : Int} {s : State} (h : LifeInv lo s) {i : Nat} {t : UInt64}
    (hhand : inHand t (s.pc i) ≠ .nothing) : Issued lo s.server.db.generator t := by
  refine (h.issued t).resolve_left ?_
  intro hunborn
  exact hhand (congrFun (congrArg View.hand hunborn) i)

/-- A sender that lists its message finds it stored or erased, and nowhere listed. -/
theorem movesOne_listed {lo : Int} {s : State} (h : LifeInv lo s) {i : Nat} {m : Message}
    (hpc : s.pc i = .listing m) (us : List UUID) :
    MovesOne lo s
      ((s.setDb { s.server.db with
          channels := s.server.db.channels.modify m.channelId (·.addMessage m.snowflake) }).setPc i
        (.announcing m us)) := by
  have hhand : ∀ t, inHand t (s.pc i) = if m.snowflake = t then .sending m else .nothing := by
    intro t
    rw [hpc]
    rfl
  obtain ⟨ch, hc⟩ := Option.isSome_iff_exists.mp (h.target i m.channelId (by rw [hpc]; rfl))
  refine Or.inr ⟨m.snowflake, ?_, ?_⟩
  · intro t ht
    rw [view_setPc, view_setDb]
    refine View.ext rfl ?_ ?_ rfl
    · funext d
      show (history _ d).count t = (history s.server.db d).count t
      rw [history_addMessage hc]
      split
      · rw [List.count_append, List.count_singleton, if_neg (by simpa using Ne.symm ht)]
        rfl
      · rfl
    · funext j
      show (if j = i then .nothing else inHand t (s.pc j)) = inHand t (s.pc j)
      split
      · rename_i hj
        rw [hj, hhand, if_neg (Ne.symm ht)]
      · rfl
  · obtain ⟨p, hp⟩ := h.phase m.snowflake
    have hi : p.view.hand i = .sending m := by
      rw [← hp]
      exact (hhand _).trans (if_pos rfl)
    -- listed nowhere, it is listed in its channel next
    have hlisted : p.view.listed = (fun _ => 0) →
        view ((s.setDb { s.server.db with
            channels := s.server.db.channels.modify m.channelId
              (·.addMessage m.snowflake) }).setPc i (.announcing m us)) m.snowflake
          = { p.view.put i .nothing with listed := onlyIn m.channelId } := by
      intro hzero
      rw [view_setPc, view_setDb, hp]
      refine View.ext ?_ ?_ rfl rfl
      · show (view s m.snowflake).stored = _
        rw [hp]
        rfl
      · funext d
        show (history _ d).count m.snowflake = onlyIn m.channelId d
        have hcount : (history s.server.db d).count m.snowflake = 0 := by
          show (view s m.snowflake).listed d = 0
          rw [hp, hzero]
        rw [history_addMessage hc]
        unfold onlyIn
        split
        · rw [List.count_append, hcount, List.count_singleton_self]
        · exact hcount
    have hissued : Issued lo s.server.db.generator m.snowflake :=
      issued_of_hand (i := i) h (by rw [hhand, if_pos rfl]; simp)
    refine ⟨p, ?_⟩
    cases p with
    | unborn | listed _ | removed => cases hi
    | stored m' a =>
        obtain ⟨rfl, hm⟩ := heldBy_eq hi (by simp)
        cases hm
        rw [hlisted rfl]
        exact ⟨_, hp, .list m i,
          View.ext rfl rfl ((change_heldBy i _ _).trans (heldBy_nothing i)) rfl, hissued⟩
    | storedFound m' a b hab =>
        rcases heldByBoth_eq hi (by simp) with ⟨rfl, hm⟩ | ⟨-, hm⟩ <;> cases hm
        rw [hlisted rfl]
        exact ⟨_, hp, .listFound m i b hab, View.ext rfl rfl (drop_first hab _ _) rfl, hissued⟩
    | listedFound m' b =>
        obtain ⟨-, hm⟩ := heldBy_eq hi (by simp)
        cases hm
    | erasedUnlisted m' a b hab =>
        rcases heldByBoth_eq hi (by simp) with ⟨rfl, hm⟩ | ⟨-, hm⟩ <;> cases hm
        rw [hlisted rfl]
        exact ⟨_, hp, .listErased m i b hab, View.ext rfl rfl (drop_first hab _ _) rfl, hissued⟩
    | erasedListed m' b =>
        obtain ⟨-, hm⟩ := heldBy_eq hi (by simp)
        cases hm

/-- A deletion that erases its message finds it stored. -/
theorem movesOne_erased {lo : Int} {s : State} (h : LifeInv lo s) {i : Nat} {m : Message}
    (hpc : s.pc i = .erasing m) (us : List UUID) :
    MovesOne lo s
      ((s.setDb { s.server.db with messages := s.server.db.messages.erase m.snowflake }).setPc i
        (.announcingDeletion m us)) := by
  have hhand : ∀ t, inHand t (s.pc i) = if m.snowflake = t then .deleting m else .nothing := by
    intro t
    rw [hpc]
    rfl
  refine Or.inr ⟨m.snowflake, ?_, ?_⟩
  · -- the other snowflakes are as they were
    intro t ht
    rw [view_setPc, view_setDb]
    refine View.ext ?_ rfl ?_ rfl
    · show (s.server.db.messages.erase m.snowflake).lookup t = _
      rw [Table.lookup_erase, if_neg ht]
      rfl
    · funext j
      show (if j = i then (if m.snowflake = t then .erased m else .nothing)
        else inHand t (s.pc j)) = inHand t (s.pc j)
      split
      · rename_i hj
        rw [hj, hhand, if_neg (Ne.symm ht), if_neg (Ne.symm ht)]
      · rfl
  · obtain ⟨p, hp⟩ := h.phase m.snowflake
    have hi : p.view.hand i = .deleting m := by
      rw [← hp]
      exact (hhand _).trans (if_pos rfl)
    have hview : view ((s.setDb { s.server.db with
          messages := s.server.db.messages.erase m.snowflake }).setPc i
            (.announcingDeletion m us)) m.snowflake
        = { p.view.put i (.erased m) with stored := none } := by
      rw [view_setPc, view_setDb, hp]
      refine View.ext ?_ ?_ ?_ rfl
      · show (s.server.db.messages.erase m.snowflake).lookup m.snowflake = none
        rw [Table.lookup_erase, if_pos rfl]
      · show (view s m.snowflake).listed = _
        rw [hp]
        rfl
      · funext j
        exact if_congr Iff.rfl (if_pos rfl) rfl
    have hissued : Issued lo s.server.db.generator m.snowflake :=
      issued_of_hand (i := i) h (by rw [hhand, if_pos rfl]; simp)
    refine ⟨p, ?_⟩
    rw [hview]
    -- a message is in hand to be erased in these phases only
    cases p with
    | unborn | listed _ | removed => cases hi
    | stored m' a =>
        obtain ⟨-, hm⟩ := heldBy_eq hi (by simp)
        cases hm
    | storedFound m' a b hab =>
        rcases heldByBoth_eq hi (by simp) with ⟨-, hm⟩ | ⟨rfl, hm⟩ <;> cases hm
        exact ⟨_, hp, .erase m a i hab, View.ext rfl rfl (change_second hab _ _ _) rfl, hissued⟩
    | listedFound m' b =>
        obtain ⟨rfl, hm⟩ := heldBy_eq hi (by simp)
        cases hm
        exact ⟨_, hp, .eraseListed m i, View.ext rfl rfl (change_heldBy i _ _) rfl, hissued⟩
    | erasedUnlisted m' a b hab =>
        rcases heldByBoth_eq hi (by simp) with ⟨-, hm⟩ | ⟨-, hm⟩ <;> cases hm
    | erasedListed m' b =>
        obtain ⟨-, hm⟩ := heldBy_eq hi (by simp)
        cases hm

/-- A deletion that unlists its message finds it listed, unless its sender has yet to do so. -/
theorem movesOne_unlisted {lo : Int} {s : State} (h : LifeInv lo s) {i : Nat} {m : Message}
    {readings : List Int} {now : UInt64} (hpc : s.pc i = .announcingDeletion m [])
    (hg : DeletesApart lo s (i, .advance readings now)) :
    MovesOne lo s
      { (s.setDb { s.server.db with
          channels :=
            s.server.db.channels.modify m.channelId (·.removeMessage m.snowflake) }).setPc i
          .idle with
        removed := s.removed ++ [m.snowflake] } := by
  have hapart : AdvancesApart lo s readings (s.pc i) := hg
  rw [hpc] at hapart
  have halone : ∀ j, sends m.snowflake (s.pc j) = false := pc_of_values rfl hapart
  have hhand : ∀ t, inHand t (s.pc i) = if m.snowflake = t then .erased m else .nothing := by
    intro t
    rw [hpc]
    rfl
  have hcount := count_removeMessage s.server.db m.channelId m.snowflake
  refine Or.inr ⟨m.snowflake, ?_, ?_⟩
  · intro t ht
    refine View.ext rfl ?_ ?_ ?_
    · funext d
      exact (hcount d t).trans (if_neg fun hboth => ht hboth.2)
    · funext j
      show inHand t (((s.setDb _).setPc i .idle).pc j) = inHand t (s.pc j)
      rw [threads_pc_setPc]
      split
      · rename_i hj
        rw [hj, hhand, if_neg (Ne.symm ht)]
        rfl
      · rfl
    · show (s.removed ++ [m.snowflake]).count t = s.removed.count t
      rw [List.count_append, List.count_singleton, if_neg (by simpa using Ne.symm ht)]
      rfl
  · obtain ⟨p, hp⟩ := h.phase m.snowflake
    have hi : p.view.hand i = .erased m := by
      rw [← hp]
      exact (hhand _).trans (if_pos rfl)
    have hissued : Issued lo s.server.db.generator m.snowflake :=
      issued_of_hand (i := i) h (by rw [hhand, if_pos rfl]; simp)
    refine ⟨p, .removed, hp, ?_⟩
    cases p with
    | unborn | listed _ | removed => cases hi
    | stored m' a =>
        obtain ⟨-, hm⟩ := heldBy_eq hi (by simp)
        cases hm
    | storedFound m' a b hab =>
        rcases heldByBoth_eq hi (by simp) with ⟨-, hm⟩ | ⟨-, hm⟩ <;> cases hm
    | listedFound m' b =>
        obtain ⟨-, hm⟩ := heldBy_eq hi (by simp)
        cases hm
    | erasedUnlisted m' a b hab =>
        -- the step would come before the sender's
        have hsends := halone a
        unfold sends at hsends
        rw [show inHand m.snowflake (s.pc a) = .sending m' by
          show (view s m.snowflake).hand a = _
          rw [hp]
          exact heldByBoth_first a b _ _] at hsends
        cases hsends
    | erasedListed m' b =>
        obtain ⟨rfl, hm⟩ := heldBy_eq hi (by simp)
        cases hm
        refine ⟨.unlist m i, View.ext ?_ ?_ ?_ ?_, hissued⟩
        · show (view s m.snowflake).stored = none
          rw [hp]
          rfl
        · funext d
          refine (hcount d m.snowflake).trans ?_
          split
          · rfl
          · rename_i hd
            show (view s m.snowflake).listed d = 0
            rw [hp]
            exact if_neg fun heq => hd ⟨heq, rfl⟩
        · funext j
          show inHand m.snowflake (((s.setDb _).setPc i .idle).pc j) = .nothing
          rw [threads_pc_setPc]
          split
          · rfl
          · rename_i hj
            show (view s m.snowflake).hand j = .nothing
            rw [hp]
            exact if_neg hj
        · show (s.removed ++ [m.snowflake]).count m.snowflake = 1
          have hzero : s.removed.count m.snowflake = 0 := by
            show (view s m.snowflake).removed = 0
            rw [hp]
            rfl
          rw [List.count_append, hzero, List.count_singleton_self]

/-! ## Whole runs -/

theorem lifeInv_of_moves {lo : Int} {s s' : State} (h : LifeInv lo s) (hmoves : MovesOne lo s s')
    (hissued : ∀ t, Issued lo s.server.db.generator t → Issued lo s'.server.db.generator t)
    (hkeyed : Keyed s'.server.db)
    (hstored : ∀ t m, s'.server.db.messages.lookup t = some m →
      (s'.server.db.channels.lookup m.channelId).isSome)
    (htarget : ∀ i c, target (s'.pc i) = some c → (s'.server.db.channels.lookup c).isSome) :
    LifeInv lo s' := by
  have hsame : ∀ t, view s' t = view s t →
      (∃ p : Phase, view s' t = p.view)
        ∧ (view s' t = Phase.unborn.view ∨ Issued lo s'.server.db.generator t) := by
    intro t ht
    rw [ht]
    exact ⟨h.phase t, (h.issued t).imp id (hissued t)⟩
  have hboth : ∀ t, (∃ p : Phase, view s' t = p.view)
      ∧ (view s' t = Phase.unborn.view ∨ Issued lo s'.server.db.generator t) := by
    intro t
    rcases hmoves with hall | ⟨t₀, hothers, p, p', -, -, hp', hnew⟩
    · exact hsame t (hall t)
    · by_cases ht : t = t₀
      · subst ht
        exact ⟨⟨p', hp'⟩, Or.inr hnew⟩
      · exact hsame t (hothers t ht)
  exact
    { phase := fun t => (hboth t).1
      issued := fun t => (hboth t).2
      keyed := hkeyed
      stored := hstored
      target := htarget }

/-- A thread that moves to a place without a target. -/
theorem target_of_setPc {s s' : State} {i : Nat} {pc : Pc}
    (h : ∀ i c, target (s.pc i) = some c → (s.server.db.channels.lookup c).isSome)
    (hpc : ∀ j, s'.pc j = if j = i then pc else s.pc j)
    (htarget : ∀ c, target pc = some c → (s.server.db.channels.lookup c).isSome)
    (hchannels : ∀ c, (s'.server.db.channels.lookup c).isSome
      = (s.server.db.channels.lookup c).isSome) :
    ∀ i c, target (s'.pc i) = some c → (s'.server.db.channels.lookup c).isSome := by
  intro j c hj
  rw [hchannels]
  rw [hpc] at hj
  split at hj
  · exact htarget c hj
  · exact h j c hj

/--
**Every step moves at most one snowflake, by one step of its life**, as long as
deletions keep apart.
-/
theorem movesOne_step [External] {lo : Int} {s s' : State} {a : Nat × Act} (h : LifeInv lo s)
    (hg : DeletesApart lo s a) (hs : Threads.step s a = some s') :
    MovesOne lo s s' ∧ LifeInv lo s' := by
  obtain ⟨i, act⟩ := a
  have hmove := storeMove_of_step hs
  cases hmove with
  | still hdb hremoved hthreads =>
      have hpc : s'.pc = s.pc := by
        unfold State.pc
        rw [hthreads]
      have hall : MovesOne lo s s' := by
        refine Or.inl fun t => ?_
        unfold view
        rw [hdb, hremoved, hpc]
      refine ⟨hall, lifeInv_of_moves h hall ?_ ?_ ?_ ?_⟩
      · rw [hdb]
        exact fun t ht => ht
      · rw [hdb]
        exact h.keyed
      · rw [hdb]
        exact h.stored
      · rw [hdb, hpc]
        exact h.target
  | quiet pc' hdb hremoved hpc hhand htarget =>
      have hall : MovesOne lo s s' := by
        refine Or.inl fun t => ?_
        refine View.ext ?_ ?_ ?_ ?_
        · show s'.server.db.messages.lookup t = _
          rw [hdb]
          rfl
        · show (fun c => (history s'.server.db c).count t) = _
          rw [hdb]
          rfl
        · funext j
          show inHand t (s'.pc j) = inHand t (s.pc j)
          rw [hpc]
          split
          · rename_i hj
            rw [hj]
            exact hhand t
          · rfl
        · show s'.removed.count t = _
          rw [hremoved]
          rfl
      refine ⟨hall, lifeInv_of_moves h hall ?_ ?_ ?_ ?_⟩
      · rw [hdb]
        exact fun t ht => ht
      · rw [hdb]
        exact h.keyed
      · rw [hdb]
        exact h.stored
      · refine target_of_setPc h.target hpc htarget ?_
        intro c
        rw [hdb]
  | @lost i m readings now hpc hnone =>
      -- the message is stored, so its channel is there
      have hm := stored_of_deleting (i := i) h (by rw [hpc]; exact if_pos rfl)
      have hsome := h.stored _ m hm
      rw [hnone] at hsome
      cases hsome
  | @found i t m hpc hm =>
      have hone := movesOne_found h hpc hm hg
      refine ⟨hone, lifeInv_of_moves h hone (fun _ ht => ht) h.keyed h.stored ?_⟩
      exact target_of_setPc h.target (threads_pc_setPc s i · _) (fun c hc => by cases hc)
        fun c => rfl
  | @stored i sender c content readings now id generator hpc hid =>
      have hone := movesOne_stored h hpc hid hg
      have hc : (s.server.db.channels.lookup c).isSome := h.target i c (by rw [hpc]; rfl)
      have hr : AdvancesApart lo s readings (s.pc i) := hg
      rw [hpc] at hr
      refine ⟨hone, lifeInv_of_moves h hone (issued_nextId hid hr).2.2 ?_ ?_ ?_⟩
      · intro t m hm
        rcases Table.lookup_of_emplace hm with hold | ⟨rfl, rfl⟩
        · exact h.keyed t m hold
        · rfl
      · intro t m hm
        rcases Table.lookup_of_emplace hm with hold | ⟨-, rfl⟩
        · exact h.stored t m hold
        · exact hc
      · refine target_of_setPc h.target (threads_pc_setPc _ i · _) ?_ fun c => rfl
        intro d hd
        cases hd
        exact hc
  | @listed i m readings now hpc =>
      have hone := movesOne_listed h hpc (members s.server.db m.channelId)
      refine ⟨hone, lifeInv_of_moves h hone (fun _ ht => ht) h.keyed ?_ ?_⟩
      · intro t m' hm'
        exact (Table.isSome_lookup_modify _ _ _ _).trans (h.stored t m' hm')
      · exact target_of_setPc h.target (threads_pc_setPc _ i · _) (fun c hc => by cases hc)
          fun c => Table.isSome_lookup_modify _ _ _ _
  | @erased i m readings now hpc =>
      have hone := movesOne_erased h hpc (members s.server.db m.channelId)
      refine ⟨hone, lifeInv_of_moves h hone (fun _ ht => ht) ?_ ?_ ?_⟩
      · intro t m' hm'
        exact h.keyed t m' (Table.lookup_of_erase hm').2
      · intro t m' hm'
        exact h.stored t m' (Table.lookup_of_erase hm').2
      · exact target_of_setPc h.target (threads_pc_setPc _ i · _) (fun c hc => by cases hc)
          fun c => rfl
  | @unlisted i m readings now hpc =>
      have hone := movesOne_unlisted h hpc hg
      refine ⟨hone, lifeInv_of_moves h hone (fun _ ht => ht) h.keyed ?_ ?_⟩
      · intro t m' hm'
        exact (Table.isSome_lookup_modify _ _ _ _).trans (h.stored t m' hm')
      · exact target_of_setPc h.target (threads_pc_setPc _ i · _) (fun c hc => by cases hc)
          fun c => Table.isSome_lookup_modify _ _ _ _

/-! ## Where serial requests lead -/

/-- The clock stays in one span from the epoch, and no account deletion orphans a message. -/
def Orderly (k : Int) (s : Server) (call : Server.Call) : Prop :=
  Asks (fun _ op => ReadingsWithin (spanStart k) op) s call ∧ Asks SparesMessages s call

instance (k : Int) (s : Server) (call : Server.Call) : Decidable (Orderly k s call) :=
  inferInstanceAs (Decidable (_ ∧ _))

/-- What orderly requests keep. -/
structure OrderlyInv (k : Int) (db : Database) : Prop where
  keyed : Keyed db
  stamped : Stamped (spanStart k) db
  owned : HistoryOwned db
  sorted : HistorySorted db
  orphans : NoOrphans db

theorem orderlyInv_reachable [External] {k : Int} {server : Server}
    (h : Server.system.Reachable (Orderly k) server) : OrderlyInv k server.db := by
  refine h.invariant (P := fun s => OrderlyInv k s.db) ?_ ?_
  · exact
      { keyed := keyed_init
        stamped := stamped_init _
        owned := historyOwned_init
        sorted := historySorted_init
        orphans := noOrphans_init }
  · intro s call s' _ hi hg hs
    refine db_step (P := OrderlyInv k)
      (G := fun db op => ReadingsWithin (spanStart k) op ∧ SparesMessages db op) ?_ hi
      (fun op hop => ⟨hg.1 op hop, hg.2 op hop⟩) hs
    rintro db db' op hi ⟨hr, hspares⟩ he
    exact
      { keyed := keyed_step hi.keyed he
        stamped := stamped_step hi.stamped hr he
        owned := historyOwned_step hi.owned (freshSnowflake_of_stamped hi.stamped hr) he
        sorted := historySorted_step hi.sorted hi.owned hi.stamped hr he
        orphans := noOrphans_step hi.orphans hspares he }

/-- A stored message is listed once in its channel, and nothing else is listed. -/
theorem count_history {k : Int} {db : Database} (h : OrderlyInv k db) (c : UUID) (t : UInt64) :
    (history db c).count t
      = if ∃ m, db.messages.lookup t = some m ∧ m.channelId = c then 1 else 0 := by
  unfold history
  cases hc : db.channels.lookup c with
  | none =>
      refine (if_neg ?_).symm
      rintro ⟨m, hm, rfl⟩
      obtain ⟨ch, hch, -⟩ := h.orphans t m hm
      rw [hc] at hch
      cases hch
  | some ch =>
      show ch.messageSnowflakes.count t = _
      by_cases hin : t ∈ ch.messageSnowflakes
      · obtain ⟨m, hm, hmc⟩ := (h.owned c ch hc).2 t hin
        have hnd : ch.messageSnowflakes.Nodup := (h.sorted c ch hc).imp UInt64.ne_of_lt
        rw [List.count_eq_one_of_mem hnd hin, if_pos ⟨m, hm, hmc⟩]
      · rw [List.count_eq_zero_of_not_mem hin]
        refine (if_neg ?_).symm
        rintro ⟨m, hm, rfl⟩
        obtain ⟨ch', hch', hlisted⟩ := h.orphans t m hm
        rw [hc] at hch'
        cases hch'
        exact hin hlisted

/-- At rest, a snowflake is listed or unborn. -/
theorem lifeInv_start {k : Int} {server : Server} (h : OrderlyInv k server.db) :
    LifeInv (spanStart k) (start server) := by
  have hview : ∀ t, view (start server) t = Phase.unborn.view
      ∨ ∃ m, server.db.messages.lookup t = some m
        ∧ view (start server) t = (Phase.listed m).view := by
    intro t
    cases hm : server.db.messages.lookup t with
    | none =>
        refine Or.inl (View.ext hm ?_ rfl rfl)
        funext c
        refine (count_history h c t).trans (if_neg ?_)
        rintro ⟨m, hm', -⟩
        rw [hm] at hm'
        cases hm'
    | some m =>
        refine Or.inr ⟨m, rfl, View.ext hm ?_ rfl rfl⟩
        funext c
        refine (count_history h c t).trans (if_congr ?_ rfl rfl)
        constructor
        · rintro ⟨m', hm', rfl⟩
          rw [hm] at hm'
          cases hm'
          rfl
        · rintro rfl
          exact ⟨m, hm, rfl⟩
  exact
    { phase := fun t => (hview t).elim (fun ht => ⟨_, ht⟩) fun ⟨m, _, ht⟩ => ⟨_, ht⟩
      issued := fun t => (hview t).imp id fun ⟨m, hm, _⟩ => h.stamped t m hm
      keyed := h.keyed
      stored := fun t m hm => by
        obtain ⟨ch, hch, -⟩ := h.orphans t m hm
        rw [show (start server).server.db.channels.lookup m.channelId = some ch from hch]
        rfl
      target := fun i c hc => by cases hc }

/-! ## Whole runs -/

theorem lifeInv_reachable [External] {k : Int} {server : Server} {s : State}
    (hserver : Server.system.Reachable (Orderly k) server)
    (h : (Threads.system server).Reachable (DeletesApart (spanStart k)) s) :
    LifeInv (spanStart k) s := by
  refine h.invariant (lifeInv_start (orderlyInv_reachable hserver)) ?_
  intro s a s' _ hi hg hs
  exact (movesOne_step hi hg hs).2

/-- With nothing in hand, a snowflake is listed once in its message's channel, or nowhere. -/
theorem phase_at_rest {p : Phase} (h : ∀ i, p.view.hand i = .nothing) :
    p.view.removed ≤ 1 ∧ ∀ c, p.view.listed c
      = if ∃ m, p.view.stored = some m ∧ m.channelId = c then 1 else 0 := by
  cases p with
  | unborn => exact ⟨Nat.zero_le _, fun c => (if_neg (by rintro ⟨m, hm, -⟩; cases hm)).symm⟩
  | removed => exact ⟨Nat.le_refl _, fun c => (if_neg (by rintro ⟨m, hm, -⟩; cases hm)).symm⟩
  | listed m =>
      refine ⟨Nat.zero_le _, fun c => if_congr ?_ rfl rfl⟩
      constructor
      · rintro rfl
        exact ⟨m, rfl, rfl⟩
      · rintro ⟨m', hm', rfl⟩
        cases hm'
        rfl
  | stored m i => exact absurd ((heldBy_self i _).symm.trans (h i)) (by simp)
  | storedFound m i j hij => exact absurd ((heldByBoth_first i j _ _).symm.trans (h i)) (by simp)
  | listedFound m j => exact absurd ((heldBy_self j _).symm.trans (h j)) (by simp)
  | erasedUnlisted m i j hij =>
      exact absurd ((heldByBoth_first i j _ _).symm.trans (h i)) (by simp)
  | erasedListed m j => exact absurd ((heldBy_self j _).symm.trans (h j)) (by simp)

/-- Each history lists the stored messages of its channel, each once, and nothing else. -/
def Consistent (db : Database) : Prop :=
  ∀ (c : UUID) (ch : Channel), db.channels.lookup c = some ch →
    ch.messageSnowflakes.Nodup
      ∧ ∀ t, t ∈ ch.messageSnowflakes ↔ ∃ m, db.messages.lookup t = some m ∧ m.channelId = c

/--
**Concurrent sends and deletions keep the store consistent** if deletions keep
apart: once all calls have returned, each history lists the stored messages of its
channel, each once, and no deletion of a message has succeeded twice.
-/
theorem store_consistent [External] {k : Int} {server : Server} {s : State}
    (hserver : Server.system.Reachable (Orderly k) server)
    (h : (Threads.system server).Reachable (DeletesApart (spanStart k)) s)
    (hidle : ∀ i, s.pc i = .idle) : Consistent s.server.db ∧ s.removed.Nodup := by
  have hinv := lifeInv_reachable hserver h
  have hrest : ∀ t, s.removed.count t ≤ 1 ∧ ∀ c, (history s.server.db c).count t
      = if ∃ m, s.server.db.messages.lookup t = some m ∧ m.channelId = c then 1 else 0 := by
    intro t
    obtain ⟨p, hp⟩ := hinv.phase t
    have hhand : ∀ i, p.view.hand i = .nothing := by
      intro i
      rw [← hp]
      show inHand t (s.pc i) = .nothing
      rw [hidle]
      rfl
    have hphase := phase_at_rest hhand
    rw [← hp] at hphase
    exact hphase
  refine ⟨?_, List.nodup_iff_count_le_one.mpr fun t => (hrest t).1⟩
  intro c ch hc
  have hcount : ∀ t, ch.messageSnowflakes.count t
      = if ∃ m, s.server.db.messages.lookup t = some m ∧ m.channelId = c then 1 else 0 := by
    intro t
    rw [← (hrest t).2 c]
    unfold history
    rw [hc]
    rfl
  refine ⟨List.nodup_iff_count_le_one.mpr ?_, ?_⟩
  · intro t
    rw [hcount]
    split <;> omega
  · intro t
    rw [← List.count_pos_iff, hcount]
    split
    · rename_i hm
      exact iff_of_true Nat.one_pos hm
    · rename_i hm
      exact iff_of_false (Nat.lt_irrefl 0) hm

/-- Alice (1) registers, creates channel 7 and writes in it. -/
def oneMessage : List Server.Call :=
  [⟨0, .registerAccount (lit "alice") (lit "secret") (lit "Alice"), .ofByte 1 []⟩,
    ⟨0, .createChannel (lit "notes") [.ofByte 1], .ofByte 7 []⟩,
    ⟨0, .sendMessage (.ofByte 1) (.ofByte 7) (lit "old"), .ofByte 0 [epoch + 5]⟩]

theorem oneMessage_runs :
    ((@Server.system .sample).exec (Orderly 0) Server.new oneMessage).isSome := by
  decide

/-- The server after that. -/
def oneMessage_server : Server :=
  ((@Server.system .sample).exec (Orderly 0) Server.new oneMessage).get oneMessage_runs

/-- Thread 1 sends a message while thread 2 deletes the one before it. -/
def sendWhileDeleting : List (Nat × Act) :=
  [(1, .sendMessage (.ofByte 1) (.ofByte 7) (lit "new")), (1, .advance [epoch + 6] 0),
    (2, .deleteMessage 41951488), (2, .advance [] 0), (1, .advance [] 0), (2, .advance [] 0),
    (2, .advance [] 0), (1, .advance [] 0), (2, .advance [] 0), (1, .advance [] 0)]

theorem sendWhileDeleting_runs :
    ((@Threads.system .sample oneMessage_server).exec (DeletesApart (spanStart 0))
      (start oneMessage_server) sendWhileDeleting).isSome := by
  decide

theorem store_consistent_sendWhileDeleting :
    ∃ s, (@Threads.system .sample oneMessage_server).Reachable (DeletesApart (spanStart 0)) s
      ∧ history s.server.db (.ofByte 7) = [50340096] ∧ s.removed = [41951488]
      ∧ Consistent s.server.db :=
  ⟨_, Reachable.exec_get sendWhileDeleting_runs, by decide, by decide,
    (@store_consistent .sample 0 _ _ (Reachable.exec_get oneMessage_runs)
      (Reachable.exec_get sendWhileDeleting_runs) (idle_of_values (by decide))).1⟩

/-- Threads 1 and 2 delete the same message. -/
def deletedTwice : List (Nat × Act) :=
  [(1, .deleteMessage 41951488), (2, .deleteMessage 41951488), (1, .advance [] 0),
    (2, .advance [] 0), (1, .advance [] 0), (2, .advance [] 0), (1, .advance [] 0),
    (2, .advance [] 0), (1, .advance [] 0), (2, .advance [] 0)]

theorem deletedTwice_runs :
    ((@Threads.system .sample oneMessage_server).exec Always (start oneMessage_server)
      deletedTwice).isSome := by
  decide

/-- Thread 2 deletes a message that thread 1 has stored and not listed yet. -/
def deletedEarly : List (Nat × Act) :=
  [(1, .sendMessage (.ofByte 1) (.ofByte 7) (lit "new")), (1, .advance [epoch + 6] 0),
    (2, .deleteMessage 50340096), (2, .advance [] 0), (2, .advance [] 0), (2, .advance [] 0),
    (2, .advance [] 0), (1, .advance [] 0), (1, .advance [] 0), (1, .advance [] 0)]

theorem deletedEarly_runs :
    ((@Threads.system .sample oneMessage_server).exec Always (start oneMessage_server)
      deletedEarly).isSome := by
  decide

/-- Both deletions succeed; and a deleted message is listed for good. -/
theorem not_consistent_deletions :
    (∃ s, (@Threads.system .sample oneMessage_server).Reachable Always s ∧ (∀ i, s.pc i = .idle)
        ∧ s.removed = [41951488, 41951488])
      ∧ ∃ s, (@Threads.system .sample oneMessage_server).Reachable Always s
        ∧ (∀ i, s.pc i = .idle) ∧ s.removed = [50340096]
        ∧ history s.server.db (.ofByte 7) = [41951488, 50340096]
        ∧ ¬ Consistent s.server.db := by
  refine ⟨⟨_, Reachable.exec_get deletedTwice_runs, idle_of_values (by decide), by decide⟩,
    ⟨_, Reachable.exec_get deletedEarly_runs, idle_of_values (by decide), by decide, by decide, ?_⟩⟩
  intro h
  have hlisted : ((((@Threads.system .sample oneMessage_server).exec Always
      (start oneMessage_server) deletedEarly).get deletedEarly_runs).server.db.channels.lookup
        (.ofByte 7)).map (·.messageSnowflakes) = some [41951488, 50340096] := by decide
  obtain ⟨ch, hch, hlist⟩ := Option.map_eq_some_iff.mp hlisted
  obtain ⟨m, hm, -⟩ := ((h _ ch hch).2 50340096).mp (by rw [hlist]; decide)
  have hgone : (((@Threads.system .sample oneMessage_server).exec Always
      (start oneMessage_server) deletedEarly).get deletedEarly_runs).server.db.messages.lookup
        50340096 = none := by decide
  exact absurd (hgone.symm.trans hm) (by simp)

end SockEtOut.Proof
