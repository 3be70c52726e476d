import SockEtOut.Server.Registration

/-!
# Usernames and the race for them

A registration looks a username up under the user table's lock and inserts the
user under the same lock, later. In between, with the password table's turn in
the middle, another registration may look the same name up, find nothing either,
and insert a second user.

If no registration looks a name up while another one is in that window for the
same name, usernames stay unique. The invariant says what the window guarantees:
a name in it is in nobody else's window and not in the table.
-/

namespace SockEtOut.Proof

open Lib System Registration

variable {s s' : State}

/-- No two users of the table share a username. -/
def UniqueNames (t : UserTable) : Prop :=
  ∀ (uid uid' : UUID) (user user' : User), t.lookup uid = some user → t.lookup uid' = some user' →
    user.username = user'.username → uid = uid'

/--
The step is not a registration looking a username up in vain while another
registration of it is between its own lookup and the insertion of its user.
-/
def LooksUpAlone (s : State) : Nat × Act → Prop
  | (_, .register username ..) =>
      s.users.getUidFromUsername username = none →
        ∀ pc ∈ s.threads.values, pc.pendingName ≠ some username
  | _ => True

instance (s : State) : (a : Nat × Act) → Decidable (LooksUpAlone s a)
  | (_, .register username ..) => inferInstanceAs (Decidable
      (s.users.getUidFromUsername username = none →
        ∀ pc ∈ s.threads.values, pc.pendingName ≠ some username))
  | (_, .addPassword _) | (_, .addUser) | (_, .delete ..) | (_, .verifyPassword) | (_, .getUser)
  | (_, .sweep) | (_, .removeUser) => inferInstanceAs (Decidable True)

/-- The names in the window are nobody's yet, and each is in one thread's only. -/
structure NamesInv (s : State) : Prop where
  unique : UniqueNames s.users
  /-- A pending name is not in the table. -/
  pendingFree : ∀ i name, (s.pc i).pendingName = some name →
    ∀ uid user, s.users.lookup uid = some user → user.username ≠ name
  /-- Two threads are never in the window for one name. -/
  pendingApart : ∀ i j name, (s.pc i).pendingName = some name →
    (s.pc j).pendingName = some name → i = j

theorem pc_setPc (s : State) (i j : Nat) (pc : Pc) :
    (s.setPc i pc).pc j = if j = i then pc else s.pc j := by
  unfold State.pc State.setPc
  dsimp only
  rw [Table.lookup_assign]
  split
  · rfl
  · rfl

/-- A thread in the window is one of the program counters the guard looks at. -/
theorem mem_threads_of_pending {i : Nat} {name : Str} (h : (s.pc i).pendingName = some name) :
    ∃ pc ∈ s.threads.values, pc.pendingName = some name := by
  unfold State.pc at h
  cases hi : s.threads.lookup i with
  | none =>
      rw [hi] at h
      exact absurd h (by simp [Pc.pendingName])
  | some pc =>
      rw [hi] at h
      exact ⟨pc, Table.mem_values_iff.mpr ⟨i, hi⟩, h⟩

theorem namesInv_init : NamesInv ⟨.empty, .empty, .empty⟩ where
  unique := by
    intro uid uid' user user' h
    exact absurd h (by simp)
  pendingFree := by
    intro i name h
    exact absurd h (by simp [State.pc, Pc.pendingName])
  pendingApart := by
    intro i j name h
    exact absurd h (by simp [State.pc, Pc.pendingName])

/-- A thread that moves on without a new name, over a table with no new user. -/
theorem namesInv_of_le (h : NamesInv s) {i : Nat} {pc : Pc}
    (hpc : ∀ name, pc.pendingName = some name → (s.pc i).pendingName = some name)
    (hthreads : ∀ j, s'.pc j = if j = i then pc else s.pc j)
    (husers : ∀ uid user, s'.users.lookup uid = some user → s.users.lookup uid = some user) :
    NamesInv s' := by
  have hpending : ∀ j name, (s'.pc j).pendingName = some name →
      (s.pc j).pendingName = some name := by
    intro j name hj
    rw [hthreads] at hj
    split at hj
    · rename_i heq
      exact heq ▸ hpc name hj
    · exact hj
  exact
    { unique := fun uid uid' user user' hu hu' =>
        h.unique uid uid' user user' (husers _ _ hu) (husers _ _ hu')
      pendingFree := fun j name hj uid user hu =>
        h.pendingFree j name (hpending j name hj) uid user (husers _ _ hu)
      pendingApart := fun j k name hj hk =>
        h.pendingApart j k name (hpending j name hj) (hpending k name hk) }

/-- A name enters the window: it is free, and nobody else is in the window for it. -/
theorem namesInv_lookup (h : NamesInv s) {i : Nat} {username displayName password : Str}
    {uid : UUID} (hnone : s.users.getUidFromUsername username = none)
    (halone : ∀ pc ∈ s.threads.values, pc.pendingName ≠ some username) :
    NamesInv (s.setPc i (.addingPassword (.new uid username displayName) password)) := by
  have hnobody : ∀ j, (s.pc j).pendingName ≠ some username := by
    intro j hj
    obtain ⟨pc, hpc, hname⟩ := mem_threads_of_pending hj
    exact halone pc hpc hname
  have hsplit : ∀ j name, ((s.setPc i (.addingPassword (.new uid username displayName)
      password)).pc j).pendingName = some name →
        j = i ∧ name = username ∨ (s.pc j).pendingName = some name := by
    intro j name hj
    rw [pc_setPc] at hj
    split at hj
    · rename_i heq
      cases hj
      exact Or.inl ⟨heq, rfl⟩
    · exact Or.inr hj
  refine ⟨h.unique, ?_, ?_⟩
  · intro j name hj
    rcases hsplit j name hj with ⟨-, rfl⟩ | hj
    · intro uid' user hu
      exact UserTable.getUidFromUsername_none hnone hu
    · exact h.pendingFree j name hj
  · intro j k name hj hk
    rcases hsplit j name hj with ⟨rfl, rfl⟩ | hj'
    · rcases hsplit k name hk with ⟨rfl, -⟩ | hk'
      · rfl
      · exact absurd hk' (hnobody k)
    · rcases hsplit k name hk with ⟨-, rfl⟩ | hk'
      · exact absurd hj' (hnobody j)
      · exact h.pendingApart j k name hj' hk'

/-- A name leaves the window: its user is the only one to have it. -/
theorem namesInv_insert (h : NamesInv s) {i : Nat} {user : User}
    (hpc : s.pc i = .addingUser user) :
    NamesInv ({ s with users := s.users.emplace user.uid user }.setPc i .idle) := by
  have hi : (s.pc i).pendingName = some user.username := by rw [hpc]; rfl
  have hfree := h.pendingFree i _ hi
  have hthreads : ∀ j, ({ s with users := s.users.emplace user.uid user }.setPc i .idle).pc j
      = if j = i then .idle else s.pc j := fun j => pc_setPc _ i j .idle
  have husers : ∀ uid found, (s.users.emplace user.uid user).lookup uid = some found →
      s.users.lookup uid = some found ∨ uid = user.uid ∧ found = user :=
    fun _ _ => Table.lookup_of_emplace
  have hpending : ∀ j name,
      (({ s with users := s.users.emplace user.uid user }.setPc i .idle).pc j).pendingName
        = some name → j ≠ i ∧ (s.pc j).pendingName = some name := by
    intro j name hj
    rw [hthreads] at hj
    split at hj
    · exact absurd hj (by simp [Pc.pendingName])
    · rename_i hne
      exact ⟨hne, hj⟩
  refine ⟨?_, ?_, ?_⟩
  · intro uid uid' found found' hu hu' hname
    rcases husers uid found hu with hold | ⟨rfl, rfl⟩
    · rcases husers uid' found' hu' with hold' | ⟨rfl, rfl⟩
      · exact h.unique uid uid' found found' hold hold' hname
      · exact absurd hname (hfree uid found hold)
    · rcases husers uid' found' hu' with hold' | ⟨rfl, rfl⟩
      · exact absurd hname.symm (hfree uid' found' hold')
      · rfl
  · intro j name hj uid found hu
    obtain ⟨hne, hold⟩ := hpending j name hj
    rcases husers uid found hu with hu' | ⟨rfl, rfl⟩
    · exact h.pendingFree j name hold uid found hu'
    · rintro rfl
      exact hne (h.pendingApart j i _ hold hi)
  · intro j k name hj hk
    exact h.pendingApart j k name (hpending j name hj).2 (hpending k name hk).2

theorem lookup_removeUser_le (t : UserTable) (uid : UUID) {k : UUID} {user : User}
    (h : (t.removeUser uid).2.lookup k = some user) : t.lookup k = some user := by
  unfold UserTable.removeUser at h
  split at h
  · exact h
  · exact (Table.lookup_of_erase h).2

/-- **Preserved by every table call of a registration that looks up alone, and of a deletion.** -/
theorem namesInv_step [External] {a : Nat × Act} (h : NamesInv s) (hg : LooksUpAlone s a)
    (hs : Registration.step s a = some s') : NamesInv s' := by
  obtain ⟨i, act⟩ := a
  have hmove : ∀ pc, pc.pendingName = none →
      NamesInv (s.setPc i pc) := by
    intro pc hnone
    refine namesInv_of_le h ?_ (fun j => pc_setPc s i j pc) (fun _ _ hu => hu)
    intro name hname
    rw [hnone] at hname
    exact absurd hname (by simp)
  unfold Registration.step at hs
  dsimp only at hs
  split at hs
  · -- the lookup of a registration
    split at hs
    · exact Option.some.inj hs ▸ h
    · rename_i hnone
      cases hs
      exact namesInv_lookup h hnone (hg hnone)
  · -- its password, which keeps the name pending
    rename_i user password _ hpc
    cases hs
    refine namesInv_of_le h (i := i) ?_ (fun j => pc_setPc _ i j _)
      (fun _ _ hu => hu)
    intro name hname
    rw [hpc]
    exact hname
  · -- its user, which ends the window
    rename_i user hpc
    cases hs
    exact namesInv_insert h hpc
  -- a deletion has no name pending, and only its last call writes users
  · split at hs
    · exact Option.some.inj hs ▸ h
    · exact Option.some.inj hs ▸ hmove _ rfl
  · split at hs
    · exact Option.some.inj hs ▸ hmove _ rfl
    · exact Option.some.inj hs ▸ hmove _ rfl
  · split at hs
    · exact Option.some.inj hs ▸ hmove _ rfl
    · exact Option.some.inj hs ▸ hmove _ rfl
  · exact Option.some.inj hs ▸ h
  · rename_i uid hpc
    cases hs
    refine namesInv_of_le h (i := i) ?_ (fun j => pc_setPc _ i j _) ?_
    · intro name hname
      exact absurd hname (by simp [Pc.pendingName])
    · intro k user hu
      exact lookup_removeUser_le s.users uid hu
  · exact absurd hs (by simp)

/--
**Usernames are unique** in every state of every interleaving in which no
registration looks a name up in vain while another is about to insert it.
-/
theorem usernames_unique [External] (h : Registration.system.Reachable LooksUpAlone s) :
    UniqueNames s.users := by
  have hinv : NamesInv s := by
    refine h.invariant namesInv_init ?_
    intro s a s' _ hi hg hs
    exact namesInv_step hi hg hs
  exact hinv.unique

/-- Two clients register at the same time, under two names; then one deletes its account. -/
def twoNames : List (Nat × Act) :=
  [(0, .register (lit "alice") (lit "Alice") (lit "secret") (.ofByte 1)),
    (1, .register (lit "bob") (lit "Bob") (lit "secret") (.ofByte 2)),
    (0, .addPassword (lit "saltsaltsaltsalt")), (1, .addPassword (lit "saltsaltsaltsalt")),
    (1, .addUser), (0, .addUser), (1, .delete (lit "bob") (lit "secret")), (1, .verifyPassword),
    (1, .getUser), (1, .sweep), (1, .removeUser)]

theorem twoNames_runs :
    ((@Registration.system .sample).exec LooksUpAlone (@Registration.system .sample).init
      twoNames).isSome := by
  decide

theorem usernames_unique_twoNames :
    ∃ s, (@Registration.system .sample).Reachable LooksUpAlone s
      ∧ (s.users.lookup (.ofByte 1)).map (·.username) = some (lit "alice")
      ∧ s.users.lookup (.ofByte 2) = none ∧ UniqueNames s.users :=
  ⟨_, Reachable.exec_get twoNames_runs, by decide, by decide,
    @usernames_unique _ .sample (Reachable.exec_get twoNames_runs)⟩

/-- Two clients register at the same time, under one name. -/
def oneName : List (Nat × Act) :=
  [(0, .register (lit "alice") (lit "Alice") (lit "secret") (.ofByte 1)),
    (1, .register (lit "alice") (lit "Alicia") (lit "secret") (.ofByte 2)),
    (0, .addPassword (lit "saltsaltsaltsalt")), (1, .addPassword (lit "saltsaltsaltsalt")),
    (0, .addUser), (1, .addUser)]

theorem oneName_runs :
    ((@Registration.system .sample).exec Always (@Registration.system .sample).init
      oneName).isSome := by
  decide

/-- Both lookups come before both insertions, and the table ends up with two users of one name. -/
theorem not_uniqueNames_oneName :
    ∃ s, (@Registration.system .sample).Reachable Always s ∧ ¬ UniqueNames s.users := by
  refine ⟨_, Reachable.exec_get oneName_runs, ?_⟩
  intro h
  have hfirst : ((((@Registration.system .sample).exec Always (@Registration.system .sample).init
      oneName).get oneName_runs).users.lookup (.ofByte 1)).map (·.username)
        = some (lit "alice") := by decide
  have hsecond : ((((@Registration.system .sample).exec Always (@Registration.system .sample).init
      oneName).get oneName_runs).users.lookup (.ofByte 2)).map (·.username)
        = some (lit "alice") := by decide
  obtain ⟨first, hu, hname⟩ := Option.map_eq_some_iff.mp hfirst
  obtain ⟨second, hu', hname'⟩ := Option.map_eq_some_iff.mp hsecond
  exact absurd (h _ _ first second hu hu' (hname.trans hname'.symm)) (by decide)

end SockEtOut.Proof
