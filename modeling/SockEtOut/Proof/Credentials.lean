import SockEtOut.Proof.Steps

/-!
# Passwords outlive their users

Registering a user stores its password and then the user. Deleting the user
erases the user only: nothing calls the password table's own `remove_password`.
The two tables have the same uids until the first deletion of a registered user,
and `inStep_step_iff` says that this is the only step that parts them.
-/

namespace SockEtOut.Proof

open Lib System

variable {db db' : Database}

/-- The uids with a password are the uids with a user. -/
def InStep (db : Database) : Prop := ∀ u, u ∈ db.passwords.keys ↔ u ∈ db.users.keys

/-- The step does not delete a registered user. -/
def KeepsUsers (db : Database) : Database.Op → Prop
  | .removeUser u => u ∉ db.users.keys
  | _ => True

instance (db : Database) : (op : Database.Op) → Decidable (KeepsUsers db op)
  | .removeUser u => inferInstanceAs (Decidable (u ∉ db.users.keys))
  | .addUser .. | .addChannel .. | .addUserToChannel .. | .addMessage .. | .removeMessage _
  | .removeChannel _ => inferInstanceAs (Decidable True)

theorem inStep_init : InStep Database.new := fun _ => Iff.rfl

/-- The tables stay in step when an operation leaves the passwords and the uids alone. -/
theorem inStep_of_keys (h : InStep db) (hpasswords : db'.passwords = db.passwords)
    (husers : ∀ u, u ∈ db'.users.keys ↔ u ∈ db.users.keys) : InStep db' := by
  intro u
  rw [hpasswords, husers]
  exact h u

/-- A registration stores both under one uid, or finds both there. -/
theorem inStep_addUser [External] (h : InStep db) (user : User) (password salt : Str) :
    InStep (db.addUser user password salt).db := by
  intro u
  show u ∈ (db.passwords.emplace user.uid _).keys ↔ u ∈ (db.users.emplace user.uid user).keys
  rw [Table.mem_keys_emplace, Table.mem_keys_emplace, h u]

/-- A deletion leaves the password, so a registered user's uid is in one table only. -/
theorem inStep_removeUser_iff (h : InStep db) (u : UUID) :
    InStep (db.removeUser u).db ↔ u ∉ db.users.keys := by
  cases hu : db.users.lookup u with
  | none =>
      have hout : u ∉ db.users.keys := by
        rw [Table.mem_keys_iff, hu]
        simp
      rw [removeUser_none hu]
      exact iff_of_true h hout
  | some user =>
      have hin : u ∈ db.users.keys := Table.mem_keys_iff.mpr ⟨user, hu⟩
      rw [removeUser_some hu]
      refine iff_of_false ?_ (not_not_intro hin)
      intro hafter
      exact (Table.mem_keys_erase.mp ((hafter u).mp ((h u).mpr hin))).1 rfl

/-- **Of all operations only the deletion of a registered user parts the tables.** -/
theorem inStep_step_iff [External] {op : Database.Op} (h : InStep db)
    (hs : Database.step db op = some db') : InStep db' ↔ KeepsUsers db op := by
  have heffect := step_effect hs
  cases op with
  | addUser uid username displayName password salt =>
      cases hs
      exact iff_of_true (inStep_addUser h _ _ _) trivial
  | removeUser u =>
      have hdb : db' = (db.removeUser u).db := by
        rw [Database.step] at hs
        cases hu : db.users.lookup u with
        | none =>
            rw [removeUser_none hu] at hs ⊢
            exact (Option.some.inj hs).symm
        | some user =>
            rw [removeUser_some hu] at hs ⊢
            exact (Option.some.inj hs).symm
      rw [hdb]
      exact inStep_removeUser_iff h u
  | addChannel uid channelName members =>
      refine iff_of_true ?_ trivial
      cases heffect with
      | nothing => exact h
      | channelAdded => exact inStep_of_keys h rfl fun u => Table.mem_keys_foldl_modify
  | addUserToChannel u c =>
      refine iff_of_true ?_ trivial
      cases heffect with
      | nothing => exact h
      | userJoined => exact inStep_of_keys h rfl fun u => Table.mem_keys_modify
  | addMessage sender c content readings now =>
      refine iff_of_true ?_ trivial
      cases heffect with
      | nothing => exact h
      | messageAdded => exact h
  | removeMessage s =>
      refine iff_of_true ?_ trivial
      cases heffect with
      | nothing => exact h
      | messageRemoved => exact h
  | removeChannel c =>
      refine iff_of_true ?_ trivial
      cases heffect with
      | nothing => exact h
      | channelRemoved => exact inStep_of_keys h rfl fun u => Table.mem_keys_foldl_modify

/-- Where the tables are in step, a user who is not registered has no password to check. -/
theorem verifyPassword_of_inStep [External] (h : InStep db) {u : UUID}
    (hu : u ∉ db.users.keys) (password : Str) :
    db.passwords.verifyPassword u password = .error (lit "User does not exist") := by
  have hnone : db.passwords.lookup u = none := by
    cases hp : db.passwords.lookup u with
    | none => rfl
    | some stored => exact absurd ((h u).mp (Table.mem_keys_iff.mpr ⟨stored, hp⟩)) hu
  unfold PasswordTable.verifyPassword
  rw [hnone]

/--
**Passwords and users are in step** in every state of every run that deletes no
registered user, and there a password is checked for registered users only. The
next step parts them exactly when it deletes a registered user.
-/
theorem passwords_inStep [External] (h : Database.system.Reachable KeepsUsers db) :
    InStep db
      ∧ (∀ u, u ∉ db.users.keys → ∀ password,
          db.passwords.verifyPassword u password = .error (lit "User does not exist"))
      ∧ ∀ op db', Database.step db op = some db' → (InStep db' ↔ KeepsUsers db op) := by
  have hinv : InStep db := by
    refine h.invariant inStep_init ?_
    intro db op db' _ hi hg hs
    exact (inStep_step_iff hi hs).mpr hg
  refine ⟨hinv, ?_, fun op db' hs => inStep_step_iff hinv hs⟩
  intro u hu password
  exact verifyPassword_of_inStep hinv hu password

/-- Alice (1) registers, somebody unknown is deleted, and the name is registered again as 2. -/
def twoAlices : List Database.Op :=
  [.addUser (.ofByte 1) (lit "alice") (lit "Alice") (lit "secret") (lit "saltsaltsaltsalt"),
    .removeUser (.ofByte 9),
    .addChannel (.ofByte 7) (lit "plans") [.ofByte 1],
    .addUser (.ofByte 2) (lit "alice") (lit "Alicia") (lit "secret") (lit "saltsaltsaltsalt")]

theorem twoAlices_runs :
    ((@Database.system .sample).exec KeepsUsers Database.new twoAlices).isSome := by
  decide

theorem passwords_inStep_twoAlices :
    ∃ db, (@Database.system .sample).Reachable KeepsUsers db ∧ InStep db
      ∧ @PasswordTable.verifyPassword .sample db.passwords (.ofByte 9) (lit "secret")
        = .error (lit "User does not exist") := by
  have hr := Reachable.exec_get twoAlices_runs
  obtain ⟨hinv, hverify, -⟩ := @passwords_inStep _ .sample hr
  exact ⟨_, hr, hinv, hverify _ (by decide) _⟩

/-- Alice (1) registers and is deleted. -/
def deletedAlice : List Database.Op :=
  [.addUser (.ofByte 1) (lit "alice") (lit "Alice") (lit "secret") (lit "saltsaltsaltsalt"),
    .removeUser (.ofByte 1)]

theorem deletedAlice_runs :
    ((@Database.system .sample).exec Always Database.new deletedAlice).isSome := by
  decide

/-- Her uid is in one table only, and her password is still the right one. -/
theorem not_inStep_deletedAlice :
    ∃ db, (@Database.system .sample).Reachable Always db ∧ ¬ InStep db
      ∧ db.users.lookup (.ofByte 1) = none
      ∧ @PasswordTable.verifyPassword .sample db.passwords (.ofByte 1) (lit "secret")
        = .ok true := by
  refine ⟨_, Reachable.exec_get deletedAlice_runs, ?_, by decide, by decide⟩
  intro h
  exact absurd ((h (.ofByte 1)).mp (by decide)) (by decide)

end SockEtOut.Proof
