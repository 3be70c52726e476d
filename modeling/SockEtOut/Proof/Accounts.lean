import SockEtOut.Proof.Steps
import SockEtOut.Server.Handlers

/-!
# Credentials decide

A book of accounts says what registering, logging in and deleting are for: it has
an account under a name from the time the name is registered until the account is
deleted with its password, and it never looks at a database. `KeepsBook` relates a
server to the book that was kept beside it. The server finds an account through
two tables, by a scan for the name and then by uid, and the relation is that every
name in the book is found once, with a hash that only its password has.

A deleted account leaves its password behind. That does no harm while uids are
fresh: nobody is ever registered under that uid again.
-/

namespace SockEtOut.Proof

open Lib

/-- An account: the uid it was given and the password it was registered with. -/
structure Account where
  uid : UUID
  password : Str

/-- The accounts there are, by name. -/
abbrev Book := Str → Option Account

/-- What a request is meant to do to the accounts. -/
def Book.after (book : Book) (call : Server.Call) : Book :=
  match call.request with
  | .registerAccount username password _ =>
      match book username with
      | some _ => book
      | none => Function.update book username (some ⟨call.draws.uid, password⟩)
  | .deleteAccount username password =>
      match book username with
      | some account =>
          if account.password = password then Function.update book username none else book
      | none => book
  | _ => book

/-- A request about accounts, which draws a uid that occurs nowhere if it draws one. -/
def AboutAccounts (p : Server × Book) (call : Server.Call) : Prop :=
  match call.request with
  | .registerAccount username _ _ =>
      p.1.db.users.getUidFromUsername username = none → call.draws.uid ∉ p.1.db.uids
  | .login .. | .deleteAccount .. => True
  | _ => False

instance (p : Server × Book) : (call : Server.Call) → Decidable (AboutAccounts p call)
  | ⟨_, .registerAccount username _ _, draws⟩ =>
      inferInstanceAs (Decidable
        (p.1.db.users.getUidFromUsername username = none → draws.uid ∉ p.1.db.uids))
  | ⟨_, .login .., _⟩ | ⟨_, .deleteAccount .., _⟩ => inferInstanceAs (Decidable True)
  | ⟨_, .listAccounts _, _⟩ | ⟨_, .createChannel .., _⟩ | ⟨_, .sendMessage .., _⟩
  | ⟨_, .deleteMessage _, _⟩ => inferInstanceAs (Decidable False)

/-- The server, with a book of accounts kept beside it. -/
def bookkeeping [External] : System (Server × Book) Server.Call where
  init := (.new, fun _ => none)
  step p call := (Server.step p.1 call).map fun s => (s, p.2.after call)

/-! ## The server keeps the book -/

/-- The server has the accounts of the book, each under its uid and behind its password. -/
structure KeepsBook [External] (s : Server) (book : Book) : Prop where
  /-- A registered user is in the book. -/
  written : ∀ uid user, s.db.users.lookup uid = some user →
    ∃ password, book user.username = some ⟨uid, password⟩
  /-- Who is in the book is registered, in no channel, and has the password's hash stored. -/
  kept : ∀ name account, book name = some account → ∃ user salt,
    s.db.users.lookup account.uid = some user ∧ user.username = name ∧ user.channels = []
      ∧ s.db.passwords.lookup account.uid
        = some (External.sha256 (account.password ++ salt), salt)

section

variable [External] {s : Server} {book : Book}

theorem keepsBook_new : KeepsBook Server.new fun _ => none where
  written := by
    intro uid user hu
    exact absurd hu (by simp [Server.new, Database.new])
  kept := by
    intro name account h
    cases h

/-- The scan for a name finds the account of that name. -/
theorem KeepsBook.getUidFromUsername (h : KeepsBook s book) (name : Str) :
    s.db.users.getUidFromUsername name = (book name).map (·.uid) := by
  cases hscan : s.db.users.getUidFromUsername name with
  | some uid =>
      obtain ⟨user, hu, rfl⟩ := UserTable.getUidFromUsername_some hscan
      obtain ⟨password, hbook⟩ := h.written uid user hu
      rw [hbook, Option.map_some]
  | none =>
      cases hbook : book name with
      | none => rfl
      | some account =>
          obtain ⟨user, salt, hu, hname, -⟩ := h.kept name account hbook
          exact absurd hname (UserTable.getUidFromUsername_none hscan hu)

/-- Salted hashes agree only when the passwords do. -/
theorem KeepsBook.verifyPassword (hsha : Function.Injective External.sha256) (h : KeepsBook s book)
    {name : Str} {account : Account} (hbook : book name = some account) (password : Str) :
    s.db.passwords.verifyPassword account.uid password
      = .ok (decide (account.password = password)) := by
  obtain ⟨user, salt, -, -, -, hstored⟩ := h.kept name account hbook
  rw [PasswordTable.verifyPassword, hstored]
  dsimp only
  congr 1
  rw [Bool.eq_iff_iff, beq_iff_eq, decide_eq_true_iff]
  refine ⟨fun heq => ?_, fun heq => by rw [heq]⟩
  exact List.append_cancel_right (hsha heq)

/-! ## What each request does -/

/-- The server with a user and a password more. -/
def withAccount (s : Server) (draws : Draws) (username password displayName : Str) : Server :=
  { s with
    db :=
      { s.db with
        passwords := s.db.passwords.emplace draws.uid
          (External.sha256 (password ++ draws.salt), draws.salt)
        users := s.db.users.emplace draws.uid (.new draws.uid username displayName) } }

/-- The server with a user less. -/
def withoutAccount (s : Server) (uid : UUID) : Server :=
  { s with db := { s.db with users := s.db.users.erase uid } }

theorem KeepsBook.onRegisterAccount_none (h : KeepsBook s book) {username : Str}
    (hbook : book username = none) (conn : Nat) (draws : Draws) (password displayName : Str) :
    s.onRegisterAccount conn draws username password displayName
      = ⟨.returned (), withAccount s draws username password displayName,
        [(conn, .registerAccount (.ok ()))]⟩ := by
  rw [Server.onRegisterAccount, h.getUidFromUsername, hbook]
  rfl

theorem KeepsBook.onRegisterAccount_some (h : KeepsBook s book) {username : Str} {account : Account}
    (hbook : book username = some account) (conn : Nat) (draws : Draws)
    (password displayName : Str) :
    s.onRegisterAccount conn draws username password displayName
      = s.respond conn (.registerAccount (.error (lit "Username already exists"))) := by
  rw [Server.onRegisterAccount, h.getUidFromUsername, hbook]
  rfl

theorem KeepsBook.onLogin_right (hsha : Function.Injective External.sha256) (h : KeepsBook s book)
    {username : Str} {account : Account} (hbook : book username = some account) (conn : Nat) :
    ∃ user, s.db.users.lookup account.uid = some user
      ∧ s.onLogin conn username account.password
        = ⟨.returned (), s.setAuthenticatedUser conn account.uid, [(conn, .login (.ok user))]⟩ := by
  obtain ⟨user, salt, hu, -, hchannels, -⟩ := h.kept username account hbook
  refine ⟨user, hu, ?_⟩
  rw [Server.onLogin, h.getUidFromUsername, hbook, Option.map_some]
  dsimp only
  rw [h.verifyPassword hsha hbook, decide_eq_true rfl]
  dsimp only
  rw [hu]
  dsimp only
  rw [Server.replay, hchannels]
  rfl

theorem KeepsBook.onLogin_wrong (hsha : Function.Injective External.sha256) (h : KeepsBook s book)
    {username password : Str} {account : Account} (hbook : book username = some account)
    (hwrong : account.password ≠ password) (conn : Nat) :
    s.onLogin conn username password
      = s.respond conn (.login (.error (lit "Incorrect password"))) := by
  rw [Server.onLogin, h.getUidFromUsername, hbook, Option.map_some]
  dsimp only
  rw [h.verifyPassword hsha hbook, decide_eq_false hwrong]

theorem KeepsBook.onDeleteAccount_right (hsha : Function.Injective External.sha256)
    (h : KeepsBook s book) {username : Str} {account : Account}
    (hbook : book username = some account) (conn : Nat) :
    ∃ user, s.db.users.lookup account.uid = some user
      ∧ s.onDeleteAccount conn username account.password
        = ⟨.returned (), withoutAccount s account.uid, [(conn, .deleteAccount (.ok user))]⟩ := by
  obtain ⟨user, salt, hu, -, hchannels, -⟩ := h.kept username account hbook
  refine ⟨user, hu, ?_⟩
  rw [Server.onDeleteAccount, h.getUidFromUsername, hbook, Option.map_some]
  dsimp only
  rw [h.verifyPassword hsha hbook, decide_eq_true rfl]
  dsimp only
  -- an account in no channel has nothing to be swept
  rw [removeUser_some hu, hchannels]
  rfl

/-- A deletion that is not made changes nothing, and says so. -/
theorem KeepsBook.onDeleteAccount_wrong (hsha : Function.Injective External.sha256)
    (h : KeepsBook s book) {username password : Str}
    (hbook : ∀ uid, book username ≠ some ⟨uid, password⟩) (conn : Nat) :
    ∃ error, s.onDeleteAccount conn username password
      = s.respond conn (.deleteAccount (.error error)) := by
  rw [Server.onDeleteAccount, h.getUidFromUsername]
  cases haccount : book username with
  | none => exact ⟨_, rfl⟩
  | some account =>
      have hwrong : account.password ≠ password := by
        rintro rfl
        exact hbook account.uid haccount
      rw [Option.map_some]
      dsimp only
      rw [h.verifyPassword hsha haccount, decide_eq_false hwrong]
      exact ⟨_, rfl⟩

/-! ## Keeping the book up -/

theorem keepsBook_withAccount (h : KeepsBook s book) {draws : Draws} {username : Str}
    (hbook : book username = none) (hfresh : draws.uid ∉ s.db.uids) (password displayName : Str) :
    KeepsBook (withAccount s draws username password displayName)
      (Function.update book username (some ⟨draws.uid, password⟩)) := by
  simp only [Database.uids, List.mem_append, not_or] at hfresh
  obtain ⟨⟨⟨⟨⟨huser, -⟩, hpassword⟩, -⟩, -⟩, -⟩ := hfresh
  rw [Table.mem_keys_iff, not_exists] at huser hpassword
  have hnouser : s.db.users.lookup draws.uid = none := Option.eq_none_iff_forall_ne_some.mpr huser
  have hnopassword : s.db.passwords.lookup draws.uid = none :=
    Option.eq_none_iff_forall_ne_some.mpr hpassword
  refine ⟨fun uid user hu => ?_, fun name account haccount => ?_⟩
  · rcases Table.lookup_of_emplace hu with hold | hnew
    · obtain ⟨old, hold'⟩ := h.written uid user hold
      have hne : user.username ≠ username := by
        intro heq
        rw [heq, hbook] at hold'
        cases hold'
      exact ⟨old, by rw [Function.update_of_ne hne]; exact hold'⟩
    · obtain ⟨rfl, rfl⟩ := hnew
      exact ⟨password, Function.update_self _ _ _⟩
  · by_cases hname : name = username
    · subst hname
      rw [Function.update_self] at haccount
      cases haccount
      refine ⟨.new draws.uid name displayName, draws.salt, ?_, rfl, rfl, ?_⟩
      · exact (Table.lookup_emplace hnouser _ _).trans (if_pos rfl)
      · exact (Table.lookup_emplace hnopassword _ _).trans (if_pos rfl)
    · rw [Function.update_of_ne hname] at haccount
      obtain ⟨user, salt, hu, hn, hc, hp⟩ := h.kept name account haccount
      exact ⟨user, salt, Table.lookup_emplace_of_some hu _ _, hn, hc,
        Table.lookup_emplace_of_some hp _ _⟩

theorem keepsBook_withoutAccount (h : KeepsBook s book) {username : Str} {account : Account}
    (hbook : book username = some account) :
    KeepsBook (withoutAccount s account.uid) (Function.update book username none) := by
  refine ⟨fun uid user hu => ?_, fun name other hother => ?_⟩
  · obtain ⟨hne, huser⟩ := Table.lookup_of_erase hu
    obtain ⟨password, hwritten⟩ := h.written uid user huser
    have hname : user.username ≠ username := by
      intro heq
      rw [heq, hbook] at hwritten
      cases hwritten
      exact hne rfl
    exact ⟨password, by rw [Function.update_of_ne hname]; exact hwritten⟩
  · by_cases hname : name = username
    · subst hname
      rw [Function.update_self] at hother
      cases hother
    · rw [Function.update_of_ne hname] at hother
      obtain ⟨user, salt, hu, hn, hc, hp⟩ := h.kept name other hother
      have hne : other.uid ≠ account.uid := by
        intro heq
        obtain ⟨user', salt', hu', hn', -⟩ := h.kept username account hbook
        rw [heq, hu'] at hu
        cases hu
        exact hname (hn.symm.trans hn')
      refine ⟨user, salt, ?_, hn, hc, hp⟩
      exact (Table.lookup_erase _ _ _).trans ((if_neg hne).trans hu)

theorem KeepsBook.registerAccount (h : KeepsBook s book) {conn : Nat} {draws : Draws}
    {username password displayName : Str}
    (hcall :
      AboutAccounts (s, book) ⟨conn, .registerAccount username password displayName, draws⟩) :
    KeepsBook (s.onRegisterAccount conn draws username password displayName).server
      (book.after ⟨conn, .registerAccount username password displayName, draws⟩) := by
  rw [Book.after]
  dsimp only
  cases hbook : book username with
  | none =>
      have hfresh := hcall (by rw [h.getUidFromUsername, hbook, Option.map_none])
      rw [h.onRegisterAccount_none hbook]
      exact keepsBook_withAccount h hbook hfresh password displayName
  | some account =>
      rw [h.onRegisterAccount_some hbook]
      exact h

theorem KeepsBook.login (hsha : Function.Injective External.sha256) (h : KeepsBook s book)
    (conn : Nat) (username password : Str) :
    KeepsBook (s.onLogin conn username password).server book := by
  cases hbook : book username with
  | none =>
      rw [Server.onLogin, h.getUidFromUsername, hbook]
      exact h
  | some account =>
      by_cases hright : account.password = password
      · subst hright
        obtain ⟨user, -, heq⟩ := h.onLogin_right hsha hbook conn
        rw [heq]
        exact ⟨h.written, h.kept⟩
      · rw [h.onLogin_wrong hsha hbook hright]
        exact h

theorem KeepsBook.deleteAccount (hsha : Function.Injective External.sha256) (h : KeepsBook s book)
    (conn : Nat) (draws : Draws) (username password : Str) :
    KeepsBook (s.onDeleteAccount conn username password).server
      (book.after ⟨conn, .deleteAccount username password, draws⟩) := by
  rw [Book.after]
  dsimp only
  by_cases hright : ∃ uid, book username = some ⟨uid, password⟩
  · obtain ⟨uid, hbook⟩ := hright
    obtain ⟨user, -, heq⟩ := h.onDeleteAccount_right hsha hbook conn
    rw [heq, hbook]
    dsimp only
    rw [if_pos rfl]
    exact keepsBook_withoutAccount h hbook
  · obtain ⟨error, heq⟩ := h.onDeleteAccount_wrong hsha (not_exists.mp hright) conn
    rw [heq]
    cases hbook : book username with
    | none => exact h
    | some account =>
        have hwrong : account.password ≠ password := by
          rintro rfl
          exact hright ⟨account.uid, hbook⟩
        dsimp only
        rw [if_neg hwrong]
        exact h

/-- **One request keeps the book up.** -/
theorem keepsBook_step (hsha : Function.Injective External.sha256) {s' : Server}
    {call : Server.Call} (h : KeepsBook s book) (hcall : AboutAccounts (s, book) call)
    (hs : Server.step s call = some s') : KeepsBook s' (book.after call) := by
  have hserver : s' = (s.receive call).server := by
    rw [Server.step] at hs
    split at hs
    · cases hs
    · exact (Option.some.inj hs).symm
  obtain ⟨conn, request, draws⟩ := call
  rw [hserver]
  cases request with
  | registerAccount username password displayName => exact h.registerAccount hcall
  | login username password => exact h.login hsha conn username password
  | deleteAccount username password => exact h.deleteAccount hsha conn draws username password
  | listAccounts regex => exact absurd hcall id
  | createChannel channelName members => exact absurd hcall id
  | sendMessage senderUid channelUid text => exact absurd hcall id
  | deleteMessage messageSnowflake => exact absurd hcall id

theorem keepsBook_reachable (hsha : Function.Injective External.sha256) {p : Server × Book}
    (h : bookkeeping.Reachable AboutAccounts p) : KeepsBook p.1 p.2 := by
  refine h.invariant (P := fun q => KeepsBook q.1 q.2) keepsBook_new ?_
  intro p call p' _ hp hcall hs
  obtain ⟨s', hs', rfl⟩ := Option.map_eq_some_iff.mp hs
  exact keepsBook_step hsha hp hcall hs'

/-! ## The book decides -/

/-- What the server answers is what the book says. -/
structure Decides (s : Server) (book : Book) : Prop where
  /-- The registered users are those of the book, by name and uid. -/
  registered : ∀ name uid, (∃ user, s.db.users.lookup uid = some user ∧ user.username = name)
    ↔ ∃ password, book name = some ⟨uid, password⟩
  /-- A deletion succeeds with the password of the account of that name. -/
  delete : ∀ conn draws name password,
    (∃ user, (conn, .deleteAccount (.ok user))
        ∈ (s.receive ⟨conn, .deleteAccount name password, draws⟩).written)
      ↔ ∃ uid, book name = some ⟨uid, password⟩
  /-- It then takes that account out and does nothing else. -/
  deleted : ∀ conn draws name uid password, book name = some ⟨uid, password⟩ →
    (s.receive ⟨conn, .deleteAccount name password, draws⟩).server = withoutAccount s uid
  /-- A registered name is logged in with its password. -/
  login : ∀ conn draws name account password, book name = some account →
    ((∃ user, (conn, .login (.ok user))
        ∈ (s.receive ⟨conn, .login name password, draws⟩).written) ↔ account.password = password)
  /-- The connection is then that account's, and otherwise whose it was. -/
  authenticated : ∀ conn draws name account password, book name = some account →
    (s.receive ⟨conn, .login name password, draws⟩).server.authenticatedUser
      = if account.password = password then
          Function.update s.authenticatedUser conn (some account.uid)
        else s.authenticatedUser

/--
**Credentials decide.** In every run of requests about accounts in which uids are
fresh and no two strings have the same hash, who can log in and who can delete an
account is as in the book of accounts kept beside the server.
-/
theorem credentials_decide (hsha : Function.Injective External.sha256) {p : Server × Book}
    (hr : bookkeeping.Reachable AboutAccounts p) : Decides p.1 p.2 := by
  have h := keepsBook_reachable hsha hr
  refine ⟨fun name uid => ⟨?_, ?_⟩, fun conn draws name password => ⟨?_, ?_⟩,
    fun conn draws name uid password hbook => ?_,
    fun conn draws name account password hbook => ⟨?_, ?_⟩,
    fun conn draws name account password hbook => ?_⟩
  · rintro ⟨user, hu, rfl⟩
    exact h.written uid user hu
  · rintro ⟨password, hbook⟩
    obtain ⟨user, salt, hu, hname, -⟩ := h.kept name _ hbook
    exact ⟨user, hu, hname⟩
  · rintro ⟨user, hin⟩
    by_contra hnone
    obtain ⟨error, heq⟩ := h.onDeleteAccount_wrong hsha (not_exists.mp hnone) conn
    rw [Server.receive, Server.handle, heq, Server.respond, List.mem_singleton] at hin
    cases hin
  · rintro ⟨uid, hbook⟩
    obtain ⟨user, -, heq⟩ := h.onDeleteAccount_right hsha hbook conn
    refine ⟨user, ?_⟩
    rw [Server.receive, Server.handle, heq]
    exact List.mem_singleton.mpr rfl
  · obtain ⟨user, -, heq⟩ := h.onDeleteAccount_right hsha hbook conn
    rw [Server.receive, Server.handle, heq]
  · rintro ⟨user, hin⟩
    by_contra hwrong
    rw [Server.receive, Server.handle, h.onLogin_wrong hsha hbook hwrong, Server.respond,
      List.mem_singleton] at hin
    cases hin
  · rintro rfl
    obtain ⟨user, -, heq⟩ := h.onLogin_right hsha hbook conn
    refine ⟨user, ?_⟩
    rw [Server.receive, Server.handle, heq]
    exact List.mem_singleton.mpr rfl
  · rw [Server.receive, Server.handle]
    by_cases hright : account.password = password
    · subst hright
      obtain ⟨user, -, heq⟩ := h.onLogin_right hsha hbook conn
      rw [heq, if_pos rfl]
      rfl
    · rw [h.onLogin_wrong hsha hbook hright, if_neg hright]
      rfl

end

/-! ## One account -/

/-- SHA-256 as in `External.sample`, but no two strings have the same hash. -/
def injectiveSha256 (s : Str) : Str :=
  if s = lit "secretsaltsaltsaltsalt" then
    lit "e7bc994cec51fd01035ea45396b7584a51ccbebd1ff5b527c480159e944a552a"
  else 0 :: s

theorem injectiveSha256_injective : Function.Injective injectiveSha256 := by
  intro s t h
  unfold injectiveSha256 at h
  split at h
  · rename_i hs
    split at h
    · rename_i ht
      rw [hs, ht]
    · exact absurd (List.cons.inj h).1 (by decide)
  · split at h
    · exact absurd (List.cons.inj h).1 (by decide)
    · exact (List.cons.inj h).2

@[reducible] def injectiveSample : External where
  sha256 := injectiveSha256
  regex s := .ok fun name => name == s

/-- Alice (1) registers, cannot do so again, is deleted and registers once more, as 2. -/
def aliceTwice : List Server.Call :=
  [⟨0, .registerAccount (lit "alice") (lit "secret") (lit "Alice"), .ofByte 1 []⟩,
    ⟨0, .registerAccount (lit "alice") (lit "secret") (lit "Alice"), .ofByte 1 []⟩,
    ⟨0, .login (lit "alice") (lit "secret"), .ofByte 1 []⟩,
    ⟨0, .deleteAccount (lit "alice") (lit "secret"), .ofByte 1 []⟩,
    ⟨0, .registerAccount (lit "alice") (lit "secret") (lit "Alice"), .ofByte 2 []⟩]

theorem aliceTwice_runs :
    ((@bookkeeping injectiveSample).exec AboutAccounts (@bookkeeping injectiveSample).init
      aliceTwice).isSome := by
  decide

/-- Connection 3 can log in as the second of the two accounts. -/
theorem credentials_decide_alice :
    ∃ p, (@bookkeeping injectiveSample).Reachable AboutAccounts p
      ∧ (@Server.receive injectiveSample p.1 ⟨3, .login (lit "alice") (lit "secret"),
          .ofByte 1 []⟩).server.authenticatedUser 3 = some (.ofByte 2) := by
  have hr := System.Reachable.exec_get aliceTwice_runs
  have hdecides := @credentials_decide injectiveSample injectiveSha256_injective _ hr
  have hbook : (((@bookkeeping injectiveSample).exec AboutAccounts
      (@bookkeeping injectiveSample).init aliceTwice).get aliceTwice_runs).2 (lit "alice")
        = some ⟨.ofByte 2, lit "secret"⟩ := rfl
  refine ⟨_, hr, ?_⟩
  have hlogin := @Decides.authenticated injectiveSample _ _ hdecides 3 (.ofByte 1 []) _ _
    (lit "secret") hbook
  rw [if_pos rfl] at hlogin
  exact (congrFun hlogin 3).trans (Function.update_self _ _ _)

end SockEtOut.Proof
