import SockEtOut.Lib.Run
import SockEtOut.Server.Tables

/-!
# Registration and account deletion on several threads

Each client has a thread, and a thread runs one handler at a time. What is atomic
is one call on one table, under that table's lock. `on_register_account` makes
three such calls and `on_delete_account` more; here they are the steps, and a
thread's program counter keeps what the handler carries from one to the next.

The sweep that `Database::remove_user` makes over channels takes locks too, as
often as there are channels and messages. It reads the user table and writes
neither it nor the password table, so all of its calls are one step that a thread
may take any number of times.
-/

namespace SockEtOut.Registration

/-- Where a thread stands in its handler. -/
inductive Pc where
  | idle
  /-- The username was not found; the password is about to be stored. -/
  | addingPassword (user : User) (password : Str)
  /-- The password is stored; the user is about to be. -/
  | addingUser (user : User)
  /-- A deletion has found the account; the password is about to be checked. -/
  | verifying (uid : UUID) (password : Str)
  /-- `Database::remove_user` is about to fetch the user. -/
  | fetching (uid : UUID)
  /-- It is going over the user's channels. -/
  | sweeping (uid : UUID)
  deriving DecidableEq

/-- The username a registration has looked up in vain and not inserted yet. -/
def Pc.pendingName : Pc → Option Str
  | .addingPassword user _ | .addingUser user => some user.username
  | _ => none

structure State where
  users : UserTable
  passwords : PasswordTable
  /-- Program counters; a thread without an entry is idle. -/
  threads : Lib.Table Nat Pc

def State.pc (s : State) (thread : Nat) : Pc := (s.threads.lookup thread).getD .idle

def State.setPc (s : State) (thread : Nat) (pc : Pc) : State :=
  { s with threads := s.threads.assign thread pc }

/-- The next table call of a thread, with what the environment decides in it. -/
inductive Act where
  /-- `on_register_account` looks the username up, and on failure draws a user's uid. -/
  | register (username displayName password : Str) (uid : UUID)
  | addPassword (salt : Str)
  | addUser
  /-- `on_delete_account` looks the username up. -/
  | delete (username password : Str)
  | verifyPassword
  | getUser
  | sweep
  | removeUser

def step [External] (s : State) : Nat × Act → Option State
  | (i, act) =>
      match act, s.pc i with
      -- `on_register_account`
      | .register username displayName password uid, .idle =>
          match s.users.getUidFromUsername username with
          | some _ => some s
          | none =>
              some (s.setPc i (.addingPassword (.new uid username displayName) password))
      | .addPassword salt, .addingPassword user password =>
          let (_, passwords) := s.passwords.addPassword user.uid password salt
          some ({ s with passwords }.setPc i (.addingUser user))
      | .addUser, .addingUser user =>
          let (_, users) := s.users.addUser user
          some ({ s with users }.setPc i .idle)
      -- `on_delete_account`
      | .delete username password, .idle =>
          match s.users.getUidFromUsername username with
          | none => some s
          | some uid => some (s.setPc i (.verifying uid password))
      | .verifyPassword, .verifying uid password =>
          match s.passwords.verifyPassword uid password with
          | .ok true => some (s.setPc i (.fetching uid))
          | _ => some (s.setPc i .idle)
      -- `Database::remove_user`
      | .getUser, .fetching uid =>
          match s.users.lookup uid with
          | none => some (s.setPc i .idle)
          | some _ => some (s.setPc i (.sweeping uid))
      | .sweep, .sweeping _ => some s
      | .removeUser, .sweeping uid =>
          let (_, users) := s.users.removeUser uid
          some ({ s with users }.setPc i .idle)
      | _, _ => none

/-- Any interleaving of the handlers' table calls. -/
def system [External] : Lib.System State (Nat × Act) where
  init := ⟨.empty, .empty, .empty⟩
  step := step

end SockEtOut.Registration
