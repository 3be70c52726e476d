import SockEtOut.Server.Registration
import SockEtOut.Wire.Packets

/-!
# A login among registrations and deletions

`on_login` looks a username up, then a password, then the user, each under the
lock of one table, and answers. Registrations and account deletions on other
threads may move in between; what they do is `Server.Registration`.

What the login replays after its answer depends on channels and messages, which
any thread may change meanwhile. So a replayed frame is part of the label, and
the order and number of such frames are left open. Whom the connection is
authenticated as, and what it has connected, is not kept here.
-/

namespace SockEtOut.Logins

/-- Where `on_login` stands. -/
inductive Pc where
  /-- The username is about to be looked up. -/
  | starting (username password : Str)
  | verifying (uid : UUID) (password : Str)
  | fetching (uid : UUID)
  /-- The answer is about to be printed and written. -/
  | answering (data : Except Str User)
  /-- It is written, and was a success. -/
  | replaying
  | returned
  /-- An exception has left it. -/
  | thrown

structure State where
  accounts : Registration.State
  pc : Pc
  /-- What the login has written to its connection, in order. -/
  written : List Response

inductive Act where
  /-- Another thread registers or deletes an account. -/
  | account (thread : Nat) (act : Registration.Act)
  /-- The login goes on. -/
  | advance
  | replayChannel (channel : Channel)
  | replayMessage (message : Message)
  /-- The replay has come to its end. -/
  | finish

/-- Every response is printed before it is written, and `dump` may throw. -/
def State.write (s : State) (response : Response) (pc : Pc) : State :=
  if response.prints then { s with written := s.written ++ [response], pc }
  else { s with pc := .thrown }

/-- Where a login stands that has answered. -/
def Pc.answered : Except Str User → Pc
  | .ok _ => .replaying
  | .error _ => .returned

def advance [External] (s : State) : Pc → Option State
  | .starting username password =>
      match s.accounts.users.getUidFromUsername username with
      -- the line that prints the uid asks for its value, and the check comes after
      | none => some { s with pc := .thrown }
      | some uid => some { s with pc := .verifying uid password }
  | .verifying uid password =>
      match s.accounts.passwords.verifyPassword uid password with
      | .error error => some { s with pc := .answering (.error error) }
      | .ok false => some { s with pc := .answering (.error (lit "Incorrect password")) }
      | .ok true => some { s with pc := .fetching uid }
  | .fetching uid =>
      match s.accounts.users.lookup uid with
      -- `get_user_by_uid(..).value()`
      | none => some { s with pc := .thrown }
      | some user => some { s with pc := .answering (.ok user) }
  | .answering data => some (s.write (.login data) (.answered data))
  | .replaying | .returned | .thrown => none

def step [External] (s : State) : Act → Option State
  | .account thread act =>
      (Registration.step s.accounts (thread, act)).map fun accounts => { s with accounts }
  | .advance => advance s s.pc
  | .replayChannel channel =>
      match s.pc with
      | .replaying => some (s.write (.createChannel (.ok channel)) .replaying)
      | _ => none
  | .replayMessage message =>
      match s.pc with
      | .replaying => some (s.write (.sendMessage (.ok message)) .replaying)
      | _ => none
  | .finish =>
      match s.pc with
      | .replaying => some { s with pc := .returned }
      | _ => none

/-- One login, with any number of other threads before it and during it. -/
def system [External] (username password : Str) : Lib.System State Act where
  init := ⟨⟨.empty, .empty, .empty⟩, .starting username password, []⟩
  step := step

end SockEtOut.Logins
