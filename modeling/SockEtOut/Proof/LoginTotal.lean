import Mathlib.Logic.Relation
import SockEtOut.Proof.Notifications
import SockEtOut.Server.Logins

/-!
# When a login comes back

A login asks twice for a value that may not be there: the uid of a username nobody
has, and a user who has been deleted since the password was checked. It also
prints what it writes. `Succeeds` says that none of this goes wrong in one step; a
login whose steps all succeed writes one `LoginResponse` and returns.
-/

namespace SockEtOut.Proof

open Lib System Logins

/--
Where the login stands, its next lookup finds something and what it prints can be
printed. (Whatever came in over the wire can, `on_read_data` having printed the
request.)
-/
def Finds (s : Logins.State) : Logins.Pc → Prop
  | .starting username _ => (s.accounts.users.getUidFromUsername username).isSome
  | .fetching uid => (s.accounts.users.lookup uid).isSome
  | .answering data => (Response.login data).prints = true
  | .verifying .. | .replaying | .returned | .thrown => True

/-- The step neither asks for a value that is not there nor prints what cannot be printed. -/
def Succeeds (s : Logins.State) : Logins.Act → Prop
  | .account .. | .finish => True
  | .advance => Finds s s.pc
  | .replayChannel channel => (Response.createChannel (.ok channel)).prints = true
  | .replayMessage message => (Response.sendMessage (.ok message)).prints = true

instance (s : Logins.State) : (pc : Logins.Pc) → Decidable (Finds s pc)
  | .starting username _ =>
      inferInstanceAs (Decidable ((s.accounts.users.getUidFromUsername username).isSome = true))
  | .fetching uid => inferInstanceAs (Decidable ((s.accounts.users.lookup uid).isSome = true))
  | .answering data => inferInstanceAs (Decidable ((Response.login data).prints = true))
  | .verifying .. | .replaying | .returned | .thrown => .isTrue trivial

instance (s : Logins.State) : (act : Logins.Act) → Decidable (Succeeds s act)
  | .account .. | .finish => .isTrue trivial
  | .advance => inferInstanceAs (Decidable (Finds s s.pc))
  | .replayChannel channel =>
      inferInstanceAs (Decidable ((Response.createChannel (.ok channel)).prints = true))
  | .replayMessage message =>
      inferInstanceAs (Decidable ((Response.sendMessage (.ok message)).prints = true))

/-- Whether a response is a `LoginResponse`. -/
def isLogin : Response → Bool
  | .login _ => true
  | _ => false

/-- How often a login has answered where it stands. -/
def answers : Logins.Pc → Nat
  | .replaying | .returned => 1
  | .starting .. | .verifying .. | .fetching _ | .answering _ | .thrown => 0

variable {s s' : Logins.State} {act : Logins.Act}

/-! ## Steps -/

/-- Frames a replay can write. -/
def Replayed (r : Response) : Prop :=
  (∃ channel, r = .createChannel (.ok channel)) ∨ ∃ message, r = .sendMessage (.ok message)

theorem replayed_of_mem {db : Database} {user : User} {r : Response}
    (h : r ∈ Server.replay db user) : Replayed r := by
  obtain ⟨c, -, channel, -, rfl | ⟨t, -, message, -, rfl⟩⟩ := Server.mem_replay h
  · exact Or.inl ⟨channel, rfl⟩
  · exact Or.inr ⟨message, rfl⟩

/-- The login has not thrown, and has answered once if it has come to that. -/
structure AnswerInv (s : Logins.State) : Prop where
  running : s.pc ≠ .thrown
  answered : s.written.countP isLogin = answers s.pc

theorem framesFor_single (conn : Nat) (r : Response) : framesFor conn [(conn, r)] = [r] := by
  have hown := framesFor_own conn conn [r]
  rwa [if_pos rfl] at hown

/-- A write throws exactly if the response cannot be printed. -/
theorem write_thrown_iff {r : Response} {pc : Logins.Pc} (hpc : pc ≠ .thrown) :
    (s.write r pc).pc ≠ .thrown ↔ r.prints = true := by
  unfold Logins.State.write
  by_cases hr : r.prints = true
  · rw [if_pos hr]
    exact ⟨fun _ => hr, fun _ => hpc⟩
  · rw [if_neg hr]
    exact ⟨fun h => absurd rfl h, fun h => absurd h hr⟩

theorem answered_ne_thrown (data : Except Str User) : Logins.Pc.answered data ≠ .thrown := by
  cases data with
  | ok user => intro h; cases h
  | error error => intro h; cases h

/-- A write that does not throw. -/
theorem answerInv_write {r : Response} {pc : Logins.Pc} (hpc : pc ≠ .thrown)
    (hr : r.prints = true)
    (hcount : s.written.countP isLogin + (if isLogin r then 1 else 0) = answers pc) :
    AnswerInv (s.write r pc) := by
  rw [Logins.State.write, if_pos hr]
  refine ⟨hpc, ?_⟩
  dsimp only
  rw [List.countP_append, List.countP_singleton]
  exact hcount

/-- Lookups and other threads write nothing. -/
theorem answerInv_of_written (h : AnswerInv s) (hrunning : s'.pc ≠ .thrown)
    (hwritten : s'.written = s.written) (hanswers : answers s'.pc = answers s.pc) :
    AnswerInv s' :=
  ⟨hrunning, by rw [hwritten, h.answered, hanswers]⟩

section Steps

variable [External]

/-- A login that has neither returned nor thrown can go on. -/
theorem login_goes_on (s : Logins.State) (hreturned : s.pc ≠ .returned) (hthrown : s.pc ≠ .thrown) :
    (Logins.step s .advance).isSome ∨ (Logins.step s .finish).isSome := by
  cases hpc : s.pc with
  | starting username password =>
      left
      rw [Logins.step, hpc, Logins.advance]
      split <;> rfl
  | verifying uid password =>
      left
      rw [Logins.step, hpc, Logins.advance]
      split <;> rfl
  | fetching uid =>
      left
      rw [Logins.step, hpc, Logins.advance]
      split <;> rfl
  | answering data =>
      left
      rw [Logins.step, hpc, Logins.advance]
      rfl
  | replaying =>
      right
      rw [Logins.step, hpc]
      rfl
  | returned => exact absurd hpc hreturned
  | thrown => exact absurd hpc hthrown

/-- **One step.** From a login that runs, it leads to one that runs exactly if it succeeds. -/
theorem login_step_iff (h : AnswerInv s) (hs : Logins.step s act = some s') :
    (s'.pc ≠ .thrown ↔ Succeeds s act) ∧ (Succeeds s act → AnswerInv s') := by
  have hcount := h.answered
  cases act with
  | account thread act =>
      -- others may change what the login will find, not where it is
      obtain ⟨accounts, -, rfl⟩ := Option.map_eq_some_iff.mp hs
      exact ⟨⟨fun _ => trivial, fun _ => h.running⟩,
        fun _ => answerInv_of_written h h.running rfl rfl⟩
  | finish =>
      rw [Logins.step] at hs
      split at hs
      · rename_i hpc
        cases hs
        rw [hpc] at hcount
        exact ⟨⟨fun _ => trivial, fun _ hthrown => by cases hthrown⟩,
          fun _ => ⟨by simp, hcount⟩⟩
      · cases hs
  | replayChannel channel =>
      rw [Logins.step] at hs
      split at hs
      · rename_i hpc
        cases hs
        rw [hpc] at hcount
        exact ⟨write_thrown_iff (by simp), fun hr => answerInv_write (by simp) hr hcount⟩
      · cases hs
  | replayMessage message =>
      rw [Logins.step] at hs
      split at hs
      · rename_i hpc
        cases hs
        rw [hpc] at hcount
        exact ⟨write_thrown_iff (by simp), fun hr => answerInv_write (by simp) hr hcount⟩
      · cases hs
  | advance =>
      rw [Logins.step] at hs
      unfold Succeeds Finds
      cases hpc : s.pc with
      | starting username password =>
          -- `value()` of the uid throws if nobody has the name
          rw [hpc, Logins.advance] at hs
          rw [hpc] at hcount
          dsimp only
          split at hs
          · rename_i hnone
            cases hs
            rw [hnone]
            exact ⟨⟨fun hne => absurd rfl hne, fun hsome => by cases hsome⟩,
              fun hsome => by cases hsome⟩
          · rename_i uid hsome
            cases hs
            rw [hsome]
            exact ⟨⟨fun _ => rfl, fun _ hthrown => by cases hthrown⟩,
              fun _ => ⟨by simp, hcount⟩⟩
      | verifying uid password =>
          rw [hpc, Logins.advance] at hs
          rw [hpc] at hcount
          have hgoes : s'.pc ≠ .thrown ∧ AnswerInv s' := by
            split at hs
            · cases hs
              exact ⟨by simp, by simp, hcount⟩
            · cases hs
              exact ⟨by simp, by simp, hcount⟩
            · cases hs
              exact ⟨by simp, by simp, hcount⟩
          exact ⟨⟨fun _ => trivial, fun _ => hgoes.1⟩, fun _ => hgoes.2⟩
      | fetching uid =>
          -- and that of the user if the user has gone since
          rw [hpc, Logins.advance] at hs
          rw [hpc] at hcount
          dsimp only
          split at hs
          · rename_i hnone
            cases hs
            rw [hnone]
            exact ⟨⟨fun hne => absurd rfl hne, fun hsome => by cases hsome⟩,
              fun hsome => by cases hsome⟩
          · rename_i user hsome
            cases hs
            rw [hsome]
            exact ⟨⟨fun _ => rfl, fun _ hthrown => by cases hthrown⟩,
              fun _ => ⟨by simp, hcount⟩⟩
      | answering data =>
          rw [hpc, Logins.advance] at hs
          rw [hpc] at hcount
          cases hs
          refine ⟨write_thrown_iff (answered_ne_thrown data), fun hr =>
            answerInv_write (answered_ne_thrown data) hr ?_⟩
          rw [hcount]
          cases data <;> rfl
      | replaying | returned | thrown =>
          rw [hpc, Logins.advance] at hs
          cases hs

theorem answerInv_reachable {username password : Str}
    (h : (Logins.system username password).Reachable Succeeds s) : AnswerInv s := by
  refine h.invariant ⟨by simp [Logins.system], rfl⟩ ?_
  intro s act s' _ hinv hg hs
  exact (login_step_iff hinv hs).2 hg

/--
**Login is total where its lookups find something.** In any interleaving with
registrations and deletions whose steps all succeed, a login has not thrown, goes
on until it returns, and has then written exactly one `LoginResponse`. A step that
does not succeed throws.
-/
theorem login_total {username password : Str}
    (h : (Logins.system username password).Reachable Succeeds s) :
    s.pc ≠ .thrown
      ∧ (s.pc = .returned → s.written.countP isLogin = 1)
      ∧ (s.pc ≠ .returned →
          (Logins.step s .advance).isSome ∨ (Logins.step s .finish).isSome)
      ∧ ∀ act s', Logins.step s act = some s' → (s'.pc ≠ .thrown ↔ Succeeds s act) := by
  have hinv := answerInv_reachable h
  refine ⟨hinv.running, fun hreturned => ?_, fun hreturned => ?_, fun act s' hs => ?_⟩
  · rw [hinv.answered, hreturned]
    rfl
  · exact login_goes_on s hreturned hinv.running
  · exact (login_step_iff hinv hs).1

end Steps

/-- Thread 0 registers alice, who logs in. -/
def aliceLogsIn : List Logins.Act :=
  [.account 0 (.register (lit "alice") (lit "Alice") (lit "secret") (.ofByte 7)),
    .account 0 (.addPassword (lit "saltsaltsaltsalt")), .account 0 .addUser,
    .advance, .advance, .advance, .advance, .finish]

theorem aliceLogsIn_runs :
    ((@Logins.system .sample (lit "alice") (lit "secret")).exec Succeeds
      (@Logins.system .sample (lit "alice") (lit "secret")).init aliceLogsIn).isSome := by
  decide

theorem login_total_alice : ∃ s : Logins.State,
    s.pc ≠ .thrown
      ∧ (s.pc = .returned → s.written.countP isLogin = 1)
      ∧ (s.pc ≠ .returned →
          (@Logins.step .sample s .advance).isSome ∨ (@Logins.step .sample s .finish).isSome)
      ∧ ∀ act s', @Logins.step .sample s act = some s' → (s'.pc ≠ .thrown ↔ Succeeds s act) :=
  ⟨_, @login_total _ .sample _ _ (Reachable.exec_get aliceLogsIn_runs)⟩

/-- Alice, who has the right password, is deleted between its check and her lookup. -/
def aliceIsDeleted : List Logins.Act :=
  aliceLogsIn.take 5 ++
    [.account 0 (.delete (lit "alice") (lit "secret")), .account 0 .verifyPassword,
      .account 0 .getUser, .account 0 .removeUser, .advance]

theorem aliceIsDeleted_runs :
    ((@Logins.system .sample (lit "alice") (lit "secret")).exec Always
      (@Logins.system .sample (lit "alice") (lit "secret")).init aliceIsDeleted).isSome := by
  decide

/--
A login throws in two ways: an unknown username has no uid to print, and an account may
be deleted while the login is on its way to it.
-/
theorem login_not_total :
    (¬ ∀ (username password : Str) (s : Logins.State),
      (@Logins.system .sample username password).Reachable Always s → s.pc ≠ .thrown)
      ∧ ∃ s : Logins.State, (@Logins.system .sample (lit "alice") (lit "secret")).Reachable Always s
        ∧ s.pc = .thrown := by
  refine ⟨fun h => ?_, _, Reachable.exec_get aliceIsDeleted_runs, rfl⟩
  have hunknown : (@Logins.system .sample (lit "nobody") (lit "secret")).Reachable Always
      ⟨⟨.empty, .empty, .empty⟩, .thrown, []⟩ := .tail (a := .advance) .init trivial rfl
  exact h _ _ _ hunknown rfl

/-! ## A login that nobody interrupts -/

variable [External]

/-- The login moves, and no other thread. -/
def OwnStep (s s' : Logins.State) : Prop :=
  ∃ act, (∀ thread a, act ≠ .account thread a) ∧ Logins.step s act = some s'

theorem ownStep_advance (h : Logins.step s .advance = some s') : OwnStep s s' :=
  ⟨.advance, by simp, h⟩

/-- The replay can write any of these, and return. -/
theorem replay_own (rs : List Response) : ∀ (s : Logins.State), s.pc = .replaying →
    (∀ r ∈ rs, Replayed r ∧ r.prints = true) →
    Relation.ReflTransGen OwnStep s { s with written := s.written ++ rs, pc := .returned } := by
  induction rs with
  | nil =>
      intro s hpc _
      refine .single ⟨.finish, by simp, ?_⟩
      rw [Logins.step, hpc, List.append_nil]
  | cons r rs ih =>
      intro s hpc h
      obtain ⟨hreplayed, hr⟩ := h r List.mem_cons_self
      have hwrite :
          s.write r .replaying = { s with written := s.written ++ [r], pc := .replaying } :=
        if_pos hr
      have hfirst : OwnStep s (s.write r .replaying) := by
        rcases hreplayed with ⟨channel, rfl⟩ | ⟨message, rfl⟩
        · exact ⟨.replayChannel channel, by simp, by rw [Logins.step, hpc]⟩
        · exact ⟨.replayMessage message, by simp, by rw [Logins.step, hpc]⟩
      have hrest := ih (s.write r .replaying) (by rw [hwrite])
        fun r' hr' => h r' (List.mem_cons_of_mem r hr')
      rw [hwrite] at hfirst hrest
      simp only [List.append_assoc, List.singleton_append] at hrest
      exact .head hfirst hrest

/-- The answer, if it can be printed. -/
theorem answer_own {data : Except Str User} (hpc : s.pc = .answering data)
    (hr : (Response.login data).prints = true) :
    OwnStep s { s with written := s.written ++ [.login data], pc := .answered data } := by
  refine ownStep_advance ?_
  rw [Logins.step, hpc, Logins.advance, Logins.State.write, if_pos hr]

/--
On tables that nobody else changes, the steps add up to `Server.onLogin`: the same
frames, and an exception where it throws, as long as everything can be printed.
-/
theorem onLogin_alone {server : Server} {conn : Nat} {username password : Str}
    (husers : s.accounts.users = server.db.users)
    (hpasswords : s.accounts.passwords = server.db.passwords)
    (hpc : s.pc = .starting username password)
    (hprints : ∀ r ∈ framesFor conn (server.onLogin conn username password).written,
      r.prints = true) :
    ∃ s', Relation.ReflTransGen OwnStep s s'
      ∧ s'.written = s.written ++ framesFor conn (server.onLogin conn username password).written
      ∧ ((server.onLogin conn username password).outcome = .returned () → s'.pc = .returned)
      ∧ ∀ e, (server.onLogin conn username password).outcome = .raised e → s'.pc = .thrown := by
  have hlookup : Logins.step s .advance = Logins.advance s (.starting username password) := by
    rw [Logins.step, hpc]
  rw [Logins.advance, husers] at hlookup
  cases hname : server.db.users.getUidFromUsername username with
  | none =>
      have hhandled : server.onLogin conn username password
          = ⟨.raised .badOptionalAccess, server, []⟩ := by rw [Server.onLogin, hname]
      rw [hname] at hlookup
      rw [hhandled]
      exact ⟨_, .single (ownStep_advance hlookup), (List.append_nil _).symm, by simp,
        fun e _ => rfl⟩
  | some uid =>
      rw [hname] at hlookup
      have hverify : Logins.step { s with pc := .verifying uid password } .advance
          = Logins.advance { s with pc := .verifying uid password } (.verifying uid password) := rfl
      rw [Logins.advance, hpasswords] at hverify
      -- a refusal is written, and that is all
      have hrefused : ∀ error, server.onLogin conn username password
            = server.respond conn (.login (.error error)) →
          Logins.step { s with pc := .verifying uid password } .advance
            = some { s with pc := .answering (.error error) } →
          ∃ s', Relation.ReflTransGen OwnStep s s'
            ∧ s'.written
              = s.written ++ framesFor conn (server.onLogin conn username password).written
            ∧ ((server.onLogin conn username password).outcome = .returned () → s'.pc = .returned)
            ∧ ∀ e, (server.onLogin conn username password).outcome = .raised e →
                s'.pc = .thrown := by
        intro error hhandled hstep
        rw [hhandled, Server.respond, framesFor_single] at hprints ⊢
        have hanswer := answer_own (s := { s with pc := .answering (.error error) }) rfl
          (hprints _ List.mem_cons_self)
        exact ⟨_, .head (ownStep_advance hlookup) (.head (ownStep_advance hstep) (.single hanswer)),
          rfl, fun _ => rfl, by simp⟩
      cases hpassword : server.db.passwords.verifyPassword uid password with
      | error error =>
          rw [hpassword] at hverify
          exact hrefused error (by rw [Server.onLogin, hname]; dsimp only; rw [hpassword]) hverify
      | ok verified =>
          rw [hpassword] at hverify
          cases verified with
          | false =>
              exact hrefused _ (by rw [Server.onLogin, hname]; dsimp only; rw [hpassword]) hverify
          | true =>
              have hfetch : Logins.step { s with pc := .fetching uid } .advance
                  = Logins.advance { s with pc := .fetching uid } (.fetching uid) := rfl
              rw [Logins.advance, husers] at hfetch
              have hchecked : Relation.ReflTransGen OwnStep s { s with pc := .fetching uid } :=
                .head (ownStep_advance hlookup) (.single (ownStep_advance hverify))
              cases huser : server.db.users.lookup uid with
              | none =>
                  have hhandled : server.onLogin conn username password
                      = ⟨.raised .badOptionalAccess, server, []⟩ := by
                    rw [Server.onLogin, hname]
                    dsimp only
                    rw [hpassword]
                    dsimp only
                    rw [huser]
                  rw [huser] at hfetch
                  rw [hhandled]
                  exact ⟨_, hchecked.tail (ownStep_advance hfetch), (List.append_nil _).symm,
                    by simp, fun e _ => rfl⟩
              | some user =>
                  have hhandled : server.onLogin conn username password
                      = ⟨.returned (), server.setAuthenticatedUser conn uid,
                        (Response.login (.ok user) :: Server.replay server.db user).map
                          fun r => (conn, r)⟩ := by
                    rw [Server.onLogin, hname]
                    dsimp only
                    rw [hpassword]
                    dsimp only
                    rw [huser]
                    rfl
                  rw [huser] at hfetch
                  rw [hhandled, framesFor_own, if_pos rfl] at hprints ⊢
                  have hanswer := answer_own (s := { s with pc := .answering (.ok user) }) rfl
                    (hprints _ List.mem_cons_self)
                  have hreplay := replay_own (Server.replay server.db user)
                    { s with written := s.written ++ [.login (.ok user)], pc := .replaying } rfl
                    fun r hr => ⟨replayed_of_mem hr, hprints r (List.mem_cons_of_mem _ hr)⟩
                  refine ⟨_, ((hchecked.tail (ownStep_advance hfetch)).tail hanswer).trans hreplay,
                    ?_, fun _ => rfl, by simp⟩
                  rw [List.append_assoc]
                  rfl

end SockEtOut.Proof
