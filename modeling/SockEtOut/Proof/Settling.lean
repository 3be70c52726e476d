import Mathlib.Algebra.BigOperators.Group.Finset.Basic
import Mathlib.Algebra.Order.BigOperators.Group.Finset
import Mathlib.Order.RelClasses
import SockEtOut.Lib.Rest
import SockEtOut.Proof.Reconnections

/-!
# When nobody clicks

A request that is handled puts frames on their way, to as many as there are to hear of it,
and a frame that is taken in puts nothing on its way: no slot of a response writes. So
what is there is used up. A handler that has a message can end, for the only loop that
waits is that of the snowflakes, and it waits for the clock.

A handler that throws uses up more: the process of the server ends, and no handler is
there any more to take anything.
-/

namespace SockEtOut.Proof

open Lib System

variable {w w' : Parties} {s : Server} {conn : Nat}

/-! ## A handler can end -/

theorem returned_ne {α : Type} (x : α) : Outcome.returned x ≠ .waiting := by
  simp

theorem raised_ne {α : Type} (e : Exn) : Outcome.raised e ≠ (.waiting : Outcome α) := by
  simp

theorem nextId_later {g : SnowflakeIDGenerator} {t : Int} (h : g.lastTimestamp < t)
    (readings : List Int) : (g.nextId (t :: readings)).1 ≠ .waiting := by
  unfold SnowflakeIDGenerator.nextId
  dsimp only
  rw [if_neg (by omega), if_neg (by omega)]
  exact returned_ne _

theorem conclude_returns {α : Type} {ret : Ret α} (h : ret.outcome ≠ .waiting) (s : Server)
    (reply : Except Str α → List (Nat × Response)) : (s.conclude ret reply).outcome ≠ .waiting := by
  unfold Server.conclude
  dsimp only
  split
  · exact returned_ne _
  · exact raised_ne _
  · rename_i hwaiting
    exact absurd hwaiting h

theorem addMessage_returns {db : Database} {t : Int} (h : db.generator.lastTimestamp < t)
    (senderUid channelUid : UUID) (text : Str) (readings : List Int) (now : UInt64) :
    (db.addMessage senderUid channelUid text (t :: readings) now).outcome ≠ .waiting := by
  have hnext := nextId_later h readings
  unfold Database.addMessage MessageTable.addMessage
  split
  · exact returned_ne _
  · cases hid : db.generator.nextId (t :: readings) with
    | mk outcome generator =>
        rw [hid] at hnext
        cases outcome with
        | returned id => exact returned_ne _
        | raised e => exact raised_ne _
        | waiting => exact absurd rfl hnext

/-- **Any request can be handled**, once the clock is past the last snowflake. -/
theorem request_returns [External] (conn : Nat) (request : Request) {draws : Draws} {t : Int}
    {readings : List Int} (hreadings : draws.readings = t :: readings)
    (hlater : s.db.generator.lastTimestamp < t) :
    (s.receive ⟨conn, request, draws⟩).outcome ≠ .waiting := by
  cases request with
  | registerAccount username password displayName =>
      show (s.onRegisterAccount conn draws username password displayName).outcome ≠ .waiting
      unfold Server.onRegisterAccount
      split
      · exact returned_ne _
      · exact conclude_returns (returned_ne _) s _
  | login username password =>
      show (s.onLogin conn username password).outcome ≠ .waiting
      unfold Server.onLogin
      split
      · exact raised_ne _
      · split
        · exact returned_ne _
        · exact returned_ne _
        · split
          · exact raised_ne _
          · exact returned_ne _
  | listAccounts regex =>
      show (s.onListAccounts conn regex).outcome ≠ .waiting
      unfold Server.onListAccounts
      split <;> exact returned_ne _
  | deleteAccount username password =>
      show (s.onDeleteAccount conn username password).outcome ≠ .waiting
      unfold Server.onDeleteAccount
      split
      · exact returned_ne _
      · split
        · exact returned_ne _
        · exact returned_ne _
        · refine conclude_returns ?_ s _
          unfold Database.removeUser
          split <;> exact returned_ne _
  | createChannel channelName members => exact conclude_returns (returned_ne _) s _
  | sendMessage senderUid channelUid text =>
      show (s.onSendMessage draws senderUid channelUid text).outcome ≠ .waiting
      unfold Server.onSendMessage
      rw [hreadings]
      exact conclude_returns (addMessage_returns hlater senderUid channelUid text readings _) s _
  | deleteMessage messageSnowflake =>
      refine conclude_returns ?_ s _
      rcases removeMessage_cases s.db messageSnowflake with ⟨e, heq⟩ | ⟨m, ch, -, -, heq⟩
      · rw [heq]
        exact returned_ne _
      · rw [heq]
        exact returned_ne _

/-! ## What is there is used up -/

/-- Nobody clicks, and nobody connects or is cut off. -/
def Settling (_ : Parties) : Parties.Event → Prop
  | .handle .. | .deliver _ => True
  | _ => False

/-- How much waits on the first `n` connections. -/
def waiting {α : Type} (n : Nat) (queues : Nat → List α) : Nat :=
  ∑ c ∈ Finset.range n, (queues c).length

/-- It is less when one of them has less and the others are as they were. -/
theorem waiting_update_lt {α : Type} {n c : Nat} {queues : Nat → List α} {q : List α} (hc : c < n)
    (hless : q.length < (queues c).length) :
    waiting n (Function.update queues c q) < waiting n queues := by
  unfold waiting
  refine Finset.sum_lt_sum (fun d _ => ?_) ⟨c, Finset.mem_range.mpr hc, ?_⟩
  · by_cases hd : d = c
    · rw [hd, Function.update_self]
      exact Nat.le_of_lt hless
    · rw [Function.update_of_ne hd]
  · rw [Function.update_self]
    exact hless

/-- The requests, and then the frames, on all connections there have been. -/
def load (w : Parties) : Nat × Nat :=
  (waiting w.tcp.accepted w.requests, waiting w.tcp.accepted w.frames)

/-- A handler that takes a message has fewer left. -/
theorem waiting_taken {draws : Draws} {call : Server.Call} (hw : Wired w)
    (hcall : w.call conn draws = some call) (hconn : call.conn ∈ w.tcp.handlers) :
    waiting w.tcp.accepted (Function.update w.requests conn (w.requests conn).tail)
      < waiting w.tcp.accepted w.requests := by
  obtain ⟨m, hm, rfl⟩ := Option.map_eq_some_iff.mp hcall
  refine waiting_update_lt (hw.handlers conn hconn) ?_
  obtain ⟨rest, hrest⟩ := List.head?_eq_some_iff.mp hm
  rw [hrest, List.tail_cons, List.length_cons]
  omega

/-- **Each step makes the load smaller**: a request weighs more than all the frames it causes. -/
theorem load_settling [External] [Qt] {step : Parties.Event} (hw : Wired w)
    (hsettling : Settling w step) (hs : w.step step = some w') :
    Prod.Lex (· < ·) (· < ·) (load w') (load w) := by
  cases moves_of_step hs with
  | inward hstep hin => cases step <;> first | exact hsettling.elim | exact hstep.elim
  | accepted p written pendingClose => exact hsettling.elim
  | handled hcall hconn hserver => exact Prod.Lex.left _ _ (waiting_taken hw hcall hconn)
  | crashed hcall hconn hserver => exact Prod.Lex.left _ _ (waiting_taken hw hcall hconn)
  | @delivered p conn a r rs hsocket hstate hframes =>
      refine Prod.Lex.right _ (waiting_update_lt (hw.sockets p conn hsocket) ?_)
      rw [hframes, List.length_cons]
      omega
  | ended conn => exact hsettling.elim

/-! ## Where it ends -/

/-- No handler has a message to take, and no program a frame. -/
structure AtRest (w : Parties) : Prop where
  requests : ∀ conn ∈ w.tcp.handlers, w.requests conn = []
  frames : ∀ p conn a, (w.party p).socket = .connected conn → (w.party p).state = .ok a →
    w.frames conn = []

/-- A handler with a message can take it, once the clock has moved on. -/
theorem handle_possible [External] [Qt] (hconn : conn ∈ w.tcp.handlers) {m : RequestMessage}
    {rest : List RequestMessage} (hrequests : w.requests conn = m :: rest) :
    ∃ draws w', w.step (.handle conn draws) = some w' := by
  obtain ⟨draws, hdraws⟩ : ∃ draws : Draws,
      draws.readings = [w.tcp.server.db.generator.lastTimestamp + 1] :=
    ⟨.ofByte 0 _, rfl⟩
  have hreturns := request_returns (s := w.tcp.server) conn m.request hdraws (by omega)
  obtain ⟨server, hserver⟩ : ∃ server,
      w.tcp.server.step ⟨conn, m.request, draws⟩ = some server := by
    unfold Server.step
    split
    · rename_i hwaiting
      exact absurd hwaiting hreturns
    · exact ⟨_, rfl⟩
  have htcp : w.tcp.step (.request ⟨conn, m.request, draws⟩)
      = some ⟨server, w.tcp.handlers, w.tcp.accepted⟩ := by
    unfold TcpServer.step
    dsimp only
    rw [if_pos hconn, hserver]
    rfl
  refine ⟨draws, ?_⟩
  unfold Parties.step
  dsimp only
  rw [hrequests]
  dsimp only [List.head?_cons, bind, Option.bind]
  rw [htcp]
  dsimp only
  split
  · exact ⟨_, rfl⟩
  · exact ⟨_, rfl⟩

theorem deliver_possible [External] [Qt] {p : Nat} {a : Application} {r : Response}
    {rs : List Response} (hsocket : (w.party p).socket = .connected conn)
    (hstate : (w.party p).state = .ok a) (hframes : w.frames conn = r :: rs) :
    ∃ w', w.step (.deliver p) = some w' := by
  unfold Parties.step
  dsimp only
  rw [hsocket, hstate]
  dsimp only
  rw [hframes]
  exact ⟨_, rfl⟩

/-- **Nothing is stuck**: where no step is possible, nothing waits. -/
theorem atRest_iff [External] [Qt] :
    AtRest w ↔ ∀ step, Settling w step → w.step step = none := by
  refine ⟨fun h step hsettling => ?_, fun h => ⟨fun conn hconn => ?_, fun p conn a hp ha => ?_⟩⟩
  · have hnothing : ∀ conn draws (call : Server.Call), call.conn ∈ w.tcp.handlers →
        w.call conn draws ≠ some call := by
      rintro conn draws call hconn hcall
      obtain ⟨m, hm, rfl⟩ := Option.map_eq_some_iff.mp hcall
      rw [h.requests conn hconn] at hm
      cases hm
    cases hs : w.step step with
    | none => rfl
    | some w' =>
        cases moves_of_step hs with
        | inward hstep hin => cases step <;> first | exact hsettling.elim | exact hstep.elim
        | accepted p written pendingClose => exact hsettling.elim
        | handled hcall hconn hserver => exact absurd hcall (hnothing _ _ _ hconn)
        | crashed hcall hconn hserver => exact absurd hcall (hnothing _ _ _ hconn)
        | delivered hsocket hstate hframes =>
            rw [h.frames _ _ _ hsocket hstate] at hframes
            cases hframes
        | ended conn => exact hsettling.elim
  · cases hrequests : w.requests conn with
    | nil => rfl
    | cons m rest =>
        obtain ⟨draws, w', hs⟩ := handle_possible hconn hrequests
        rw [h (.handle conn draws) trivial] at hs
        cases hs
  · cases hframes : w.frames conn with
    | nil => rfl
    | cons r rs =>
        obtain ⟨w', hs⟩ := deliver_possible hp ha hframes
        rw [h (.deliver p) trivial] at hs
        cases hs

/--
**Everything comes to rest.** Whatever users have clicked, however they have come and
gone: when nobody does anything any more, the server and the programs go on for finitely
many steps, whichever handler or program is next; they can go on exactly as long as there
is a message that a handler which is there or a frame that a program could take; and so
there is a run to where there is none. A handler that throws ends the server, and the
programs go on without it.
-/
theorem comes_to_rest [External] [Qt] (h : Parties.system.Reachable Always w) :
    (∀ run : Nat → Parties, run 0 = w →
        ∃ n, ∀ step, Settling (run n) step → (run n).step step ≠ some (run (n + 1)))
      ∧ (∀ w', (Parties.system.resume w).Reachable Settling w' →
        (AtRest w' ↔ ∀ step, Settling w' step → w'.step step = none))
      ∧ ∃ w', (Parties.system.resume w).Reachable Settling w' ∧ AtRest w' := by
  have hwired : Wired w := by
    refine h.invariant (P := Wired) wired_init ?_
    intro w step w' _ hw _ hs
    exact wired_step hw hs
  have hless : ∀ {w : Parties} {step : Parties.Event} {w' : Parties}, Wired w → Settling w step →
      Parties.system.step w step = some w' →
      Wired w' ∧ Prod.Lex (· < ·) (· < ·) (load w') (load w) :=
    fun hw hsettling hs => ⟨wired_step hw hs, load_settling hw hsettling hs⟩
  have hrests : Parties.system.Rests Settling w :=
    rests_of_measure (WellFounded.prod_lex Nat.lt_wfRel.wf Nat.lt_wfRel.wf) hless hwired
  refine ⟨hrests.not_forever, fun w' _ => atRest_iff, ?_⟩
  obtain ⟨w', hreach, hend⟩ := hrests.exists_end
  exact ⟨w', hreach, atRest_iff.mpr hend⟩

/-- Somebody has connected and asked for an account. -/
def asked : List Parties.Event :=
  [.submit 0, .connected 0,
    .click 0 (.submitRegistration (typed "alice") (typed "Alice") (typed "secret"))]

theorem asked_runs :
    ((@Parties.system .sample utf8Qt).exec Always .new asked).isSome := by
  decide +kernel

theorem comes_to_rest_asked : ∃ w', ((@Parties.system .sample utf8Qt).resume
      (((@Parties.system .sample utf8Qt).exec Always .new asked).get asked_runs)).Reachable
        Settling w' ∧ AtRest w' :=
  (@comes_to_rest _ .sample utf8Qt (System.Reachable.exec_get asked_runs)).2.2

end SockEtOut.Proof
