import SockEtOut.Lib.Simulation
import SockEtOut.Proof.Serving
import SockEtOut.Server.TcpServer

/-!
# Those who stay do not notice

A server whose clients come and go is, to those that are there, the server whose
connections last for ever and on which the others have fallen silent. The tables are the
same, a request ends the same way, and the frames a connection gets are the same frames;
those for connections that are gone are not written.

A handler's slots are all that a signal knows of it, so it is enough that the slots of the
one are those of the other that belong to handlers there are.
-/

namespace SockEtOut.Proof

open Lib System

variable {live : List Nat} {s t s' t' : Server} {call : Server.Call} {conn : Nat}

/-! ## Servers that differ in who is gone -/

/-- The same to those that live. -/
structure SameFor (live : List Nat) (s t : Server) : Prop where
  db : s.db = t.db
  users : ∀ c ∈ live, s.authenticatedUser c = t.authenticatedUser c
  slots : s.slots = t.slots.filter fun slot => slot.receiver ∈ live

/-- Handlers that have ended the same way, and written the same to those that live. -/
structure HandledFor (live : List Nat) (a b : Handled) : Prop where
  outcome : a.outcome = b.outcome
  server : SameFor live a.server b.server
  written : a.written = b.written.filter fun p => p.1 ∈ live

theorem deliver_sameFor (h : SameFor live s t) (signal : Signal) :
    s.deliver signal = (t.deliver signal).filter fun p => p.1 ∈ live := by
  unfold Server.deliver
  rw [h.slots, List.filter_map, List.filter_filter, List.filter_filter]
  refine congrArg (List.map _) (congrArg (fun p => List.filter p t.slots) (funext fun slot => ?_))
  exact Bool.and_comm ..

theorem notified_sameFor (h : SameFor live s t) (signals : List Signal) :
    signals.flatMap s.deliver = (signals.flatMap t.deliver).filter fun p => p.1 ∈ live := by
  induction signals with
  | nil => rfl
  | cons signal signals ih =>
      rw [List.flatMap_cons, List.flatMap_cons, List.filter_append, ih, deliver_sameFor h]

/-- Frames for those that live are kept. -/
theorem filter_own {written : List (Nat × Response)} (h : ∀ p ∈ written, p.1 ∈ live) :
    (written.filter fun p => p.1 ∈ live) = written :=
  List.filter_eq_self.mpr fun p hp => decide_eq_true (h p hp)

theorem handledFor_respond (h : SameFor live s t) (hconn : conn ∈ live) (r : Response) :
    HandledFor live (s.respond conn r) (t.respond conn r) where
  outcome := rfl
  server := h
  written := (filter_own fun p hp => by rw [List.mem_singleton.mp hp]; exact hconn).symm

theorem handledFor_conclude {α : Type} (h : SameFor live s t) (ret : Ret α)
    {reply : Except Str α → List (Nat × Response)}
    (hreply : ∀ res, ∀ p ∈ reply res, p.1 ∈ live) :
    HandledFor live (s.conclude ret reply) (t.conclude ret reply) := by
  have hserver : SameFor live { s with db := ret.db } { t with db := ret.db } :=
    ⟨rfl, h.users, h.slots⟩
  have hnotified := notified_sameFor h ret.emitted
  unfold Server.conclude
  dsimp only
  split
  · refine ⟨rfl, hserver, ?_⟩
    rw [List.filter_append, filter_own (hreply _), hnotified]
  · exact ⟨rfl, hserver, hnotified⟩
  · exact ⟨rfl, hserver, hnotified⟩

/-- Letting go of the old user and following the new one. -/
theorem sameFor_setAuthenticatedUser (h : SameFor live s t) (hconn : conn ∈ live) (uid : UUID) :
    SameFor live (s.setAuthenticatedUser conn uid) (t.setAuthenticatedUser conn uid) where
  db := h.db
  users c hc := by
    show Function.update s.authenticatedUser conn (some uid) c
      = Function.update t.authenticatedUser conn (some uid) c
    rw [Function.update_apply, Function.update_apply, h.users c hc]
  slots := by
    have hown : ((Server.slotsOf conn uid).filter fun slot => slot.receiver ∈ live)
        = Server.slotsOf conn uid := by
      simp [Server.slotsOf, hconn]
    show s.disconnected conn ++ Server.slotsOf conn uid
      = (t.disconnected conn ++ Server.slotsOf conn uid).filter _
    rw [List.filter_append, hown]
    refine congrArg (· ++ Server.slotsOf conn uid) ?_
    unfold Server.disconnected
    rw [h.users conn hconn]
    split
    · exact h.slots
    · rw [h.slots, List.filter_filter, List.filter_filter]
      exact congrArg (fun p => List.filter p t.slots) (funext fun slot => Bool.and_comm ..)

/-- **A request is handled the same for those that live.** -/
theorem handledFor_receive [External] (h : SameFor live s t) (hconn : call.conn ∈ live) :
    HandledFor live (s.receive call) (t.receive call) := by
  obtain ⟨conn, request, draws⟩ := call
  have hdb := h.db
  -- a reply goes to the connection that asks, and that is there
  have hown : ∀ r : Response, ∀ p ∈ [(conn, r)], p.1 ∈ live := by
    intro r p hp
    rw [List.mem_singleton.mp hp]
    exact hconn
  cases request with
  | registerAccount username password displayName =>
      show HandledFor live (s.onRegisterAccount conn draws username password displayName)
        (t.onRegisterAccount conn draws username password displayName)
      unfold Server.onRegisterAccount
      rw [hdb]
      split
      · exact handledFor_respond h hconn _
      · exact handledFor_conclude h _ fun res => hown _
  | login username password =>
      show HandledFor live (s.onLogin conn username password) (t.onLogin conn username password)
      unfold Server.onLogin
      rw [hdb]
      split
      · exact ⟨rfl, h, rfl⟩
      · split
        · exact handledFor_respond h hconn _
        · exact handledFor_respond h hconn _
        · split
          · exact ⟨rfl, h, rfl⟩
          · refine ⟨rfl, sameFor_setAuthenticatedUser h hconn _, (filter_own fun p hp => ?_).symm⟩
            rcases List.mem_cons.mp hp with rfl | hp
            · exact hconn
            · obtain ⟨r, -, rfl⟩ := List.mem_map.mp hp
              exact hconn
  | listAccounts regex =>
      show HandledFor live (s.onListAccounts conn regex) (t.onListAccounts conn regex)
      unfold Server.onListAccounts
      rw [hdb]
      split
      · exact handledFor_respond h hconn _
      · exact handledFor_respond h hconn _
  | deleteAccount username password =>
      show HandledFor live (s.onDeleteAccount conn username password)
        (t.onDeleteAccount conn username password)
      unfold Server.onDeleteAccount
      rw [hdb]
      split
      · exact handledFor_respond h hconn _
      · split
        · exact handledFor_respond h hconn _
        · exact handledFor_respond h hconn _
        · exact handledFor_conclude h _ fun res => hown _
  | createChannel channelName members =>
      show HandledFor live (s.onCreateChannel draws channelName members)
        (t.onCreateChannel draws channelName members)
      unfold Server.onCreateChannel
      rw [hdb]
      exact handledFor_conclude h _ fun res p hp => absurd hp List.not_mem_nil
  | sendMessage senderUid channelUid text =>
      show HandledFor live (s.onSendMessage draws senderUid channelUid text)
        (t.onSendMessage draws senderUid channelUid text)
      unfold Server.onSendMessage
      rw [hdb]
      exact handledFor_conclude h _ fun res p hp => absurd hp List.not_mem_nil
  | deleteMessage messageSnowflake =>
      show HandledFor live (s.onDeleteMessage messageSnowflake)
        (t.onDeleteMessage messageSnowflake)
      unfold Server.onDeleteMessage
      rw [hdb]
      exact handledFor_conclude h _ fun res p hp => absurd hp List.not_mem_nil

/-- All frames of those that live, and none of the others. -/
theorem framesFor_filter (c : Nat) (written : List (Nat × Response)) :
    framesFor c (written.filter fun p => p.1 ∈ live)
      = if c ∈ live then framesFor c written else [] := by
  unfold framesFor
  rw [List.filter_filter]
  split
  · rename_i hc
    refine congrArg (List.map _) (congrArg (fun p => List.filter p written) (funext fun p => ?_))
    by_cases hp : p.1 = c
    · simp [hp, hc]
    · simp [hp]
  · rename_i hc
    rw [List.map_eq_nil_iff, List.filter_eq_nil_iff]
    intro p _ hp
    simp only [Bool.and_eq_true, decide_eq_true_eq] at hp
    exact hc (hp.1 ▸ hp.2)

/-! ## The server that lasts -/

/-- The server whose connections last, and the one whose connections come and go. -/
structure Outlived (x : TcpServer) (t : Server) : Prop where
  same : SameFor x.handlers x.server t
  numbered : ∀ c ∈ x.handlers, c < x.accepted
  /-- Numbers that have not been given out have done nothing. -/
  untouched : ∀ c, x.accepted ≤ c → t.authenticatedUser c = none
  unheard : ∀ slot ∈ t.slots, slot.receiver < x.accepted

theorem outlived_new : Outlived .new .new where
  same := ⟨rfl, fun _ _ => rfl, rfl⟩
  numbered _ hc := absurd hc List.not_mem_nil
  untouched _ _ := rfl
  unheard _ hslot := absurd hslot List.not_mem_nil

variable {x : TcpServer}

theorem outlived_incomingConnection (h : Outlived x t) : Outlived x.incomingConnection t where
  same :=
    { db := h.same.db
      users := fun c hc => by
        show Function.update x.server.authenticatedUser x.accepted none c = _
        rcases List.mem_cons.mp hc with rfl | hc
        · rw [Function.update_self, h.untouched _ (Nat.le_refl _)]
        · rw [Function.update_of_ne (Nat.ne_of_lt (h.numbered c hc)), h.same.users c hc]
      slots := by
        show x.server.slots = t.slots.filter fun slot => slot.receiver ∈ x.accepted :: x.handlers
        rw [h.same.slots]
        refine List.filter_congr fun slot hslot => ?_
        have hne : slot.receiver ≠ x.accepted := Nat.ne_of_lt (h.unheard slot hslot)
        simp [hne] }
  numbered c hc := by
    rcases List.mem_cons.mp hc with rfl | hc
    · exact Nat.lt_succ_self _
    · exact Nat.lt_succ_of_lt (h.numbered c hc)
  untouched c hc := h.untouched c (Nat.le_of_succ_le hc)
  unheard slot hslot := Nat.lt_succ_of_lt (h.unheard slot hslot)

theorem outlived_onDisconnected (h : Outlived x t) (conn : Nat) :
    Outlived (x.onDisconnected conn) t where
  same :=
    { db := h.same.db
      users := fun c hc => by
        obtain ⟨hc, hne⟩ := List.mem_filter.mp hc
        show Function.update x.server.authenticatedUser conn none c = _
        rw [Function.update_of_ne (of_decide_eq_true hne), h.same.users c hc]
      slots := by
        show (x.server.slots.filter fun slot => slot.receiver ≠ conn)
          = t.slots.filter fun slot => slot.receiver ∈ x.handlers.filter (· ≠ conn)
        rw [h.same.slots, List.filter_filter]
        refine List.filter_congr fun slot _ => ?_
        simp [List.mem_filter, And.comm] }
  numbered c hc := h.numbered c (List.mem_filter.mp hc).1
  untouched := h.untouched
  unheard := h.unheard

/-- A request touches its own connection only. -/
theorem touched_of_step [External] (hs : t.step call = some t') :
    (∀ c, c ≠ call.conn → t'.authenticatedUser c = t.authenticatedUser c)
      ∧ ∀ slot ∈ t'.slots, slot ∈ t.slots ∨ slot.receiver = call.conn := by
  rcases step_cases hs with rfl | ⟨uid, user, -, rfl⟩ | ⟨op, -, db', -, rfl⟩
  · exact ⟨fun _ _ => rfl, fun _ => Or.inl⟩
  · refine ⟨fun c hc => Function.update_of_ne hc _ _, fun slot hslot => ?_⟩
    rcases List.mem_append.mp hslot with hold | hown
    · refine Or.inl ?_
      unfold Server.disconnected at hold
      split at hold
      · exact hold
      · exact (List.mem_filter.mp hold).1
    · refine Or.inr ?_
      simp only [Server.slotsOf, List.mem_cons, List.not_mem_nil, or_false] at hown
      rcases hown with rfl | rfl | rfl <;> rfl
  · exact ⟨fun _ _ => rfl, fun _ => Or.inl⟩

theorem step_eq_some [External] (hs : s.step call = some s') :
    (s.receive call).outcome ≠ .waiting ∧ (s.receive call).server = s' := by
  unfold Server.step at hs
  split at hs
  · cases hs
  · rename_i hne
    exact ⟨hne, Option.some.inj hs⟩

theorem outlived_request [External] (h : Outlived x t) (hconn : call.conn ∈ x.handlers)
    (hs : x.server.step call = some s') :
    ∃ t', t.step call = some t' ∧ Outlived { x with server := s' } t' := by
  obtain ⟨hne, rfl⟩ := step_eq_some hs
  have hhandled := handledFor_receive h.same hconn
  have hstep : t.step call = some (t.receive call).server := by
    rw [hhandled.outcome] at hne
    unfold Server.step
    split
    · rename_i hwaiting
      exact absurd hwaiting hne
    · rfl
  obtain ⟨husers, hslots⟩ := touched_of_step hstep
  have hlt := h.numbered _ hconn
  refine ⟨_, hstep, hhandled.server, h.numbered, fun c hc => ?_, fun slot hslot => ?_⟩
  · have hle : x.accepted ≤ c := hc
    rw [husers c (by omega)]
    exact h.untouched c hc
  · rcases hslots slot hslot with hold | hown
    · exact h.unheard slot hold
    · rw [hown]
      exact hlt

/-- A guard on the requests, by the database they find. -/
def TcpServer.Calls (K : Database → Server.Call → Prop) (x : TcpServer) : TcpServer.Event → Prop
  | .request call => K x.server.db call
  | .incomingConnection | .disconnected _ => True

instance decidableTcpCalls {K : Database → Server.Call → Prop} [∀ db call, Decidable (K db call)]
    (x : TcpServer) : (event : TcpServer.Event) → Decidable (TcpServer.Calls K x event)
  | .request call => inferInstanceAs (Decidable (K x.server.db call))
  | .incomingConnection | .disconnected _ => inferInstanceAs (Decidable True)

/-- **Connections that end are connections that fall silent.** -/
theorem tcpServer_simulates [External] (K : Database → Server.Call → Prop) :
    Simulates TcpServer.system (TcpServer.Calls K) Server.system (fun s call => K s.db call)
      Outlived where
  init := outlived_new
  step := by
    intro x x' event t _ _ h hg hs
    cases event with
    | incomingConnection =>
        cases hs
        exact ⟨t, .stay, outlived_incomingConnection h⟩
    | disconnected conn =>
        unfold TcpServer.system TcpServer.step at hs
        dsimp only at hs
        split at hs
        · cases hs
          exact ⟨t, .stay, outlived_onDisconnected h conn⟩
        · cases hs
    | request call =>
        unfold TcpServer.system TcpServer.step at hs
        dsimp only at hs
        split at hs
        · rename_i hconn
          obtain ⟨s', hserver, rfl⟩ := Option.map_eq_some_iff.mp hs
          obtain ⟨t', ht', hout⟩ := outlived_request h hconn hserver
          refine ⟨t', .one (b := call) ?_ ht', hout⟩
          show K t.db call
          rw [← h.same.db]
          exact hg
        · cases hs

/-- A handler that is there has its slots on its user's signals, once; one that is gone has none. -/
theorem slots_of_outlived (h : Outlived x t) (hslots : SlotsInv t) (c : Nat) (u : UUID)
    (kind : SlotKind) :
    x.server.slots.count ⟨u, kind, c⟩
      = if c ∈ x.handlers ∧ x.server.authenticatedUser c = some u then 1 else 0 := by
  rw [h.same.slots]
  by_cases hc : c ∈ x.handlers
  · rw [List.count_filter (by simpa using hc), hslots, h.same.users c hc]
    simp [hc]
  · rw [if_neg fun hboth => hc hboth.1, List.count_eq_zero]
    intro hmem
    exact hc (of_decide_eq_true (List.mem_filter.mp hmem).2)

/-! ## The result -/

/--
**Connections come and go.** Whatever connections are made and end and whatever is requested,
there is a run of the server on which none ends that has the same database, and to every
connection that is there the same authenticated user; any request of such a connection
ends the same way on both, and each connection that is there is written the same frames.
One that has ended is written none, and no slot of it is left.
-/
theorem connections_come_and_go [External] {K : Database → Server.Call → Prop}
    (h : TcpServer.system.Reachable (TcpServer.Calls K) x) :
    ∃ t, Server.system.Reachable (fun s call => K s.db call) t
      ∧ x.server.db = t.db
      ∧ (∀ c ∈ x.handlers, x.server.authenticatedUser c = t.authenticatedUser c)
      ∧ (∀ call : Server.Call, call.conn ∈ x.handlers →
        (x.server.receive call).outcome = (t.receive call).outcome
          ∧ ∀ c, framesFor c (x.server.receive call).written
            = if c ∈ x.handlers then framesFor c (t.receive call).written else [])
      ∧ ∀ c u kind, x.server.slots.count ⟨u, kind, c⟩
          = if c ∈ x.handlers ∧ x.server.authenticatedUser c = some u then 1 else 0 := by
  obtain ⟨t, ht, hout⟩ := (tcpServer_simulates K).reachable h
  have hslots : SlotsInv t :=
    ht.invariant (P := SlotsInv) slotsInv_new fun _ _ _ _ hinv _ hs => slotsInv_step hinv hs
  refine ⟨t, ht, hout.same.db, hout.same.users, fun call hconn => ?_, slots_of_outlived hout hslots⟩
  have hhandled := handledFor_receive hout.same hconn
  refine ⟨hhandled.outcome, fun c => ?_⟩
  rw [hhandled.written, framesFor_filter]

/-- Alice logs in twice, from one connection after the other, and Bob never leaves. -/
def backAgain : List TcpServer.Event :=
  [.incomingConnection, .incomingConnection,
    .request ⟨0, .registerAccount (lit "alice") (lit "secret") (lit "Alice"), .ofByte 1 []⟩,
    .request ⟨1, .registerAccount (lit "bob") (lit "secret") (lit "Bob"), .ofByte 2 []⟩,
    .request ⟨0, .login (lit "alice") (lit "secret"), .ofByte 0 []⟩,
    .request ⟨1, .login (lit "bob") (lit "secret"), .ofByte 0 []⟩,
    .request ⟨0, .createChannel (lit "plans") [.ofByte 1, .ofByte 2], .ofByte 7 []⟩,
    .disconnected 0, .incomingConnection,
    .request ⟨2, .login (lit "alice") (lit "secret"), .ofByte 0 []⟩]

theorem backAgain_runs :
    ((@TcpServer.system .sample).exec (TcpServer.Calls fun _ _ => True) .new backAgain).isSome := by
  decide

/-- Where they are then. -/
def backAgainEnd : TcpServer :=
  ((@TcpServer.system .sample).exec (TcpServer.Calls fun _ _ => True) .new backAgain).get
    backAgain_runs

/-- What Bob says next goes to him and to where Alice is now, and not to where she was. -/
theorem connections_come_and_go_backAgain :
    ∃ t, backAgainEnd.server.db = t.db
      ∧ ∀ c, framesFor c (@Server.receive .sample backAgainEnd.server
            ⟨1, .sendMessage (.ofByte 2) (.ofByte 7) (lit "hi"), .ofByte 0 [epoch + 5]⟩).written
          = if c ∈ [2, 1] then framesFor c (@Server.receive .sample t
              ⟨1, .sendMessage (.ofByte 2) (.ofByte 7) (lit "hi"), .ofByte 0 [epoch + 5]⟩).written
            else [] := by
  have hlive : backAgainEnd.handlers = [2, 1] := by decide
  obtain ⟨t, -, hdb, -, hcalls, -⟩ :=
    @connections_come_and_go _ .sample _ (System.Reachable.exec_get backAgain_runs)
  refine ⟨t, hdb, ?_⟩
  rw [← hlive]
  exact (hcalls _ (by decide)).2

end SockEtOut.Proof
