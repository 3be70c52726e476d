import Mathlib.Data.List.TakeWhile
import SockEtOut.Net.Parties
import SockEtOut.Proof.Departures
import SockEtOut.Proof.DesktopViews

/-!
# What users see who come and go

A program that disconnects and connects again has a new handler, which knows nothing of
the last one, and a session that may know a lot: of the two buttons one clears it and the
other does not. So behind each connection stands a client as in the deployment, which is
new when the connection is and takes in the same frames. The program's session remembers
what that client's does: a channel is either made anew by a frame of this connection, and
then the lists are the same, or this connection says nothing of it.

A login is answered with all the channels of the user, so what is left of former
connections is never what the user's open chat shows.
-/

namespace SockEtOut.Proof

open Lib System

variable {k : Int} {w w' : Parties} {p q conn : Nat} {a b : Application}
  {event : Application.Event}

/-! ## Sessions that have been there before -/

/-- The session has the lists that the other one has, and perhaps more. -/
def Remembers (s g : Session) : Prop :=
  ∀ c ms, g.channelMessages.lookup c = some ms → s.channelMessages.lookup c = some ms

/-- **Preserved by every response.** -/
theorem remembers_handle {s s' g g' : Session} {r : Response} (h : Remembers s g)
    (hs : s.handle r = .ok s') (hg : g.handle r = .ok g') : Remembers s' g' := by
  cases r with
  | registerAccount data | listAccounts data =>
      cases hs
      cases hg
      exact h
  | login data =>
      cases data <;> cases hs <;> cases hg <;> exact h
  | deleteAccount data =>
      cases data with
      | error e =>
          cases hs
          cases hg
          exact h
      | ok user =>
          -- both forget everything
          cases hs
          cases hg
          exact fun _ _ => id
  | createChannel data =>
      cases data with
      | error e =>
          cases hs
          cases hg
          exact h
      | ok channel =>
          -- the list of the channel starts over in both
          simp only [Session.handle, Session.onCreateChannelResponse] at hs hg
          split at hs
          · cases hs
          · split at hg
            · cases hg
            · cases hs
              cases hg
              intro c ms hms
              simp only [Session.setActiveChannel, Session.addChannel, Table.lookup_assign] at hms ⊢
              split
              · rename_i heq
                rwa [if_pos heq] at hms
              · rename_i hne
                rw [if_neg hne] at hms
                exact h c ms hms
  | sendMessage data =>
      cases data with
      | error e =>
          cases hs
          cases hg
          exact h
      | ok message =>
          obtain ⟨-, -, hmessages⟩ := session_of_addMessage hs
          obtain ⟨-, -, hmessages'⟩ := session_of_addMessage hg
          intro c ms hms
          rw [hmessages'] at hms
          rw [hmessages]
          split at hms
          · rename_i heq
            obtain ⟨old, hold, rfl⟩ := Option.map_eq_some_iff.mp hms
            rw [if_pos heq, h c old hold]
            rfl
          · rename_i hne
            rw [if_neg hne]
            exact h c ms hms
  | deleteMessage data =>
      cases data with
      | error e =>
          cases hs
          cases hg
          exact h
      | ok message =>
          obtain ⟨-, -, hmessages⟩ := session_of_removeMessage hs
          obtain ⟨-, -, hmessages'⟩ := session_of_removeMessage hg
          intro c ms hms
          rw [hmessages'] at hms
          rw [hmessages]
          exact h c ms hms

/-! ## Handlers that go -/

variable {x : TcpServer} {settled : Except Exn Session}

theorem lastingInv_onDisconnected (h : LastingInv k x.server) (conn : Nat) :
    LastingInv k (x.onDisconnected conn).server where
  server :=
    { slots := fun c u kind => by
        show (x.server.slots.filter fun slot => slot.receiver ≠ conn).count _
          = if Function.update x.server.authenticatedUser conn none c = some u then 1 else 0
        by_cases hc : c = conn
        · rw [hc, Function.update_self, if_neg (by simp), List.count_eq_zero]
          simp
        · rw [Function.update_of_ne hc, List.count_filter (by simpa using hc)]
          exact h.server.slots c u kind
      members := h.server.members
      owned := h.server.owned }
  keyed := h.keyed
  once := h.once
  stamped := h.stamped
  sorted := h.sorted

/-- One that has gone has no user whose channels would have to be there. -/
theorem follower_onDisconnected (h : Follower k x.server conn settled) (gone : Nat) :
    Follower k (x.onDisconnected gone).server conn settled := by
  obtain ⟨session, hsettled, habreast⟩ := h
  refine ⟨session, hsettled, habreast.order, fun u user hauth hu => ?_⟩
  change Function.update x.server.authenticatedUser gone none conn = some u at hauth
  by_cases hc : conn = gone
  · rw [hc, Function.update_self] at hauth
    cases hauth
  · rw [Function.update_of_ne hc] at hauth
    exact habreast.current u user hauth hu

/-! ## One step -/

/--
What a program does by itself: the server and what is on the way stay as they are, no
socket is connected that was not, and a program whose socket stays so keeps its lists.
-/
structure Inward [Qt] (w w' : Parties) : Prop where
  tcp : w'.tcp = w.tcp
  frames : w'.frames = w.frames
  programs : ∀ p b, (w'.party p).state = .ok b → ∃ a, (w.party p).state = .ok a
    ∧ (a = b ∨ ∃ event m, Desktops.isClick event ∧ a.react event = some (.ok (b, m)))
  sockets : ∀ p conn, (w'.party p).socket = .connected conn →
    (w.party p).socket = .connected conn
      ∧ ∀ b, (w'.party p).state = .ok b → ∃ a, (w.party p).state = .ok a
        ∧ b.session.channelMessages = a.session.channelMessages

theorem put_party (w : Parties) (p : Nat) (y : Party) (q : Nat) :
    (w.put p y).party q = if q = p then y else w.party q :=
  Function.update_apply _ _ _ _

theorem inward_put [Qt] {y : Party}
    (hprogram : ∀ b, y.state = .ok b → ∃ a, (w.party p).state = .ok a
      ∧ (a = b ∨ ∃ event m, Desktops.isClick event ∧ a.react event = some (.ok (b, m))))
    (hsocket : ∀ conn, y.socket = .connected conn → (w.party p).socket = .connected conn
      ∧ ∀ b, y.state = .ok b → ∃ a, (w.party p).state = .ok a
        ∧ b.session.channelMessages = a.session.channelMessages) : Inward w (w.put p y) where
  tcp := rfl
  frames := rfl
  programs q b hb := by
    rw [put_party] at hb
    split at hb
    · rename_i hq
      exact hq ▸ hprogram b hb
    · exact ⟨b, hb, Or.inl rfl⟩
  sockets q conn hconn := by
    rw [put_party] at hconn ⊢
    split
    · rename_i hq
      rw [if_pos hq] at hconn
      exact hq ▸ hsocket conn hconn
    · rename_i hq
      rw [if_neg hq] at hconn
      exact ⟨hconn, fun b hb => ⟨b, hb, rfl⟩⟩

/-- Writing changes no program, and no socket that is connected. -/
theorem write_party (w : Parties) (p : Nat) (m : Option RequestMessage) (q : Nat) :
    ((w.write p m).party q).state = (w.party q).state
      ∧ ∀ conn, ((w.write p m).party q).socket = .connected conn →
        (w.party q).socket = .connected conn := by
  unfold Parties.write
  split
  · exact ⟨rfl, fun _ => id⟩
  · rw [put_party]
    split
    · rename_i hq
      exact ⟨by rw [hq], fun conn hconn => nomatch hconn⟩
    · exact ⟨rfl, fun _ => id⟩
  · exact ⟨rfl, fun _ => id⟩

theorem inward_write [Qt] (h : Inward w w') (p : Nat) (m : Option RequestMessage) :
    Inward w (w'.write p m) where
  tcp := by
    rw [← h.tcp]
    unfold Parties.write
    split <;> rfl
  frames := by
    rw [← h.frames]
    unfold Parties.write
    split <;> rfl
  programs q b hb := h.programs q b ((write_party w' p m q).1 ▸ hb)
  sockets q conn hconn := by
    obtain ⟨hstate, hsocket⟩ := write_party w' p m q
    rw [hstate]
    exact h.sockets q conn (hsocket conn hconn)

/-- What a click leads to: the end of the program, or a program and a request or none. -/
theorem parties_click_cases [Qt] (h : w.click p event = some w') :
    ∃ a, (w.party p).state = .ok a
      ∧ ((∃ fault, w' = w.put p (.after (w.party p).socket (.error fault)))
        ∨ ∃ b m socket, a.react event = some (.ok (b, m))
          ∧ (∀ conn, socket = .connected conn → Desktops.disconnects event = false
            ∧ (w.party p).socket = .connected conn)
          ∧ w' = (w.put p (.after socket (.ok b))).write p m) := by
  unfold Parties.click at h
  split at h
  · cases h
  · rename_i a hstate
    obtain ⟨result, hreact, hw⟩ := Option.map_eq_some_iff.mp h
    cases result with
    | error fault => exact ⟨a, hstate, Or.inl ⟨fault, hw.symm⟩⟩
    | ok r =>
        refine ⟨a, hstate, Or.inr ⟨r.1, r.2, _, hreact, fun conn hconn => ?_, hw.symm⟩⟩
        split at hconn
        · unfold TcpClient.disconnectFromServer at hconn
          split at hconn <;> cases hconn
        · rename_i hstays
          exact ⟨Bool.not_eq_true _ ▸ hstays, hconn⟩

/-- A click that leaves the socket connected changes no list. -/
theorem inward_click [Qt] (hclick : Desktops.isClick event) (h : w.click p event = some w') :
    Inward w w' := by
  obtain ⟨a, hstate, ⟨fault, rfl⟩ | ⟨b, m, socket, hreact, hsocket, rfl⟩⟩ :=
    parties_click_cases h
  · exact inward_put (fun b hb => nomatch hb) fun conn hconn => nomatch hconn
  · refine inward_write (inward_put (fun b' hb' => ?_) fun conn hconn => ?_) p m
    · cases hb'
      exact ⟨a, hstate, Or.inr ⟨event, m, hclick, hreact⟩⟩
    · obtain ⟨hstays, hold⟩ := hsocket conn hconn
      refine ⟨hold, fun b' hb' => ?_⟩
      cases hb'
      have hshut : shut b.session = shut a.session := by
        refine shut_of_turn (turn_of_react hreact) hclick ?_
        rintro rfl
        cases hstays
      exact ⟨a, hstate, show (shut b.session).channelMessages = _ by rw [hshut]; rfl⟩

/-- What happens at a program's end only. -/
def AtProgram : Parties.Event → Prop
  | .submit _ | .click .. | .lost _ => True
  | _ => False

/-- The steps, by what they are to the server and to what is on the way. -/
inductive Moves [External] [Qt] (w : Parties) : Parties.Event → Parties → Prop where
  | inward {step : Parties.Event} {w' : Parties} (hstep : AtProgram step) (h : Inward w w') :
      Moves w step w'
  | accepted (p : Nat) (written : List RequestMessage) (pendingClose : Bool) :
      Moves w (.connected p) (w.accept p written pendingClose)
  | handled {conn : Nat} {draws : Draws} {call : Server.Call} {server : Server}
      (hcall : w.call conn draws = some call) (hconn : call.conn ∈ w.tcp.handlers)
      (hserver : w.tcp.server.step call = some server) :
      Moves w (.handle conn draws)
        { w with
          tcp := { w.tcp with server }
          requests := Function.update w.requests conn (w.requests conn).tail
          frames := fun c => w.frames c ++ framesFor c (w.tcp.server.receive call).written }
  | crashed {conn : Nat} {draws : Draws} {call : Server.Call} {server : Server}
      {written : List (Nat × Response)}
      (hcall : w.call conn draws = some call) (hconn : call.conn ∈ w.tcp.handlers)
      (hserver : w.tcp.server.step call = some server)
      (hwritten : written ⊆ (w.tcp.server.receive call).written) :
      Moves w (.handle conn draws)
        (Parties.crash
          { w with
            tcp := { w.tcp with server }
            requests := Function.update w.requests conn (w.requests conn).tail
            frames := fun c => w.frames c ++ framesFor c written })
  | delivered {p conn : Nat} {a : Application} {r : Response} {rs : List Response}
      (hsocket : (w.party p).socket = .connected conn) (hstate : (w.party p).state = .ok a)
      (hframes : w.frames conn = r :: rs) :
      Moves w (.deliver p)
        { w.put p (.after (.connected conn) (a.receive r)) with
          frames := Function.update w.frames conn rs }
  | ended (conn : Nat) : Moves w (.ended conn) { w with tcp := w.tcp.onDisconnected conn }

/-- A handler that comes back has written all it writes. -/
theorem written_of_survives [External] {conn : Nat} {m : RequestMessage} {draws : Draws}
    (h : w.survives conn m draws = true) :
    w.written conn m draws = (w.tcp.server.receive ⟨conn, m.request, draws⟩).written := by
  unfold Parties.survives at h
  simp only [Bool.and_eq_true, List.all_eq_true] at h
  obtain ⟨⟨hprints, -⟩, hall⟩ := h
  rw [Parties.written, if_pos hprints, List.takeWhile_eq_self_iff]
  exact hall

/-- And one that does not, no more than that. -/
theorem written_subset [External] (w : Parties) (conn : Nat) (m : RequestMessage)
    (draws : Draws) :
    w.written conn m draws ⊆ (w.tcp.server.receive ⟨conn, m.request, draws⟩).written := by
  rw [Parties.written]
  split
  · exact (List.takeWhile_prefix _).subset
  · exact List.nil_subset _

/-- **Every step is one of these.** -/
theorem moves_of_step [External] [Qt] {step : Parties.Event} (hs : w.step step = some w') :
    Moves w step w' := by
  cases step with
  | submit p =>
      unfold Parties.step at hs
      dsimp only at hs
      split at hs
      · cases hs
      · rename_i a hstate
        cases hs
        refine .inward trivial (inward_put (fun b hb => ?_) fun conn hconn => ?_)
        · cases hb
          exact ⟨a, hstate, Or.inl rfl⟩
        · refine ⟨?_, fun b hb => ?_⟩
          · change TcpClient.connectToServer (w.party p).socket = .connected conn at hconn
            unfold TcpClient.connectToServer at hconn
            split at hconn
            · cases hconn
            · exact hconn
          · cases hb
            exact ⟨a, hstate, rfl⟩
  | connected p =>
      unfold Parties.step at hs
      dsimp only at hs
      split at hs
      · split at hs
        · cases hs
          exact .accepted p _ _
        · cases hs
      · cases hs
      · cases hs
  | click p event =>
      unfold Parties.step at hs
      dsimp only at hs
      split at hs
      · rename_i hclick
        exact .inward trivial (inward_click hclick hs)
      · cases hs
  | handle conn draws =>
      obtain ⟨m, hm, hs⟩ := Option.bind_eq_some_iff.mp hs
      obtain ⟨tcp, htcp, hs⟩ := Option.bind_eq_some_iff.mp hs
      have hcall : w.call conn draws = some ⟨conn, m.request, draws⟩ := by
        unfold Parties.call
        rw [hm]
        rfl
      unfold TcpServer.step at htcp
      dsimp only at htcp hs
      split at htcp
      · rename_i hconn
        obtain ⟨server, hserver, rfl⟩ := Option.map_eq_some_iff.mp htcp
        cases hs
        split
        · rename_i hsurvives
          rw [written_of_survives hsurvives]
          exact .handled hcall hconn hserver
        · exact .crashed hcall hconn hserver (written_subset w conn m draws)
      · cases htcp
  | deliver p =>
      unfold Parties.step at hs
      dsimp only at hs
      split at hs
      · rename_i conn a hsocket hstate
        split at hs
        · cases hs
        · rename_i r rs hframes
          cases hs
          exact .delivered hsocket hstate hframes
      · cases hs
  | lost p =>
      cases hs
      exact .inward trivial (inward_put (fun b hb => ⟨b, hb, Or.inl rfl⟩)
        fun conn hconn => nomatch hconn)
  | ended conn =>
      obtain ⟨tcp, htcp, rfl⟩ := Option.map_eq_some_iff.mp hs
      unfold TcpServer.step at htcp
      dsimp only at htcp
      split at htcp
      · cases htcp
        exact .ended conn
      · cases htcp

/-! ## Connections and their numbers -/

/-- A connection has one program at its end, and a number that is still to come has done nothing. -/
structure Wired (w : Parties) : Prop where
  handlers : ∀ conn ∈ w.tcp.handlers, conn < w.tcp.accepted
  untouched : ∀ conn, w.tcp.accepted ≤ conn → w.tcp.server.authenticatedUser conn = none
  sockets : ∀ p conn, (w.party p).socket = .connected conn → conn < w.tcp.accepted
  apart : ∀ p q conn, (w.party p).socket = .connected conn →
    (w.party q).socket = .connected conn → p = q

theorem wired_init : Wired .new where
  handlers _ hconn := absurd hconn List.not_mem_nil
  untouched _ _ := rfl
  sockets _ _ hsocket := nomatch hsocket
  apart _ _ _ hsocket := nomatch hsocket

/-- The program that has been waiting has the new connection, or no connection. -/
theorem accept_socket {written : List RequestMessage} {pendingClose : Bool}
    (h : ((w.accept p written pendingClose).party q).socket = .connected conn) :
    (q = p ∧ conn = w.tcp.accepted) ∨ (q ≠ p ∧ (w.party q).socket = .connected conn) := by
  change (Function.update w.party p _ q).socket = _ at h
  by_cases hq : q = p
  · rw [hq, Function.update_self] at h
    dsimp only at h
    split at h
    · cases h
    · cases h
      exact Or.inl ⟨hq, rfl⟩
  · rw [Function.update_of_ne hq] at h
    exact Or.inr ⟨hq, h⟩

/-- The program that has taken in a frame has the connection it had, or has ended. -/
theorem delivered_socket {r : Response} (hsocket : (w.party p).socket = .connected conn)
    {c : Nat} (h : ((w.put p (.after (.connected conn) (a.receive r))).party q).socket
      = .connected c) : (w.party q).socket = .connected c := by
  rw [put_party] at h
  split at h
  · rename_i hq
    rw [hq, hsocket]
    cases hreceive : a.receive r with
    | error fault =>
        rw [hreceive] at h
        cases h
    | ok b =>
        rw [hreceive] at h
        exact h
  · exact h

theorem wired_step [External] [Qt] {step : Parties.Event} (h : Wired w)
    (hs : w.step step = some w') : Wired w' := by
  cases moves_of_step hs with
  | inward _ hin =>
      obtain ⟨htcp, -, -, hsockets⟩ := hin
      refine ⟨?_, ?_, fun p conn hp => ?_, fun p q conn hp hq => ?_⟩
      · rw [htcp]
        exact h.handlers
      · rw [htcp]
        exact h.untouched
      · rw [htcp]
        exact h.sockets p conn (hsockets p conn hp).1
      · exact h.apart p q conn (hsockets p conn hp).1 (hsockets q conn hq).1
  | accepted p written pendingClose =>
      -- the number of the new handler is above all that there have been
      refine ⟨fun conn hconn => ?_, fun conn hconn => ?_, fun q conn hq => ?_,
        fun q q' conn hq hq' => ?_⟩
      · rcases List.mem_cons.mp hconn with rfl | hold
        · exact Nat.lt_succ_self _
        · exact Nat.lt_succ_of_lt (h.handlers conn hold)
      · have hle : w.tcp.accepted < conn := hconn
        exact (Function.update_of_ne (Nat.ne_of_gt hle) _ _).trans
          (h.untouched conn (Nat.le_of_lt hle))
      · obtain ⟨-, rfl⟩ | ⟨-, hold⟩ := accept_socket hq
        · exact Nat.lt_succ_self _
        · exact Nat.lt_succ_of_lt (h.sockets q conn hold)
      · obtain ⟨rfl, rfl⟩ | ⟨-, hold⟩ := accept_socket hq
        · obtain ⟨rfl, -⟩ | ⟨-, hold'⟩ := accept_socket hq'
          · rfl
          · exact absurd (h.sockets q' _ hold') (Nat.lt_irrefl _)
        · obtain ⟨-, rfl⟩ | ⟨-, hold'⟩ := accept_socket hq'
          · exact absurd (h.sockets q _ hold) (Nat.lt_irrefl _)
          · exact h.apart q q' conn hold hold'
  | @handled conn draws call server hcall hconn hserver =>
      refine ⟨h.handlers, fun c hc => ?_, h.sockets, h.apart⟩
      have hlt := h.handlers _ hconn
      have hle : w.tcp.accepted ≤ c := hc
      exact ((touched_of_step hserver).1 c (by omega)).trans (h.untouched c hc)
  | crashed hcall hconn hserver =>
      refine ⟨fun c hc => absurd hc List.not_mem_nil, fun c hc => ?_, h.sockets, h.apart⟩
      have hlt := h.handlers _ hconn
      have hle : w.tcp.accepted ≤ c := hc
      exact ((touched_of_step hserver).1 c (by omega)).trans (h.untouched c hc)
  | delivered hsocket hstate hframes =>
      exact ⟨h.handlers, h.untouched,
        fun q c hq => h.sockets q c (delivered_socket hsocket hq),
        fun q q' c hq hq' => h.apart q q' c (delivered_socket hsocket hq)
          (delivered_socket hsocket hq')⟩
  | ended conn =>
      refine ⟨fun c hc => h.handlers c (List.mem_filter.mp hc).1, fun c hc => ?_, h.sockets,
        h.apart⟩
      show Function.update w.tcp.server.authenticatedUser conn none c = none
      rw [Function.update_apply]
      split
      · rfl
      · exact h.untouched c hc

/-! ## The deployment behind the connections -/

/-- A client that has the same on the way to it and whose session the program's remembers. -/
structure Behind (client : Inbox Exn Session Response) (frames : List Response)
    (state : Except Fault Application) : Prop where
  queue : client.queue = frames
  session : ∀ a, state = .ok a → ∃ g, client.state = .ok g ∧ Remembers a.session g

/-- Behind each connection that both ends have, a client that began when the connection did. -/
structure Shadowed (k : Int) (w : Parties) (e : Deployment) : Prop where
  followed : FollowedInv k e
  server : e.server = w.tcp.server
  clients : ∀ p conn, (w.party p).socket = .connected conn → conn ∈ w.tcp.handlers →
    Behind (e.clients conn) (w.frames conn) (w.party p).state

variable {e : Deployment}

theorem shadowed_inward [Qt] (h : Shadowed k w e) (hin : Inward w w') : Shadowed k w' e where
  followed := h.followed
  server := by rw [hin.tcp, h.server]
  clients p conn hsocket hconn := by
    obtain ⟨hold, hlists⟩ := hin.sockets p conn hsocket
    have hbehind := h.clients p conn hold (hin.tcp ▸ hconn)
    refine ⟨by rw [hin.frames, hbehind.queue], fun b hb => ?_⟩
    obtain ⟨a, ha, hsame⟩ := hlists b hb
    obtain ⟨g, hg, hremembers⟩ := hbehind.session a ha
    exact ⟨g, hg, fun c ms hms => by rw [hsame]; exact hremembers c ms hms⟩

/-- A new handler, and a new client. -/
theorem shadowed_accept (h : Shadowed k w e) (hw : Wired w) (p : Nat)
    (written : List RequestMessage) (pendingClose : Bool) :
    ∃ e', Shadowed k (w.accept p written pendingClose) e' := by
  have hnone := hw.untouched _ (Nat.le_refl _)
  have hserver : w.tcp.incomingConnection.server = w.tcp.server := by
    unfold TcpServer.incomingConnection
    dsimp only
    rw [Function.update_eq_self_iff.mpr hnone.symm]
  refine ⟨⟨e.server, Function.update e.clients w.tcp.accepted ⟨.ok .new, []⟩⟩,
    ⟨h.followed.store, fun conn => ?_⟩, h.server.trans hserver.symm, fun q conn hq hconn => ?_⟩
  · dsimp only
    by_cases hc : conn = w.tcp.accepted
    · subst hc
      rw [Function.update_self]
      refine ⟨.new, rfl, inOrder_new, fun u user hauth _ => ?_⟩
      rw [h.server, hnone] at hauth
      cases hauth
    · rw [Function.update_of_ne hc]
      exact h.followed.clients conn
  · show Behind (Function.update e.clients w.tcp.accepted ⟨.ok .new, []⟩ conn)
      (Function.update w.frames w.tcp.accepted [] conn) _
    obtain ⟨-, rfl⟩ | ⟨hne, hold⟩ := accept_socket hq
    · rw [Function.update_self, Function.update_self]
      exact ⟨rfl, fun a _ => ⟨.new, rfl, fun c ms hms => nomatch hms⟩⟩
    · have hc : conn ≠ w.tcp.accepted := Nat.ne_of_lt (hw.sockets q conn hold)
      have hparty : (w.accept p written pendingClose).party q = w.party q :=
        Function.update_of_ne hne _ _
      rw [Function.update_of_ne hc, Function.update_of_ne hc, hparty]
      exact h.clients q conn hold ((List.mem_cons.mp hconn).resolve_left hc)

theorem shadowed_handled [External] (h : Shadowed k w e) (conn : Nat) {call : Server.Call}
    {server : Server} (hg : Ordinary k w.tcp.server call)
    (hserver : w.tcp.server.step call = some server) :
    ∃ e', Shadowed k
      { w with
        tcp := { w.tcp with server }
        requests := Function.update w.requests conn (w.requests conn).tail
        frames := fun c => w.frames c ++ framesFor c (w.tcp.server.receive call).written } e' := by
  obtain ⟨server₀, clients⟩ := e
  obtain rfl : server₀ = w.tcp.server := h.server
  have hstep : Deployment.step ⟨w.tcp.server, clients⟩ (.request call) = some
      ⟨server, fun c => (clients c).send (framesFor c (w.tcp.server.receive call).written)⟩ := by
    show (w.tcp.server.step call).map _ = _
    rw [hserver]
    rfl
  have hguard : Deployment.Calls (Ordinary k) ⟨w.tcp.server, clients⟩ (.request call) := hg
  refine ⟨_, followedInv_step h.followed hguard hstep, rfl, fun p c hsocket hconn => ?_⟩
  have hbehind := h.clients p c hsocket hconn
  exact ⟨congrArg (· ++ _) hbehind.queue, hbehind.session⟩

/-- A frame that a program takes in is taken in by the client behind it. -/
theorem behind_received {client : Inbox Exn Session Response} {r : Response} {rs : List Response}
    {s : Server} (h : Behind client (r :: rs) (.ok a))
    (hfollower : Follower k s conn (client.settled Session.handle)) :
    ∃ client', client.deliver Session.handle = some client' ∧ Behind client' rs (a.receive r) := by
  obtain ⟨g, hg, hremembers⟩ := h.session a rfl
  have hdeliver : client.deliver Session.handle = some ⟨g.handle r, rs⟩ := by
    rw [Inbox.deliver_cons _ h.queue, hg]
    rfl
  refine ⟨_, hdeliver, rfl, fun b hreceive => ?_⟩
  -- what the client will come to is a session, so this is one
  obtain ⟨session, hsettled, -⟩ := hfollower
  rw [← Inbox.settled_deliver _ hdeliver] at hsettled
  cases hhandle : g.handle r with
  | error ex =>
      rw [hhandle] at hsettled
      cases hsettled
  | ok g' => exact ⟨g', rfl, remembers_handle hremembers (session_of_receive hreceive) hhandle⟩

theorem after_state (socket : Socket) (state : Except Fault Application) :
    (Party.after socket state).state = state := by
  cases state <;> rfl

theorem shadowed_delivered [External] (h : Shadowed k w e) (hw : Wired w) {r : Response}
    {rs : List Response} (hsocket : (w.party p).socket = .connected conn)
    (hstate : (w.party p).state = .ok a) (hframes : w.frames conn = r :: rs) :
    ∃ e', Shadowed k
      { w.put p (.after (.connected conn) (a.receive r)) with
        frames := Function.update w.frames conn rs } e' := by
  -- the other connections have other programs
  have hothers : ∀ q c, (w.party q).socket = .connected c → c ≠ conn → q ≠ p := by
    rintro q c hq hne rfl
    rw [hsocket] at hq
    cases hq
    exact hne rfl
  have hstays : ∀ q c, (w.party q).socket = .connected c → c ≠ conn → c ∈ w.tcp.handlers →
      Behind (e.clients c) (Function.update w.frames conn rs c)
        ((w.put p (.after (.connected conn) (a.receive r))).party q).state := by
    intro q c hq hne hc
    rw [Function.update_of_ne hne, put_party, if_neg (hothers q c hq hne)]
    exact h.clients q c hq hc
  by_cases hconn : conn ∈ w.tcp.handlers
  · have hbehind := h.clients p conn hsocket hconn
    rw [hframes, hstate] at hbehind
    obtain ⟨client', hdeliver, hbehind'⟩ := behind_received hbehind (h.followed.clients conn)
    have hstep : e.step (.deliver conn)
        = some { e with clients := Function.update e.clients conn client' } := by
      show ((e.clients conn).deliver Session.handle).map _ = _
      rw [hdeliver]
      rfl
    have hguard : Deployment.Calls (Ordinary k) e (.deliver conn) := trivial
    refine ⟨_, followedInv_step h.followed hguard hstep, h.server, fun q c hq hc => ?_⟩
    have hold := delivered_socket hsocket hq
    show Behind (Function.update e.clients conn client' c) (Function.update w.frames conn rs c) _
    by_cases heq : c = conn
    · subst heq
      obtain rfl := hw.apart q p c hold hsocket
      rw [Function.update_self, Function.update_self]
      dsimp only
      rw [put_party, if_pos rfl, after_state]
      exact hbehind'
    · rw [Function.update_of_ne heq]
      exact hstays q c hold heq hc
  · refine ⟨e, h.followed, h.server, fun q c hq hc => ?_⟩
    refine hstays q c (delivered_socket hsocket hq) ?_ hc
    rintro rfl
    exact hconn hc

theorem shadowed_ended (h : Shadowed k w e) (conn : Nat) :
    ∃ e', Shadowed k { w with tcp := w.tcp.onDisconnected conn } e' := by
  have hstore : LastingInv k w.tcp.server := h.server ▸ h.followed.store
  refine ⟨⟨(w.tcp.onDisconnected conn).server, e.clients⟩,
    ⟨lastingInv_onDisconnected hstore conn, fun c => ?_⟩, rfl, fun p c hsocket hc => ?_⟩
  · exact follower_onDisconnected (h.server ▸ h.followed.clients c) conn
  · exact h.clients p c hsocket (List.mem_filter.mp hc).1

/-- No handler is left behind whose connection there would be a client. -/
theorem shadowed_crash (h : Shadowed k w e) (hserver : w'.tcp.server = w.tcp.server) :
    Shadowed k w'.crash e where
  followed := h.followed
  server := h.server.trans hserver.symm
  clients _ _ _ hconn := absurd hconn List.not_mem_nil

/-- **Preserved by every step.** -/
theorem shadowed_step [External] [Qt] {step : Parties.Event} (hw : Wired w)
    (h : Shadowed k w e) (hg : Parties.Calls (Ordinary k) w step) (hs : w.step step = some w') :
    ∃ e', Shadowed k w' e' := by
  cases moves_of_step hs with
  | inward _ hin => exact ⟨e, shadowed_inward h hin⟩
  | accepted p written pendingClose => exact shadowed_accept h hw p written pendingClose
  | handled hcall hconn hserver => exact shadowed_handled h _ (hg _ hcall) hserver
  | @crashed conn _ _ _ _ hcall hconn hserver =>
      obtain ⟨e', h'⟩ := shadowed_handled h conn (hg _ hcall) hserver
      exact ⟨e', shadowed_crash h' rfl⟩
  | delivered hsocket hstate hframes => exact shadowed_delivered h hw hsocket hstate hframes
  | ended conn => exact shadowed_ended h conn

theorem shadowed_reachable [External] [Qt]
    (h : Parties.system.Reachable (Parties.Calls (Ordinary k)) w) :
    Wired w ∧ ∃ e, Shadowed k w e := by
  refine h.invariant (P := fun w => Wired w ∧ ∃ e, Shadowed k w e) ⟨wired_init, .new, ?_⟩ ?_
  · exact ⟨followedInv_init, rfl, fun p conn hsocket => nomatch hsocket⟩
  · rintro w step w' - ⟨hw, e, hshadowed⟩ hg hs
    exact ⟨wired_step hw hs, shadowed_step hw hshadowed hg hs⟩

/-! ## The programs -/

/-- What the screens are, with the deletions that are on the way. -/
structure PartiesInv [Qt] (k : Int) (w : Parties) : Prop where
  viewed : ∀ p a, (w.party p).state = .ok a → Viewed k w.tcp.server.db a
  announced : ∀ conn m, Response.deleteMessage (.ok m) ∈ w.frames conn →
    Departed k w.tcp.server.db m.snowflake

theorem partiesInv_init [Qt] : PartiesInv k .new where
  viewed p a h := by
    cases h
    exact ⟨.init, fun c ms hc => nomatch hc⟩
  announced conn m h := absurd h List.not_mem_nil

/-- Whether a handler comes back or not: a deletion that it has announced has been made. -/
theorem partiesInv_handled [External] [Qt] {call : Server.Call} {server : Server}
    {written : List (Nat × Response)} (hstore : LastingInv k w.tcp.server) (h : PartiesInv k w)
    (hg : Ordinary k w.tcp.server call) (hserver : w.tcp.server.step call = some server)
    (hparty : ∀ p, w'.party p = w.party p) (hdone : w'.tcp.server = server)
    (hwritten : written ⊆ (w.tcp.server.receive call).written)
    (hframes : ∀ c, w'.frames c = w.frames c ++ framesFor c written) : PartiesInv k w' := by
  have hstays : ∀ t, Departed k w.tcp.server.db t → Departed k w'.tcp.server.db t := by
    rw [hdone]
    exact fun t ht => departed_step hg hserver ht
  refine ⟨fun p a ha => ?_, fun conn m hm => ?_⟩
  · rw [hparty] at ha
    exact viewed_mono hstays (h.viewed p a ha)
  · rw [hframes] at hm
    rcases List.mem_append.mp hm with hold | hnew
    · exact hstays _ (h.announced conn m hold)
    · rw [hdone, ← receive_of_step hserver]
      exact departed_of_written hstore (hwritten (mem_framesFor.mp hnew))

/-- **Preserved by every step.** -/
theorem partiesInv_step [External] [Qt] {step : Parties.Event}
    (hstore : LastingInv k w.tcp.server) (h : PartiesInv k w)
    (hg : Parties.Calls (Ordinary k) w step) (hs : w.step step = some w') : PartiesInv k w' := by
  cases moves_of_step hs with
  | inward _ hin =>
      refine ⟨fun p b hb => ?_, fun conn m hm => ?_⟩
      · rw [hin.tcp]
        obtain ⟨a, ha, rfl | ⟨event, m, hclick, hreact⟩⟩ := hin.programs p b hb
        · exact h.viewed p a ha
        · refine viewed_react (h.viewed p a ha) hreact ?_
          rintro m rfl
          cases hclick
      · rw [hin.frames] at hm
        rw [hin.tcp]
        exact h.announced conn m hm
  | accepted p written pendingClose =>
      refine ⟨fun q a ha => h.viewed q a ?_, fun conn m hm => h.announced conn m ?_⟩
      · change (Function.update w.party p _ q).state = _ at ha
        rw [Function.update_apply] at ha
        split at ha
        · rename_i hq
          rw [hq]
          exact ha
        · exact ha
      · change _ ∈ Function.update w.frames w.tcp.accepted [] conn at hm
        rw [Function.update_apply] at hm
        split at hm
        · exact absurd hm List.not_mem_nil
        · exact hm
  | handled hcall hconn hserver =>
      exact partiesInv_handled hstore h (hg _ hcall) hserver (fun _ => rfl) rfl
        (List.Subset.refl _) fun _ => rfl
  | crashed hcall hconn hserver hwritten =>
      exact partiesInv_handled hstore h (hg _ hcall) hserver (fun _ => rfl) rfl hwritten
        fun _ => rfl
  | @delivered p conn a r rs hsocket hstate hframes =>
      refine ⟨fun q b hb => ?_, fun c m hm => h.announced c m ?_⟩
      · dsimp only at hb
        rw [put_party] at hb
        split at hb
        · rw [after_state] at hb
          have hreact : a.react (.received r) = some (.ok (b, none)) := by
            show some ((a.receive r).map fun b => (b, none)) = _
            rw [hb]
            rfl
          refine viewed_react (h.viewed p a hstate) hreact ?_
          rintro m ⟨⟩
          exact h.announced conn m (hframes ▸ List.mem_cons_self)
        · exact h.viewed q b hb
      · dsimp only at hm
        rw [Function.update_apply] at hm
        split at hm
        · rename_i hc
          rw [hc, hframes]
          exact List.mem_cons_of_mem r hm
        · exact hm
  | ended conn => exact ⟨h.viewed, h.announced⟩

theorem partiesInv_reachable [External] [Qt]
    (h : Parties.system.Reachable (Parties.Calls (Ordinary k)) w) : PartiesInv k w := by
  refine h.invariant (P := PartiesInv k) partiesInv_init ?_
  intro w step w' hreach hinv hg hs
  obtain ⟨-, e, hshadowed⟩ := shadowed_reachable hreach
  exact partiesInv_step (hshadowed.server ▸ hshadowed.followed.store) hinv hg hs

/-! ## The result -/

/--
**The open chat outlives connections.** Users click what they like, connect and disconnect
when they like and log in as whom they like, either end of a connection may find it ended,
and the server handles any ordinary requests. Whenever a program is connected to a handler
that is there, whose user is registered, and nothing is on the way to it: the chat that is
open, if it is one of the user's, shows the messages of that channel in ascending order,
each as the server stores it if it does; what the server's history has and the screen has
not is gone, and so is what the screen has and the history has not. Nothing of a former
connection is on it twice, or instead.
-/
theorem open_chat_outlives_connections [External] [Qt]
    (h : Parties.system.Reachable (Parties.Calls (Ordinary k)) w) {u c : UUID} {user : User}
    (hsocket : (w.party p).socket = .connected conn) (hconn : conn ∈ w.tcp.handlers)
    (hauth : w.tcp.server.authenticatedUser conn = some u)
    (hu : w.tcp.server.db.users.lookup u = some user) (hframes : w.frames conn = [])
    (hstate : (w.party p).state = .ok a) (hopen : a.session.openChannel = some c)
    (hc : c ∈ user.channels) :
    ∃ ch, w.tcp.server.db.channels.lookup c = some ch
      ∧ (onScreen a.chatArea).Pairwise (· < ·)
      ∧ (∀ t ∈ ch.messageSnowflakes, t ∈ onScreen a.chatArea ∨ Gone w.tcp.server.db t)
      ∧ ∀ wid ∈ a.chatArea.messageLayout, wid.message.channelId = c
        ∧ (∀ m, w.tcp.server.db.messages.lookup wid.message.snowflake = some m →
          m = wid.message)
        ∧ (wid.message.snowflake ∉ ch.messageSnowflakes →
          Gone w.tcp.server.db wid.message.snowflake) := by
  have hviewed := (partiesInv_reachable h).viewed p a hstate
  obtain ⟨-, e, hshadowed⟩ := shadowed_reachable h
  obtain ⟨hqueue, hsession⟩ := hshadowed.clients p conn hsocket hconn
  obtain ⟨g, hg, hremembers⟩ := hsession a hstate
  -- nothing is on the way, so the client behind has come to where it is
  obtain ⟨session, hsettled, habreast⟩ := hshadowed.followed.clients conn
  rw [Inbox.settled_of_queue_nil _ (hqueue.trans hframes), hg] at hsettled
  cases hsettled
  rw [hshadowed.server] at habreast
  obtain ⟨ch, ms, hch, hbetween, hgenuine⟩ := between_of_abreast habreast hauth hu hc
    hviewed.reachable hviewed.accounted (hremembers c) hopen
  exact ⟨ch, hch, shows_of_between hbetween hgenuine⟩

/--
Alice registers herself and Bob, logs in, opens a chat with him and says something. She
disconnects where it clears nothing, connects again and logs in once more.
-/
def rejoining : List Parties.Event :=
  [.submit 0, .connected 0,
    .click 0 (.submitRegistration (typed "alice") (typed "Alice") (typed "secret")),
    .handle 0 (.ofByte 1 []), .deliver 0,
    .click 0 (.submitRegistration (typed "bob") (typed "Bob") (typed "secret")),
    .handle 0 (.ofByte 2 []), .deliver 0,
    .click 0 (.submitLogin (typed "alice") (typed "secret")),
    .handle 0 (.ofByte 0 []), .deliver 0,
    .click 0 (.search (typed "bob")), .handle 0 (.ofByte 0 []), .deliver 0,
    .click 0 (.messageUser 0), .handle 0 (.ofByte 7 []), .deliver 0,
    .click 0 (.typeText (typed "hi")), .click 0 .send,
    .handle 0 (.ofByte 0 [epoch + 5]), .deliver 0,
    .click 0 .registrationDisconnect, .ended 0,
    .submit 0, .connected 0,
    .click 0 (.submitLogin (typed "alice") (typed "secret")),
    .handle 1 (.ofByte 0 []), .deliver 0, .deliver 0, .deliver 0]

theorem rejoining_runs :
    ((@Parties.system .sample utf8Qt).exec (Parties.Calls (@Ordinary .sample 0)) .new
      rejoining).isSome := by
  decide +kernel

/-- Where they are then. -/
def rejoiningEnd : Parties :=
  ((@Parties.system .sample utf8Qt).exec (Parties.Calls (@Ordinary .sample 0)) .new
    rejoining).get rejoining_runs

/-- What Alice has said is on her screen once. -/
theorem open_chat_outlives_connections_rejoining :
    ∃ a ch, (rejoiningEnd.party 0).state = .ok a ∧ onScreen a.chatArea = [41951488]
      ∧ rejoiningEnd.tcp.server.db.channels.lookup (.ofByte 7) = some ch
      ∧ ∀ t ∈ ch.messageSnowflakes,
        t ∈ onScreen a.chatArea ∨ Gone rejoiningEnd.tcp.server.db t := by
  have hconnected : (rejoiningEnd.party 0).socket = .connected 1 := by decide +kernel
  have hthere : 1 ∈ rejoiningEnd.tcp.handlers := by decide +kernel
  have hauth : rejoiningEnd.tcp.server.authenticatedUser 1 = some (.ofByte 1) := by decide +kernel
  have hquiet : (rejoiningEnd.frames 1).isEmpty := by decide +kernel
  have hlisted : (rejoiningEnd.tcp.server.db.users.lookup (.ofByte 1)).map (·.channels)
      = some [.ofByte 7] := by decide +kernel
  have hscreen : (rejoiningEnd.party 0).state.toOption.map
      (fun a => (a.session.openChannel, onScreen a.chatArea))
        = some (some (.ofByte 7), [41951488]) := by decide +kernel
  obtain ⟨user, hu, hchannels⟩ := Option.map_eq_some_iff.mp hlisted
  cases hstate : (rejoiningEnd.party 0).state with
  | error fault =>
      rw [hstate] at hscreen
      cases hscreen
  | ok a =>
      rw [hstate] at hscreen
      obtain ⟨hopen, hshown⟩ := Prod.mk.inj (Option.some.inj hscreen)
      obtain ⟨ch, hch, -, hall, -⟩ :=
        @open_chat_outlives_connections 0 rejoiningEnd 0 1 a .sample utf8Qt
          (System.Reachable.exec_get rejoining_runs) _ _ _ hconnected hthere hauth hu
          (List.isEmpty_iff.mp hquiet) hstate hopen (by rw [hchannels]; exact .head _)
      exact ⟨a, ch, rfl, hshown, hch, hall⟩

end SockEtOut.Proof
