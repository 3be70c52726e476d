import SockEtOut.Net.Desktops
import SockEtOut.Proof.Bookkeeping
import SockEtOut.Proof.NothingMissed
import SockEtOut.Proof.Screen

/-!
# What users see of each other

The programs of all users and the server, with everyone clicking at will. Behind it is
the exchange: a click writes a request or none, and the sessions are those of the exchange
but for the chat that is open, which is the user's business.

So the lists of messages are what is known of them, and the screen shows of the open chat's
what deletions have left. A deletion that arrives is of a message that is gone at the
server, and stays so.
-/

namespace SockEtOut.Proof

open Lib System

variable {a b : Application} {event : Application.Event} {d d' : Desktops} {conn : Nat}

/-! ## The exchange behind the programs -/

/-- A session with no chat open. -/
def shut (s : Session) : Session := { s with openChannel := none }

/-- Which chat is open makes no difference to what a response does to the rest. -/
theorem shut_handle {s s' t : Session} {r : Response} (hsame : shut s = shut t)
    (h : s.handle r = .ok s') : ∃ t', t.handle r = .ok t' ∧ shut s' = shut t' := by
  obtain ⟨user, opened, channels, messages⟩ := s
  obtain ⟨user', opened', channels', messages'⟩ := t
  simp only [shut, Session.mk.injEq] at hsame
  -- no handler looks at the channel that is open
  obtain ⟨rfl, -, rfl, rfl⟩ := hsame
  cases r with
  | registerAccount data | listAccounts data =>
      cases h
      exact ⟨_, rfl, rfl⟩
  | login data | deleteAccount data =>
      cases data <;> cases h <;> exact ⟨_, rfl, rfl⟩
  | createChannel data =>
      cases data with
      | error e =>
          cases h
          exact ⟨_, rfl, rfl⟩
      | ok channel =>
          simp only [Session.handle, Session.onCreateChannelResponse] at h ⊢
          cases user with
          | none => cases h
          | some user =>
              cases h
              exact ⟨_, rfl, rfl⟩
  | sendMessage data =>
      cases data with
      | error e =>
          cases h
          exact ⟨_, rfl, rfl⟩
      | ok message =>
          simp only [Session.handle, Session.addMessage] at h ⊢
          split at h
          · cases h
            exact ⟨_, rfl, rfl⟩
          · split at h
            · cases h
            · cases h
              exact ⟨_, rfl, rfl⟩
  | deleteMessage data =>
      cases data with
      | error e =>
          cases h
          exact ⟨_, rfl, rfl⟩
      | ok message =>
          simp only [Session.handle, Session.removeMessage] at h ⊢
          split at h
          · cases h
            exact ⟨_, rfl, rfl⟩
          · split at h
            · cases h
            · cases h
              exact ⟨_, rfl, rfl⟩

/-- Clicks that do not disconnect open chats and do nothing else to the session. -/
theorem shut_of_turn {e e' : Desk} (h : Turn e event e') (hclick : Desktops.isClick event)
    (hstays : event ≠ .disconnect) : shut e'.session = shut e.session := by
  cases h with
  | still | typed => rfl
  | loggedIn | added | removed => cases hclick
  | reset hclears =>
      cases hclears with
      | disconnect => exact absurd rfl hstays
      | deleted => cases hclick
  | opened hopening =>
      cases hopening with
      | created => cases hclick
      | selected => rfl

/-- The session behind what a response has led to. -/
theorem session_of_receive {r : Response} (h : a.receive r = .ok b) :
    a.session.handle r = .ok b.session := by
  replace h := dispatch_of_receive h
  obtain ⟨session, hsession⟩ := handled_of_dispatch h
  unfold Application.dispatch at h
  rw [hsession] at h ⊢
  refine congrArg Except.ok ?_
  cases r with
  | registerAccount data | login data | listAccounts data =>
      cases data <;> cases h <;> rfl
  | deleteAccount data =>
      cases data with
      | error e =>
          cases h
          rfl
      | ok user =>
          cases h
          cases hsession
          rfl
  | createChannel data =>
      cases data with
      | error e =>
          cases h
          rfl
      | ok channel =>
          obtain ⟨c, hc, rfl⟩ := map_eq_ok h
          obtain ⟨chatArea, -, rfl⟩ := map_eq_ok hc
          rfl
  | sendMessage data =>
      cases data with
      | error e =>
          cases h
          rfl
      | ok message =>
          obtain ⟨chatArea, -, rfl⟩ := map_eq_ok h
          rfl
  | deleteMessage data => cases data <;> cases h <;> rfl

/-- What a click leads to: the end of the program, or a program and a request or none. -/
theorem click_cases [Qt] (h : d.click conn event = some d') :
    ∃ a, (d.clients conn).state = .ok a
      ∧ ((∃ fault, d' = d.put conn (.error fault))
        ∨ ∃ b m, a.react event = some (.ok (b, m)) ∧ d' = (d.put conn (.ok b)).write conn m) := by
  unfold Desktops.click at h
  split at h
  · cases h
  · rename_i a hstate
    obtain ⟨result, hreact, hd⟩ := Option.map_eq_some_iff.mp h
    cases result with
    | error fault => exact ⟨a, hstate, Or.inl ⟨fault, hd.symm⟩⟩
    | ok p => exact ⟨a, hstate, Or.inr ⟨p.1, p.2, hreact, hd.symm⟩⟩

/-- The exchange behind the programs, as far as these have not ended. -/
structure Stands (d : Desktops) (x : Exchange) : Prop where
  server : d.server = x.server
  requests : d.requests = x.requests
  queue : ∀ conn, (d.clients conn).queue = (x.clients conn).queue
  session : ∀ conn a, (d.clients conn).state = .ok a →
    ∃ s, (x.clients conn).state = .ok s ∧ shut a.session = shut s

theorem put_queue (d : Desktops) (conn : Nat) (state : Except Fault Application) (c : Nat) :
    ((d.put conn state).clients c).queue = (d.clients c).queue := by
  unfold Desktops.put
  dsimp only
  by_cases hc : c = conn
  · subst hc
    rw [Function.update_self]
  · rw [Function.update_of_ne hc]

/-- The program at a connection, after it has been replaced at one. -/
theorem put_state {state : Except Fault Application} {c : Nat}
    (h : ((d.put conn state).clients c).state = .ok a) :
    (c = conn ∧ state = .ok a) ∨ (c ≠ conn ∧ (d.clients c).state = .ok a) := by
  unfold Desktops.put at h
  dsimp only at h
  by_cases hc : c = conn
  · subst hc
    rw [Function.update_self] at h
    exact Or.inl ⟨rfl, h⟩
  · rw [Function.update_of_ne hc] at h
    exact Or.inr ⟨hc, h⟩

theorem stands_put {x : Exchange} {state : Except Fault Application} (h : Stands d x)
    (hstate : ∀ b, state = .ok b → ∃ s, (x.clients conn).state = .ok s ∧ shut b.session = shut s) :
    Stands (d.put conn state) x where
  server := h.server
  requests := h.requests
  queue c := (put_queue d conn state c).trans (h.queue c)
  session c b hb := by
    obtain ⟨rfl, hput⟩ | ⟨-, hold⟩ := put_state hb
    · exact hstate b hput
    · exact h.session c b hold

/-- A click is a message that is written, or nothing. -/
theorem stands_click [External] [Qt] {x : Exchange} (h : Stands d x)
    (hclick : Desktops.isClick event) (hstays : event ≠ .disconnect)
    (hs : d.click conn event = some d') {K : Server → Server.Call → Prop} :
    ∃ x', (Exchange.system.resume x).Reachable (Exchange.Calls K) x' ∧ Stands d' x' := by
  obtain ⟨a, hstate, ⟨fault, rfl⟩ | ⟨b, m, hreact, rfl⟩⟩ := click_cases hs
  · exact ⟨x, .stay, stands_put h fun b hb => nomatch hb⟩
  · have hput : Stands (d.put conn (.ok b)) x := by
      refine stands_put h fun c hc => ?_
      cases hc
      obtain ⟨s, hsession, hsame⟩ := h.session conn a hstate
      exact ⟨s, hsession, (shut_of_turn (turn_of_react hreact) hclick hstays).trans hsame⟩
    cases m with
    | none =>
        refine ⟨x, .stay, hput.server, ?_, hput.queue, hput.session⟩
        show Function.update d.requests conn (d.requests conn ++ []) = x.requests
        rw [List.append_nil, Function.update_eq_self]
        exact h.requests
    | some m =>
        refine ⟨_, .one (b := .write conn m) trivial rfl, hput.server, ?_, hput.queue,
          hput.session⟩
        show Function.update d.requests conn (d.requests conn ++ [m]) = _
        rw [h.requests]

theorem stands_deliver {x : Exchange} {client : Inbox Fault Application Response}
    (h : Stands d x) (hs : (d.clients conn).deliver Application.receive = some client) :
    ∃ client', (x.clients conn).deliver Session.handle = some client'
      ∧ Stands { d with clients := Function.update d.clients conn client }
        { x with clients := Function.update x.clients conn client' } := by
  obtain ⟨r, rs, hqueue, rfl⟩ := Inbox.deliver_cases _ hs
  refine ⟨_, Inbox.deliver_cons _ ((h.queue conn).symm.trans hqueue), h.server, h.requests,
    fun c => ?_, fun c b hb => ?_⟩
  · dsimp only
    by_cases hc : c = conn
    · rw [hc, Function.update_self, Function.update_self]
    · rw [Function.update_of_ne hc, Function.update_of_ne hc]
      exact h.queue c
  · dsimp only at hb ⊢
    by_cases hc : c = conn
    · subst hc
      rw [Function.update_self] at hb ⊢
      dsimp only at hb ⊢
      cases hstate : (d.clients c).state with
      | error fault =>
          rw [hstate] at hb
          cases hb
      | ok a =>
          rw [hstate] at hb
          obtain ⟨s, hs, hsame⟩ := h.session c a hstate
          obtain ⟨s', hs', hsame'⟩ := shut_handle hsame (session_of_receive hb)
          refine ⟨s', ?_, hsame'⟩
          rw [hs]
          exact hs'
    · rw [Function.update_of_ne hc] at hb ⊢
      exact h.session c b hb

theorem stays_of_calls {K : Server → Server.Call → Prop}
    (hg : Desktops.Calls K d (.click conn event)) : event ≠ .disconnect := by
  rintro rfl
  have hnot : true = false := hg
  cases hnot

/-- **The programs are an exchange**, whose messages come from clicks. -/
theorem desktops_simulate [External] [Qt] (K : Server → Server.Call → Prop) :
    Simulates Desktops.system (Desktops.Calls K) Exchange.system (Exchange.Calls K) Stands where
  init := ⟨rfl, rfl, fun _ => rfl, fun _ _ h => by cases h; exact ⟨.new, rfl, rfl⟩⟩
  step := by
    intro d d' event x _ _ h hg hs
    cases event with
    | click conn event =>
        -- what the click writes is a request there
        have hstays := stays_of_calls hg
        unfold Desktops.system Desktops.step at hs
        dsimp only at hs
        split at hs
        · rename_i hclick
          exact stands_click h hclick hstays hs
        · cases hs
    | handle conn draws =>
        obtain ⟨call, hcall, hs⟩ := Option.bind_eq_some_iff.mp hs
        obtain ⟨server, hserver, hs⟩ := Option.bind_eq_some_iff.mp hs
        cases hs
        have hcall' : x.call conn draws = some call := by
          unfold Exchange.call
          rw [← h.requests]
          exact hcall
        have hg' : Exchange.Calls K x (.handle conn draws) := by
          intro call' hin
          rw [hcall'] at hin
          cases hin
          rw [← h.server]
          exact hg call hcall
        refine ⟨⟨server, Function.update x.requests conn (x.requests conn).tail,
          fun c => (x.clients c).send (framesFor c (x.server.receive call).written)⟩,
          .one hg' ?_, rfl, ?_, fun c => ?_, fun c b hb => ?_⟩
        · show (x.call conn draws).bind _ = _
          rw [hcall']
          show (x.server.step call).bind _ = _
          rw [← h.server, hserver]
          rfl
        · show Function.update d.requests conn (d.requests conn).tail = _
          rw [h.requests]
        · show (d.clients c).queue ++ _ = (x.clients c).queue ++ _
          rw [h.queue c, h.server]
        · exact h.session c b hb
    | deliver conn =>
        obtain ⟨client, hclient, rfl⟩ := Option.map_eq_some_iff.mp hs
        obtain ⟨client', hclient', hstands⟩ := stands_deliver h hclient
        refine ⟨_, .one (b := .deliver conn) trivial ?_, hstands⟩
        show ((x.clients conn).deliver Session.handle).map _ = _
        rw [hclient']
        rfl

/-- The deployment behind the programs, by way of the exchange. -/
theorem desktops_deployed [External] [Qt] (K : Server → Server.Call → Prop) :
    Simulates Desktops.system (Desktops.Calls K) Deployment.system (Deployment.Calls K)
      fun d e => ∃ x, Exchange.system.Reachable (Exchange.Calls K) x ∧ Stands d x ∧ x.Forgets e :=
  (desktops_simulate K).trans (Exchange.simulates K)

/-! ## Deletions -/

variable {k : Int} {db db' : Database} {s s' : Server} {call : Server.Call}

/-- A snowflake that has been issued, and is gone. -/
def Departed (k : Int) (db : Database) (t : UInt64) : Prop :=
  Issued (spanStart k) db.generator t ∧ Gone db t

/-- Nothing departed comes back. -/
theorem departed_step [External] (hg : Ordinary k s call) (hs : s.step call = some s')
    {t : UInt64} (h : Departed k s.db t) : Departed k s'.db t := by
  obtain ⟨hf, hr, -⟩ := asks_of_ordinary hg
  refine db_step (P := fun db => Departed k db t)
    (G := fun db op => db.FreshUids op ∧ ReadingsWithin (spanStart k) op) ?_ h
    (fun op hop => ⟨hf op hop, hr op hop⟩) hs
  intro db db' op h hg he
  exact ⟨issued_effect hg.2 he h.1, gone_effect hg.1 hg.2 he h.1 h.2⟩

/-- What the sweep announces is stored, and of the user who leaves. -/
theorem sender_of_leaveChannels {u : UUID} : ∀ {cs : List UUID} {db : Database} {sig : Signal},
    sig ∈ (db.leaveChannels u cs).2 →
    ∃ t m v, db.messages.lookup t = some m ∧ m.senderId = u ∧ sig = .messageDeleted v m := by
  intro cs
  induction cs with
  | nil => intro db sig h; exact absurd h List.not_mem_nil
  | cons c cs ih =>
      intro db sig h
      rw [Database.leaveChannels] at h
      rcases List.mem_append.mp h with hnow | hlater
      · unfold Database.leaveChannel at hnow
        split at hnow
        · exact absurd hnow List.not_mem_nil
        · obtain ⟨v, -, t, -, m, hm, hsender, rfl⟩ := mem_sweepHistory_emitted hnow
          exact ⟨t, m, v, hm, hsender, rfl⟩
      · obtain ⟨t, m, v, hm, hsender, rfl⟩ := ih hlater
        rw [leaveChannel_frame] at hm
        exact ⟨t, m, v, hm, hsender, rfl⟩

/-- A deleted message is gone when its deletion is announced. -/
theorem departed_of_removeMessage (hinv : LastingInv k s) {t : UInt64} {sig : Signal}
    (h : sig ∈ (s.db.removeMessage t).emitted) :
    ∃ v m, sig = .messageDeleted v m ∧ Departed k (s.db.removeMessage t).db m.snowflake := by
  rcases removeMessage_cases s.db t with ⟨e, heq⟩ | ⟨m, ch, hm, hc, heq⟩
  · rw [heq] at h
    exact absurd h List.not_mem_nil
  · rw [heq] at h ⊢
    obtain ⟨v, -, -, rfl⟩ := mem_notify h
    refine ⟨v, m, rfl, ?_⟩
    rw [hinv.keyed t m hm]
    refine ⟨hinv.stamped t m hm, fun m' hm' => ?_⟩
    dsimp only at hm'
    rw [Table.lookup_erase, if_pos rfl] at hm'
    cases hm'

/-- So are the messages of a user who is removed: their sender is. -/
theorem departed_of_removeUser (hinv : LastingInv k s) {uid : UUID} {sig : Signal}
    (h : sig ∈ (s.db.removeUser uid).emitted) :
    ∃ v m, sig = .messageDeleted v m ∧ Departed k (s.db.removeUser uid).db m.snowflake := by
  cases hu : s.db.users.lookup uid with
  | none =>
      unfold Database.removeUser at h
      rw [hu] at h
      exact absurd h List.not_mem_nil
  | some user =>
      rw [removeUser_some hu] at h ⊢
      obtain ⟨t, m, v, hm, hsender, rfl⟩ := sender_of_leaveChannels h
      refine ⟨v, m, rfl, ?_⟩
      rw [hinv.keyed t m hm]
      refine ⟨hinv.stamped t m hm, fun m' hm' => ?_⟩
      obtain rfl : m = m' := Option.some.inj (hm.symm.trans hm')
      dsimp only
      rw [hsender, Table.lookup_erase, if_pos rfl]

/-- A signal that an operation emits, with the database that it leaves. -/
inductive Emitted (db : Database) : Signal → Database → Prop where
  | channelAdded {uid : UUID} {channelName : Str} {members : List UUID} {sig : Signal}
      (h : sig ∈ (db.addChannel uid channelName members).emitted) :
      Emitted db sig (db.addChannel uid channelName members).db
  | messageAdded {senderUid channelUid : UUID} {text : Str} {readings : List Int} {now : UInt64}
      {sig : Signal} (h : sig ∈ (db.addMessage senderUid channelUid text readings now).emitted) :
      Emitted db sig (db.addMessage senderUid channelUid text readings now).db
  | messageRemoved {t : UInt64} {sig : Signal} (h : sig ∈ (db.removeMessage t).emitted) :
      Emitted db sig (db.removeMessage t).db
  | userRemoved {uid : UUID} {sig : Signal} (h : sig ∈ (db.removeUser uid).emitted) :
      Emitted db sig (db.removeUser uid).db

/-- **Where a channel or a message that is written comes from**: a replay, or a signal. -/
theorem emitted_of_written [External] {c : Nat} {r : Response}
    (h : (c, r) ∈ (s.receive call).written) :
    Quiet r ∨ (∃ user, r ∈ Server.replay s.db user ∧ (s.receive call).server.db = s.db)
      ∨ ∃ sig, r = sig.response ∧ Emitted s.db sig (s.receive call).server.db := by
  obtain ⟨conn, request, draws⟩ := call
  cases request with
  | registerAccount username password displayName =>
      change _ ∈ (s.onRegisterAccount conn draws username password displayName).written at h
      unfold Server.onRegisterAccount at h
      split at h
      · cases List.mem_singleton.mp h
        exact Or.inl trivial
      · obtain ⟨sig, hsig, -⟩ | ⟨res, hres⟩ := mem_conclude_written h
        · rw [addUser_emitted] at hsig
          exact absurd hsig List.not_mem_nil
        · cases List.mem_singleton.mp hres
          exact Or.inl trivial
  | login username password =>
      obtain ⟨-, ⟨data, hdata⟩ | ⟨user, hreplay⟩⟩ := mem_onLogin_written h
      · cases hdata
        exact Or.inl trivial
      · exact Or.inr (Or.inl ⟨user, hreplay, onLogin_db s conn username password⟩)
  | listAccounts regex =>
      change _ ∈ (s.onListAccounts conn regex).written at h
      unfold Server.onListAccounts at h
      split at h <;> cases List.mem_singleton.mp h <;> exact Or.inl trivial
  | deleteAccount username password =>
      change _ ∈ (s.onDeleteAccount conn username password).written at h
      show _ ∨ (∃ user, _ ∧ (s.onDeleteAccount conn username password).server.db = _)
        ∨ ∃ sig, _ ∧ Emitted s.db sig (s.onDeleteAccount conn username password).server.db
      unfold Server.onDeleteAccount at h ⊢
      split at h
      · cases List.mem_singleton.mp h
        exact Or.inl trivial
      · split at h
        · cases List.mem_singleton.mp h
          exact Or.inl trivial
        · cases List.mem_singleton.mp h
          exact Or.inl trivial
        · rw [conclude_server]
          obtain ⟨sig, hsig, hdeliver⟩ | ⟨res, hres⟩ := mem_conclude_written h
          · exact Or.inr (Or.inr ⟨sig, response_of_deliver hdeliver, .userRemoved hsig⟩)
          · cases List.mem_singleton.mp hres
            exact Or.inl trivial
  | createChannel channelName members =>
      obtain ⟨sig, hsig, hdeliver⟩ | ⟨res, hres⟩ := mem_conclude_written h
      · refine Or.inr (Or.inr ⟨sig, response_of_deliver hdeliver, ?_⟩)
        show Emitted _ _ (s.onCreateChannel draws channelName members).server.db
        rw [Server.onCreateChannel, conclude_server]
        exact .channelAdded hsig
      · exact absurd hres List.not_mem_nil
  | sendMessage senderUid channelUid text =>
      obtain ⟨sig, hsig, hdeliver⟩ | ⟨res, hres⟩ := mem_conclude_written h
      · refine Or.inr (Or.inr ⟨sig, response_of_deliver hdeliver, ?_⟩)
        show Emitted _ _ (s.onSendMessage draws senderUid channelUid text).server.db
        rw [Server.onSendMessage, conclude_server]
        exact .messageAdded hsig
      · exact absurd hres List.not_mem_nil
  | deleteMessage messageSnowflake =>
      obtain ⟨sig, hsig, hdeliver⟩ | ⟨res, hres⟩ := mem_conclude_written h
      · refine Or.inr (Or.inr ⟨sig, response_of_deliver hdeliver, ?_⟩)
        show Emitted _ _ (s.onDeleteMessage messageSnowflake).server.db
        rw [Server.onDeleteMessage, conclude_server]
        exact .messageRemoved hsig
      · exact absurd hres List.not_mem_nil

/-- **A deletion that is announced is of a message that is gone.** -/
theorem departed_of_written [External] (hinv : LastingInv k s) {c : Nat} {m : Message}
    (h : (c, Response.deleteMessage (.ok m)) ∈ (s.receive call).written) :
    Departed k (s.receive call).server.db m.snowflake := by
  obtain hquiet | ⟨user, hreplay, -⟩ | ⟨sig, heq, hemitted⟩ := emitted_of_written h
  · exact hquiet.elim
  · obtain ⟨_, -, _, -, hkind | ⟨_, -, _, -, hkind⟩⟩ := Server.mem_replay hreplay <;> cases hkind
  · generalize (s.receive call).server.db = db' at hemitted ⊢
    cases hemitted with
    | channelAdded hsig =>
        obtain ⟨v, -, -, rfl⟩ := mem_notify hsig
        cases heq
    | messageAdded hsig =>
        obtain ⟨ch, id, -, -, v, -, rfl⟩ := mem_addMessage_emitted hsig
        cases heq
    | messageRemoved hsig =>
        obtain ⟨v, m', rfl, hdeparted⟩ := departed_of_removeMessage hinv hsig
        cases heq
        exact hdeparted
    | userRemoved hsig =>
        obtain ⟨v, m', rfl, hdeparted⟩ := departed_of_removeUser hinv hsig
        cases heq
        exact hdeparted

/-! ## What is not shown -/

/-- The snowflakes of the messages on the screen. -/
def onScreen (c : ChatArea) : List UInt64 := c.messageLayout.map fun w => w.message.snowflake

/-- What the session has of the open chat and the screen has not is gone. -/
def Accounted (k : Int) (db : Database) (e : Desk) : Prop :=
  ∀ c ms, e.session.openChannel = some c → e.session.channelMessages.lookup c = some ms →
    ∀ m ∈ ms, m.snowflake ∈ onScreen e.chatArea ∨ Departed k db m.snowflake

theorem onScreen_of_messages {area : ChatArea} {ms : List Message}
    (h : area.messageLayout.map MessageWidget.message = ms) :
    onScreen area = ms.map Message.snowflake := by
  rw [← h, List.map_map]
  rfl

/-- A widget that a deletion takes away is of the message that was deleted. -/
theorem onScreen_deleted (area : ChatArea) (session : Session) (message : Message) {t : UInt64}
    (h : t ∈ onScreen area) :
    t ∈ onScreen (area.onDeleteMessageSuccess session message) ∨ t = message.snowflake := by
  unfold ChatArea.onDeleteMessageSuccess
  split
  · by_cases ht : t = message.snowflake
    · exact Or.inr ht
    · obtain ⟨w, hw, rfl⟩ := List.mem_map.mp h
      refine Or.inl (List.mem_map_of_mem ?_)
      exact (List.mem_eraseP_of_neg (by simpa using ht)).mpr hw
  · exact Or.inl h

/-- **Preserved by every turn**, if what is deleted is gone. -/
theorem accounted_turn {e e' : Desk} (h : Accounted k db e)
    (hgone : ∀ m, event = .received (.deleteMessage (.ok m)) → Departed k db m.snowflake)
    (hturn : Turn e event e') : Accounted k db e' := by
  cases hturn with
  | still => exact h
  | typed text =>
      intro c ms hc hms m hm
      unfold onScreen
      rw [setText_messageLayout]
      exact h c ms hc hms m hm
  | loggedIn user => exact h
  | reset => exact fun c ms hc => nomatch hc
  | opened hopening hshown =>
      intro c ms hc hms m hm
      obtain ⟨ms', layout, hms', hlayout, -, rfl⟩ := opened_cases hshown
      rw [Session.getActiveChannelMessages, hc] at hms'
      obtain rfl : ms = ms' := Option.some.inj (hms.symm.trans hms')
      refine Or.inl ?_
      rw [onScreen_of_messages hlayout]
      exact List.mem_map_of_mem hm
  | @added message session chatArea hadd hshown =>
      intro c ms hc hms m hm
      obtain ⟨hopen, -, hmessages⟩ := session_of_addMessage hadd
      dsimp only at hc hms ⊢
      rw [hmessages] at hms
      obtain ⟨hother, rfl⟩ | ⟨w, hthis, hw, rfl⟩ := sent_cases hshown
      · rw [if_neg fun heq : c = message.channelId => hother (heq ▸ hc)] at hms
        exact h c ms (hopen ▸ hc) hms m hm
      · rw [if_pos (Option.some.inj (hc.symm.trans hthis))] at hms
        obtain ⟨old, hold, rfl⟩ := Option.map_eq_some_iff.mp hms
        unfold onScreen
        rw [List.map_append]
        rcases List.mem_append.mp hm with hm | hm
        · exact (h c old (hopen ▸ hc) hold m hm).imp (List.mem_append_left _) id
        · refine Or.inl (List.mem_append_right _ ?_)
          rw [List.mem_singleton.mp hm, List.map_singleton, new_message hw]
          exact List.mem_singleton_self _
  | @removed message session hremove =>
      intro c ms hc hms m hm
      obtain ⟨hopen, -, hmessages⟩ := session_of_removeMessage hremove
      rcases h c ms (hopen ▸ hc) (hmessages ▸ hms) m hm with hin | hdeparted
      · refine (onScreen_deleted e.chatArea session message hin).imp id fun heq => ?_
        rw [heq]
        exact hgone message rfl
      · exact Or.inr hdeparted

/-- A program that its events reach, with a screen that is accounted for. -/
structure Viewed [Qt] (k : Int) (db : Database) (a : Application) : Prop where
  reachable : Application.system.Reachable Always a
  accounted : Accounted k db (desk a)

theorem viewed_mono [Qt] (hstays : ∀ t, Departed k db t → Departed k db' t)
    (h : Viewed k db a) : Viewed k db' a where
  reachable := h.reachable
  accounted c ms hc hms m hm := (h.accounted c ms hc hms m hm).imp id (hstays _)

theorem viewed_react [Qt] {m : Option RequestMessage} (h : Viewed k db a)
    (hreact : a.react event = some (.ok (b, m)))
    (hgone : ∀ m, event = .received (.deleteMessage (.ok m)) → Departed k db m.snowflake) :
    Viewed k db b where
  reachable := by
    refine h.reachable.tail (a := event) trivial ?_
    show Application.step a event = _
    unfold Application.step
    rw [hreact]
  accounted := accounted_turn h.accounted hgone (turn_of_react hreact)

/-! ## One step -/

theorem receive_of_step [External] (h : s.step call = some s') :
    (s.receive call).server = s' := by
  unfold Server.step at h
  split at h
  · cases h
  · exact Option.some.inj h

/-- The server moves with a request only. -/
theorem server_of_step [External] [Qt] {K : Server → Server.Call → Prop} {step : Desktops.Event}
    (hg : Desktops.Calls K d step) (hs : d.step step = some d') :
    d'.server = d.server ∨ ∃ call, K d.server call ∧ d.server.step call = some d'.server := by
  cases step with
  | click conn event =>
      unfold Desktops.step at hs
      dsimp only at hs
      split at hs
      · obtain ⟨a, -, ⟨fault, rfl⟩ | ⟨b, m, -, rfl⟩⟩ := click_cases hs
        · exact Or.inl rfl
        · exact Or.inl rfl
      · cases hs
  | handle conn draws =>
      obtain ⟨call, hcall, hs⟩ := Option.bind_eq_some_iff.mp hs
      obtain ⟨server, hserver, hs⟩ := Option.bind_eq_some_iff.mp hs
      cases hs
      exact Or.inr ⟨call, hg call hcall, hserver⟩
  | deliver conn =>
      obtain ⟨client, -, rfl⟩ := Option.map_eq_some_iff.mp hs
      exact Or.inl rfl

/-- What is on the way to a program was so before, or has just been written. -/
theorem queue_of_step [External] [Qt] {step : Desktops.Event} (hs : d.step step = some d') {c : Nat}
    {r : Response} (h : r ∈ (d'.clients c).queue) :
    r ∈ (d.clients c).queue
      ∨ ∃ call, d.server.step call = some d'.server
        ∧ (c, r) ∈ (d.server.receive call).written := by
  cases step with
  | click conn event =>
      unfold Desktops.step at hs
      dsimp only at hs
      split at hs
      · obtain ⟨a, -, ⟨fault, rfl⟩ | ⟨b, m, -, rfl⟩⟩ := click_cases hs
        · exact Or.inl (put_queue d conn _ c ▸ h)
        · exact Or.inl (put_queue d conn _ c ▸ h)
      · cases hs
  | handle conn draws =>
      obtain ⟨call, -, hs⟩ := Option.bind_eq_some_iff.mp hs
      obtain ⟨server, hserver, hs⟩ := Option.bind_eq_some_iff.mp hs
      cases hs
      rcases List.mem_append.mp h with hold | hnew
      · exact Or.inl hold
      · exact Or.inr ⟨call, hserver, mem_framesFor.mp hnew⟩
  | deliver conn =>
      obtain ⟨client, hclient, rfl⟩ := Option.map_eq_some_iff.mp hs
      obtain ⟨r', rs, hqueue, rfl⟩ := Inbox.deliver_cases _ hclient
      dsimp only at h
      by_cases hc : c = conn
      · rw [hc, Function.update_self] at h
        rw [hc, hqueue]
        exact Or.inl (List.mem_cons_of_mem r' h)
      · rw [Function.update_of_ne hc] at h
        exact Or.inl h

/-- What an event writes at a connection: one request, or none. -/
def wrote [Qt] (conn : Nat) (d : Desktops) : Desktops.Event → List RequestMessage
  | .click conn' event =>
      if conn' = conn then
        match (d.clients conn).state with
        | .ok a =>
            match a.react event with
            | some (.ok (_, m)) => m.toList
            | _ => []
        | .error _ => []
      else []
  | _ => []

/-- What waits at a connection, and what is written there, waits, but for what is handled. -/
theorem requests_of_step [External] [Qt] (conn : Nat) {step : Desktops.Event}
    (hs : d.step step = some d') :
    d'.requests conn = d.requests conn ++ wrote conn d step
      ∨ ∃ draws m, step = .handle conn draws ∧ d.requests conn = m :: d'.requests conn := by
  cases step with
  | click conn' event =>
      unfold Desktops.step at hs
      dsimp only at hs
      split at hs
      · refine Or.inl ?_
        unfold Desktops.click at hs
        dsimp only [wrote]
        split at hs
        · cases hs
        · rename_i a hstate
          obtain ⟨result, hreact, rfl⟩ := Option.map_eq_some_iff.mp hs
          -- a click writes to its own connection
          by_cases hc : conn' = conn
          · subst hc
            rw [if_pos rfl, hstate]
            dsimp only
            rw [hreact]
            cases result with
            | error fault => exact (List.append_nil _).symm
            | ok p =>
                show Function.update d.requests conn' _ conn' = _
                rw [Function.update_self]
                rfl
          · rw [if_neg hc, List.append_nil]
            cases result with
            | error fault => rfl
            | ok p =>
                show Function.update d.requests conn' _ conn = _
                rw [Function.update_of_ne (Ne.symm hc)]
      · cases hs
  | handle conn' draws =>
      obtain ⟨call, hcall, hs⟩ := Option.bind_eq_some_iff.mp hs
      obtain ⟨server, hserver, hs⟩ := Option.bind_eq_some_iff.mp hs
      cases hs
      obtain ⟨m, hm, -⟩ := Option.map_eq_some_iff.mp hcall
      by_cases hc : conn = conn'
      · subst hc
        refine Or.inr ⟨draws, m, rfl, ?_⟩
        dsimp only
        rw [Function.update_self]
        exact (List.cons_head?_tail hm).symm
      · refine Or.inl ?_
        dsimp only [wrote]
        rw [Function.update_of_ne hc, List.append_nil]
  | deliver conn' =>
      obtain ⟨client, -, rfl⟩ := Option.map_eq_some_iff.mp hs
      exact Or.inl (List.append_nil _).symm

/-- A program has not moved, or by a click, or by a response that was on the way to it. -/
theorem program_of_step [External] [Qt] {step : Desktops.Event} (hs : d.step step = some d')
    {c : Nat} (h : (d'.clients c).state = .ok b) :
    ∃ a, (d.clients c).state = .ok a
      ∧ (a = b ∨ ∃ event m, a.react event = some (.ok (b, m))
        ∧ (Desktops.isClick event ∨ ∃ r ∈ (d.clients c).queue, event = .received r)) := by
  cases step with
  | click conn event =>
      unfold Desktops.step at hs
      dsimp only at hs
      split at hs
      · rename_i hclick
        obtain ⟨a, hstate, ⟨fault, rfl⟩ | ⟨b', m, hreact, rfl⟩⟩ := click_cases hs
        · obtain ⟨-, hput⟩ | ⟨-, hold⟩ := put_state h
          · cases hput
          · exact ⟨b, hold, Or.inl rfl⟩
        · have hclients : ((d.put conn (.ok b')).clients c).state = .ok b := h
          obtain ⟨rfl, hput⟩ | ⟨-, hold⟩ := put_state hclients
          · cases hput
            exact ⟨a, hstate, Or.inr ⟨event, m, hreact, Or.inl hclick⟩⟩
          · exact ⟨b, hold, Or.inl rfl⟩
      · cases hs
  | handle conn draws =>
      obtain ⟨call, -, hs⟩ := Option.bind_eq_some_iff.mp hs
      obtain ⟨server, -, hs⟩ := Option.bind_eq_some_iff.mp hs
      cases hs
      exact ⟨b, h, Or.inl rfl⟩
  | deliver conn =>
      obtain ⟨client, hclient, rfl⟩ := Option.map_eq_some_iff.mp hs
      obtain ⟨r, rs, hqueue, rfl⟩ := Inbox.deliver_cases _ hclient
      dsimp only at h
      by_cases hc : c = conn
      · subst hc
        rw [Function.update_self] at h
        dsimp only at h
        cases hstate : (d.clients c).state with
        | error fault =>
            rw [hstate] at h
            cases h
        | ok a =>
            rw [hstate] at h
            have hreceive : a.receive r = .ok b := h
            refine ⟨a, rfl, Or.inr ⟨.received r, none, ?_,
              Or.inr ⟨r, hqueue ▸ List.mem_cons_self, rfl⟩⟩⟩
            show some ((a.receive r).map fun b => (b, none)) = _
            rw [hreceive]
            rfl
      · rw [Function.update_of_ne hc] at h
        exact ⟨b, h, Or.inl rfl⟩

/-! ## Whole runs -/

/-- The deployment's invariant, at the server and the sessions of the programs. -/
theorem followed_behind [External] [Qt]
    (h : Desktops.system.Reachable (Desktops.Calls (Ordinary k)) d) :
    ∃ e, FollowedInv k e ∧ d.server = e.server
      ∧ (∀ conn, (d.clients conn).queue = (e.clients conn).queue)
      ∧ ∀ conn a, (d.clients conn).state = .ok a →
        ∃ s, (e.clients conn).state = .ok s ∧ shut a.session = shut s := by
  obtain ⟨e, he, x, -, hstands, hserver, hclients⟩ := (desktops_deployed _).reachable h
  refine ⟨e, followedInv_reachable he, hstands.server.trans hserver, ?_, ?_⟩
  · rw [← hclients]
    exact hstands.queue
  · rw [← hclients]
    exact hstands.session

/-- Every program is one that its events reach. -/
structure ViewsInv [Qt] (k : Int) (d : Desktops) : Prop where
  programs : ∀ conn a, (d.clients conn).state = .ok a → Application.system.Reachable Always a
  /-- What is announced as deleted is gone. -/
  announced : ∀ conn m, Response.deleteMessage (.ok m) ∈ (d.clients conn).queue →
    Departed k d.server.db m.snowflake
  accounted : ∀ conn a, (d.clients conn).state = .ok a → Accounted k d.server.db (desk a)

theorem viewsInv_init [Qt] : ViewsInv k Desktops.new where
  programs conn a h := by
    cases h
    exact .init
  announced conn m h := absurd h List.not_mem_nil
  accounted conn a h := by
    cases h
    exact fun c ms hc => nomatch hc

/-- **Preserved by every click, ordinary request and delivery.** -/
theorem viewsInv_step [External] [Qt] {step : Desktops.Event}
    (hreach : Desktops.system.Reachable (Desktops.Calls (Ordinary k)) d) (h : ViewsInv k d)
    (hg : Desktops.Calls (Ordinary k) d step) (hs : d.step step = some d') : ViewsInv k d' := by
  have hstays : ∀ t, Departed k d.server.db t → Departed k d'.server.db t := by
    intro t ht
    obtain heq | ⟨call, hordinary, hserver⟩ := server_of_step hg hs
    · rw [heq]
      exact ht
    · exact departed_step hordinary hserver ht
  have hviewed : ∀ c b, (d'.clients c).state = .ok b → Viewed k d'.server.db b := by
    intro c b hb
    obtain ⟨a, ha, hmoved⟩ := program_of_step hs hb
    have hold : Viewed k d.server.db a := ⟨h.programs c a ha, h.accounted c a ha⟩
    refine viewed_mono hstays ?_
    obtain rfl | ⟨event, m, hreact, hcause⟩ := hmoved
    · exact hold
    · refine viewed_react hold hreact ?_
      rintro m rfl
      obtain hclick | ⟨r, hr, heq⟩ := hcause
      · cases hclick
      · cases heq
        exact h.announced c m hr
  refine ⟨fun c b hb => (hviewed c b hb).reachable, fun c m hm => ?_,
    fun c b hb => (hviewed c b hb).accounted⟩
  obtain hold | ⟨call, hserver, hwritten⟩ := queue_of_step hs hm
  · exact hstays _ (h.announced c m hold)
  · obtain ⟨e, hfollowed, hsame, -⟩ := followed_behind hreach
    have hinv : LastingInv k d.server := hsame ▸ hfollowed.store
    rw [← receive_of_step hserver]
    exact departed_of_written hinv hwritten

theorem viewsInv_reachable [External] [Qt]
    (h : Desktops.system.Reachable (Desktops.Calls (Ordinary k)) d) : ViewsInv k d :=
  h.invariant (P := ViewsInv k) viewsInv_init
    fun _ _ _ hreach hinv hg hs => viewsInv_step hreach hinv hg hs

/-- What the session has of the open chat, between the screen and the server's history. -/
structure Between (k : Int) (db : Database) (a : Application) (ch : Channel)
    (ms : List Message) : Prop where
  shown : List.Sublist (a.chatArea.messageLayout.map MessageWidget.message) ms
  accounted : ∀ m ∈ ms, m.snowflake ∈ onScreen a.chatArea ∨ Departed k db m.snowflake
  ascend : (ms.map Message.snowflake).Pairwise (· < ·)
  listed : List.Sublist ch.messageSnowflakes (ms.map Message.snowflake)
  extra : ∀ m ∈ ms, m.snowflake ∉ ch.messageSnowflakes → Gone db m.snowflake

/-- A session that is abreast has such a list of each of its user's channels. -/
theorem between_of_abreast [Qt] {session : Session} {u c : UUID} {user : User}
    (habreast : Abreast k s conn session) (hauth : s.authenticatedUser conn = some u)
    (hu : s.db.users.lookup u = some user) (hc : c ∈ user.channels)
    (hreach : Application.system.Reachable Always a) (haccounted : Accounted k s.db (desk a))
    (hlists : ∀ ms, session.channelMessages.lookup c = some ms →
      a.session.channelMessages.lookup c = some ms)
    (hopen : a.session.openChannel = some c) :
    ∃ ch ms, s.db.channels.lookup c = some ch ∧ Between k s.db a ch ms
      ∧ ∀ m ∈ ms, m.channelId = c ∧ Genuine k s.db m := by
  obtain ⟨ch, ss, hch, hss, hsub, hextra⟩ := (habreast.current u user hauth hu).2 c hc
  obtain ⟨ms, hms, rfl⟩ := Option.map_eq_some_iff.mp hss
  obtain ⟨ms', hms', hshown⟩ := (onScreen_reachable hreach).shown c hopen
  obtain rfl : ms = ms' := Option.some.inj ((hlists ms hms).symm.trans hms')
  exact ⟨ch, ms, hch,
    { shown := hshown
      accounted := fun m hm => haccounted c ms hopen (hlists ms hms) m hm
      ascend := habreast.order.ascend c _ hss
      listed := hsub
      extra := fun m hm => hextra _ (List.mem_map_of_mem hm) },
    habreast.order.genuine c ms hms⟩

/-- Whenever nothing is on the way, the session's list of the open chat is such a list. -/
theorem between_of_quiet [External] [Qt]
    (h : Desktops.system.Reachable (Desktops.Calls (Ordinary k)) d) {u c : UUID} {user : User}
    (hauth : d.server.authenticatedUser conn = some u)
    (hu : d.server.db.users.lookup u = some user) (hqueue : (d.clients conn).queue = [])
    (hstate : (d.clients conn).state = .ok a) (hopen : a.session.openChannel = some c)
    (hc : c ∈ user.channels) :
    ∃ ch ms, d.server.db.channels.lookup c = some ch ∧ Between k d.server.db a ch ms
      ∧ ∀ m ∈ ms, m.channelId = c ∧ Genuine k d.server.db m := by
  have hviews := viewsInv_reachable h
  obtain ⟨e, hfollowed, hserver, hqueues, hsessions⟩ := followed_behind h
  obtain ⟨s, hs, hshut⟩ := hsessions conn a hstate
  -- the session is what the exchange's client has come to
  obtain ⟨session, hsettled, habreast⟩ := hfollowed.clients conn
  rw [Inbox.settled_of_queue_nil _ ((hqueues conn).symm.trans hqueue), hs] at hsettled
  cases hsettled
  rw [← hserver] at habreast
  have hlists : (shut a.session).channelMessages = (shut s).channelMessages := by rw [hshut]
  refine between_of_abreast habreast hauth hu hc (hviews.programs conn a hstate)
    (hviews.accounted conn a hstate) (fun ms hms => ?_) hopen
  show (shut a.session).channelMessages.lookup c = some ms
  rw [hlists]
  exact hms

/-- What such a list says of the screen. -/
theorem shows_of_between {ch : Channel} {ms : List Message} {c : UUID} (h : Between k db a ch ms)
    (hgenuine : ∀ m ∈ ms, m.channelId = c ∧ Genuine k db m) :
    (onScreen a.chatArea).Pairwise (· < ·)
      ∧ (∀ t ∈ ch.messageSnowflakes, t ∈ onScreen a.chatArea ∨ Gone db t)
      ∧ ∀ w ∈ a.chatArea.messageLayout, w.message.channelId = c
        ∧ (∀ m, db.messages.lookup w.message.snowflake = some m → m = w.message)
        ∧ (w.message.snowflake ∉ ch.messageSnowflakes → Gone db w.message.snowflake) := by
  have hpart : List.Sublist (onScreen a.chatArea) (ms.map Message.snowflake) := by
    have := h.shown.map Message.snowflake
    rwa [List.map_map] at this
  refine ⟨h.ascend.sublist hpart, fun t ht => ?_, fun w hw => ?_⟩
  · obtain ⟨m, hm, rfl⟩ := List.mem_map.mp (h.listed.subset ht)
    exact (h.accounted m hm).imp id And.right
  · have hmem : w.message ∈ ms := h.shown.subset (List.mem_map_of_mem hw)
    exact ⟨(hgenuine _ hmem).1, (hgenuine _ hmem).2.same, h.extra _ hmem⟩

/--
**The open chat shows the history.** Users click what they like, the server handles any
ordinary requests, and whenever nothing is on the way to a program whose connection has
authenticated a registered user: the chat that is open, if it is one of the user's, shows
the messages of that channel in ascending order, each as the server stores it if it does.
What the server's history has and the screen has not is gone, and so is what the screen has
and the history has not: it is not stored any more, or its sender is not registered.
-/
theorem open_chat_shows_history [External] [Qt]
    (h : Desktops.system.Reachable (Desktops.Calls (Ordinary k)) d) {u c : UUID} {user : User}
    (hauth : d.server.authenticatedUser conn = some u)
    (hu : d.server.db.users.lookup u = some user) (hqueue : (d.clients conn).queue = [])
    (hstate : (d.clients conn).state = .ok a) (hopen : a.session.openChannel = some c)
    (hc : c ∈ user.channels) :
    ∃ ch, d.server.db.channels.lookup c = some ch
      ∧ (onScreen a.chatArea).Pairwise (· < ·)
      ∧ (∀ t ∈ ch.messageSnowflakes, t ∈ onScreen a.chatArea ∨ Gone d.server.db t)
      ∧ ∀ w ∈ a.chatArea.messageLayout, w.message.channelId = c
        ∧ (∀ m, d.server.db.messages.lookup w.message.snowflake = some m → m = w.message)
        ∧ (w.message.snowflake ∉ ch.messageSnowflakes → Gone d.server.db w.message.snowflake) := by
  obtain ⟨ch, ms, hch, hbetween, hgenuine⟩ :=
    between_of_quiet h hauth hu hqueue hstate hopen hc
  exact ⟨ch, hch, shows_of_between hbetween hgenuine⟩

/-- A text in units of UTF-16, for examples. -/
def typed (s : String) : QString := s.toList.map fun c => UInt16.ofNat c.toNat

/-- What is typed is short, and what it is turned into is the same in ASCII. -/
example : utf8 (typed "hi") = lit "hi" := by decide

/--
Alice (0) and Bob (1) register and log in. Alice looks for Bob, opens a chat with him and says
two things, and takes the first one back.
-/
def chatting : List Desktops.Event :=
  [.click 0 .connected,
    .click 0 (.submitRegistration (typed "alice") (typed "Alice") (typed "secret")),
    .click 1 (.submitRegistration (typed "bob") (typed "Bob") (typed "secret")),
    .handle 1 (.ofByte 2 []),
    .handle 0 (.ofByte 1 []),
    .deliver 0,
    .deliver 1,
    .click 0 (.submitLogin (typed "alice") (typed "secret")),
    .click 1 (.submitLogin (typed "bob") (typed "secret")),
    .handle 0 (.ofByte 0 []),
    .handle 1 (.ofByte 0 []),
    .deliver 0,
    .click 0 (.search (typed "bob")),
    .handle 0 (.ofByte 0 []),
    .deliver 0,
    .click 0 (.messageUser 0),
    .handle 0 (.ofByte 7 []),
    .deliver 0,
    .click 0 (.typeText (typed "hi")),
    .click 0 .send,
    .handle 0 (.ofByte 0 [epoch + 5]),
    .click 0 (.typeText (typed "you")),
    .click 0 .send,
    .handle 0 (.ofByte 0 [epoch + 5]),
    .deliver 0,
    .deliver 0,
    .click 0 (.deleteMessage 0),
    .handle 0 (.ofByte 0 []),
    .deliver 0]

theorem chatting_runs :
    ((@Desktops.system .sample utf8Qt).exec (Desktops.Calls (@Ordinary .sample 0)) Desktops.new
      chatting).isSome := by
  decide +kernel

/-- Where they are then. -/
def chattingEnd : Desktops :=
  ((@Desktops.system .sample utf8Qt).exec (Desktops.Calls (@Ordinary .sample 0)) Desktops.new
    chatting).get chatting_runs

/-- Alice sees what she has not taken back, and it is the server's history. -/
theorem open_chat_shows_history_chatting :
    ∃ a ch, (chattingEnd.clients 0).state = .ok a ∧ onScreen a.chatArea = [41951489]
      ∧ chattingEnd.server.db.channels.lookup (.ofByte 7) = some ch
      ∧ ∀ t ∈ ch.messageSnowflakes, t ∈ onScreen a.chatArea ∨ Gone chattingEnd.server.db t := by
  have hauth : chattingEnd.server.authenticatedUser 0 = some (.ofByte 1) := by decide +kernel
  have hqueue : (chattingEnd.clients 0).queue.isEmpty := by decide +kernel
  have hlisted : (chattingEnd.server.db.users.lookup (.ofByte 1)).map (·.channels)
      = some [.ofByte 7] := by decide +kernel
  have hscreen : (chattingEnd.clients 0).state.toOption.map
      (fun a => (a.session.openChannel, onScreen a.chatArea))
        = some (some (.ofByte 7), [41951489]) := by decide +kernel
  obtain ⟨user, hu, hchannels⟩ := Option.map_eq_some_iff.mp hlisted
  cases hstate : (chattingEnd.clients 0).state with
  | error fault =>
      rw [hstate] at hscreen
      cases hscreen
  | ok a =>
      rw [hstate] at hscreen
      obtain ⟨hopen, hshown⟩ := Prod.mk.inj (Option.some.inj hscreen)
      obtain ⟨ch, hch, -, hall, -⟩ :=
        @open_chat_shows_history a chattingEnd 0 0 .sample utf8Qt
          (System.Reachable.exec_get chatting_runs) _ _ _ hauth hu (List.isEmpty_iff.mp hqueue)
          hstate hopen (by rw [hchannels]; exact .head _)
      exact ⟨a, ch, rfl, hshown, hch, hall⟩

end SockEtOut.Proof
