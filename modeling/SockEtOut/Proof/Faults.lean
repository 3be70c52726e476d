import SockEtOut.Lib.Simulation
import SockEtOut.Proof.Screen

/-!
# How the client ends

Behind its screen the program is the client of `Client.Windows`: every turn is one of
the client's inputs or none at all, and a channel that is taken in is taken in while a
user is authenticated, or the program does not get that far. So what is proved of that
client is true here.

With it, and with what is known of the screen, there are three cases left in which
something throws. A response that arrives is printed first, and a string in it may not be
UTF-8. The other two are without a user: a channel arrives, or the button of a search
result is clicked.
-/

namespace SockEtOut.Proof

open Lib System

variable {a b : Application} {event : Application.Event}

/-! ## The client behind the screen -/

/-- The session and the list of chats. -/
def behind (d : Desk) : Client := ⟨d.session, d.activeChats⟩

theorem step_response {c : Client} {r : Response} {session : Session}
    (h : c.session.handle r = .ok session) :
    c.step (.response r) = some ⟨session, ActiveChatsTab.after c.activeChats r⟩ := by
  rw [Client.step, h]

theorem client_of_opening {d : Desk} {channel : Channel} {session : Session}
    {chats : List Channel} (h : Opening d channel event session chats) :
    (Client.system.resume (behind d)).Reachable WhileAuthenticated ⟨session, chats⟩ := by
  cases h with
  | created h =>
      have huser : d.session.authenticatedUser.isSome := by
        cases huser : d.session.authenticatedUser with
        | some user => rfl
        | none =>
            unfold Session.onCreateChannelResponse at h
            rw [huser] at h
            cases h
      exact .one (b := .response (.createChannel (.ok channel))) huser (step_response h)
  | @selected item h =>
      refine .one (b := .select item) trivial ?_
      show (d.activeChats[item]?).map _ = _
      rw [h]
      rfl

/-- A turn is an input of the client behind the screen, or none. -/
theorem client_of_turn {d d' : Desk} (h : Turn d event d') :
    (Client.system.resume (behind d)).Reachable WhileAuthenticated (behind d') := by
  cases h with
  | still | typed => exact .stay
  | loggedIn user => exact .one (b := .response (.login (.ok user))) trivial rfl
  | reset => exact .one (b := .reset) trivial rfl
  | opened hopening => exact client_of_opening hopening
  | @added message _ _ hadd =>
      exact .one (b := .response (.sendMessage (.ok message))) trivial (step_response hadd)
  | @removed message _ hremove =>
      exact .one (b := .response (.deleteMessage (.ok message))) trivial (step_response hremove)

/-- **The program simulates the client behind its screen.** -/
theorem application_simulates [Qt] :
    Simulates Application.system Always Client.system WhileAuthenticated
      fun a c => behind (desk a) = c where
  init := rfl
  step := by
    rintro a b event c - - rfl - hs
    exact ⟨behind (desk b), client_of_turn (turn_of_step hs), rfl⟩

theorem backed_behind [Qt] (h : Application.system.Reachable Always a) :
    Backed (behind (desk a)) :=
  application_simulates.invariant (fun _ => backed_reachable) (fun _ _ hc hbacked => hc ▸ hbacked) h

/-! ## What a user is enough for -/

theorem layout_of_user {session : Session} (huser : session.authenticatedUser.isSome) :
    ∀ ms : List Message, ∃ layout, ms.mapM (MessageWidget.new session) = .ok layout := by
  obtain ⟨user, huser⟩ := Option.isSome_iff_exists.mp huser
  have hnew : ∀ m, ∃ w, MessageWidget.new session m = .ok w := by
    intro m
    unfold MessageWidget.new
    rw [huser]
    exact ⟨_, rfl⟩
  intro ms
  induction ms with
  | nil => exact ⟨[], rfl⟩
  | cons m ms ih =>
      obtain ⟨w, hw⟩ := hnew m
      obtain ⟨layout, hlayout⟩ := ih
      refine ⟨w :: layout, ?_⟩
      rw [List.mapM_cons, hw]
      show (ms.mapM (MessageWidget.new session) >>= fun ws => pure (w :: ws)) = _
      rw [hlayout]
      rfl

/-- A chat is shown if there is a user and the session has its messages. -/
theorem opens_of_user (area : ChatArea) {session : Session} (channel : Channel)
    (huser : session.authenticatedUser.isSome) (hms : session.getActiveChannelMessages.isSome) :
    ∃ area', area.onActiveChannelChanged session channel = .ok area' := by
  obtain ⟨ms, hms⟩ := Option.isSome_iff_exists.mp hms
  obtain ⟨layout, hlayout⟩ := layout_of_user huser ms
  unfold ChatArea.onActiveChannelChanged
  rw [hms]
  dsimp only
  rw [hlayout]
  exact ⟨_, rfl⟩

/-- A message is shown or not, if there is a user when a chat is open. -/
theorem shows_of_user (area : ChatArea) {session : Session} (message : Message)
    (huser : session.openChannel.isSome → session.authenticatedUser.isSome) :
    ∃ area', area.onSendMessageSuccess session message = .ok area' := by
  unfold ChatArea.onSendMessageSuccess
  split
  · rename_i hopen
    obtain ⟨user, huser⟩ := Option.isSome_iff_exists.mp (huser (by rw [hopen]; rfl))
    unfold MessageWidget.new
    rw [huser]
    exact ⟨_, rfl⟩
  · exact ⟨_, rfl⟩

/-! ## The three cases -/

/-- A response with a string that is not UTF-8. -/
def Unprintable : Application.Event → Prop
  | .received r => r.prints = false
  | _ => False

/-- What takes it for granted that there is a user. -/
inductive NeedsUser (a : Application) : Application.Event → Prop where
  | channel {channel : Channel} (h : (Response.createChannel (.ok channel)).prints = true) :
      NeedsUser a (.received (.createChannel (.ok channel)))
  | result {item : Nat} {user : User} (hshown : a.sidebar.searchTab.loading = false)
      (h : a.sidebar.searchTab.searchResults[item]? = some user) :
      NeedsUser a (.messageUser item)

/-- What is dispatched leads somewhere, but for a channel without a user. -/
theorem dispatch_returns (hscreen : OnScreen (desk a)) (hbacked : Backed (behind (desk a)))
    {r : Response}
    (huser : ∀ channel, r = .createChannel (.ok channel) → a.session.authenticatedUser.isSome) :
    ∃ b, a.dispatch r = .ok b := by
  have hkeys : KeysAgree a.session := fun uid => (hbacked.keys uid).mpr
  obtain ⟨session, hsession, -⟩ := handle_returns hkeys huser
  unfold Application.dispatch
  rw [hsession]
  cases r with
  | registerAccount data | login data | listAccounts data | deleteAccount data =>
      cases data <;> exact ⟨_, rfl⟩
  | createChannel data =>
      cases data with
      | error e => exact ⟨_, rfl⟩
      | ok channel =>
          obtain ⟨-, -, hkept, -⟩ := opening_cases (d := desk a) (.created hsession)
          have hbacked' := backed_create hbacked hsession
          obtain ⟨hopen, -⟩ := opening_cases (d := desk a) (.created hsession)
          have hms : session.getActiveChannelMessages.isSome := by
            rw [Session.getActiveChannelMessages, hopen]
            exact (hbacked'.keys _).mp (hbacked'.opened _ hopen)
          obtain ⟨area, harea⟩ := opens_of_user a.chatArea channel
            (hkept (huser channel rfl)) hms
          dsimp only [Application.onChannelOpened]
          rw [harea]
          exact ⟨_, rfl⟩
  | sendMessage data =>
      cases data with
      | error e => exact ⟨_, rfl⟩
      | ok message =>
          obtain ⟨hopen, hsame, -⟩ := session_of_addMessage hsession
          have huser' : session.openChannel.isSome → session.authenticatedUser.isSome := by
            rw [hopen, hsame]
            exact hscreen.user
          obtain ⟨area, harea⟩ := shows_of_user a.chatArea message huser'
          dsimp only
          rw [harea]
          exact ⟨_, rfl⟩
  | deleteMessage data => cases data <;> exact ⟨_, rfl⟩

/-- A listed chat can be opened. -/
theorem select_returns (hscreen : OnScreen (desk a)) (hbacked : Backed (behind (desk a)))
    {channel : Channel} (h : channel ∈ a.sidebar.activeChats) :
    ∃ b, Application.onChannelOpened { a with session := a.session.setActiveChannel channel }
      channel = .ok b := by
  have huser : a.session.authenticatedUser.isSome := by
    refine hscreen.user ?_
    cases hopen : (desk a).session.openChannel with
    | some c => rfl
    | none =>
        have hnone : a.sidebar.activeChats = [] := (hscreen.closed hopen).1
        rw [hnone] at h
        cases h
  have hms : (a.session.setActiveChannel channel).getActiveChannelMessages.isSome :=
    (hbacked.keys _).mp (hbacked.listed channel h)
  obtain ⟨area, harea⟩ := @opens_of_user a.chatArea
    (a.session.setActiveChannel channel) channel huser hms
  unfold Application.onChannelOpened
  rw [harea]
  exact ⟨_, rfl⟩

/-- A text is sent if there is a user when a chat is open. -/
theorem send_returns [Qt] (session : Session) (text : QString)
    (huser : session.openChannel.isSome → session.authenticatedUser.isSome) :
    ∃ m, ChatArea.sendMessage session text = .ok m := by
  unfold ChatArea.sendMessage
  split
  · exact ⟨_, rfl⟩
  · rename_i c hopen
    obtain ⟨user, huser⟩ := Option.isSome_iff_exists.mp (huser (by rw [hopen]; rfl))
    split
    · exact ⟨_, rfl⟩
    · rw [huser]
      exact ⟨_, rfl⟩

/-- A response ends the program if it cannot be printed, or is a channel without a user. -/
theorem ends_of_received (hscreen : OnScreen (desk a)) (hbacked : Backed (behind (desk a)))
    {r : Response} {fault : Fault} (h : a.receive r = .error fault) :
    Unprintable (.received r)
      ∨ a.session.authenticatedUser = none ∧ NeedsUser a (.received r) := by
  cases hprints : r.prints with
  | false => exact Or.inl hprints
  | true =>
      refine Or.inr ?_
      rw [Application.receive, if_pos hprints] at h
      by_cases hr : ∃ channel, r = .createChannel (.ok channel)
      · obtain ⟨channel, rfl⟩ := hr
        cases huser : a.session.authenticatedUser with
        | none => exact ⟨rfl, .channel hprints⟩
        | some user =>
            obtain ⟨b, hb⟩ := dispatch_returns hscreen hbacked
              (r := .createChannel (.ok channel)) fun _ _ => by rw [huser]; rfl
            rw [hb] at h
            cases h
      · obtain ⟨b, hb⟩ := dispatch_returns hscreen hbacked (r := r)
          fun channel heq => absurd ⟨channel, heq⟩ hr
        rw [hb] at h
        cases h

/-- What ends the program is a response that cannot be printed, or needs a user. -/
theorem ends_of_throws [Qt] (hscreen : OnScreen (desk a)) (hbacked : Backed (behind (desk a)))
    {fault : Fault} (h : a.react event = some (.error fault)) :
    Unprintable event ∨ a.session.authenticatedUser = none ∧ NeedsUser a event := by
  cases event with
  | connected | disconnected | disconnect | registrationDisconnect | turnTab | turnSidebarTab
  | search | typeText => cases h
  | submitLogin username password =>
      simp only [Application.react] at h
      split at h
      · cases h
      · split at h <;> cases h
  | submitRegistration username displayName password =>
      simp only [Application.react] at h
      split at h
      · cases h
      · split at h <;> cases h
  | deleteAccount username password =>
      simp only [Application.react] at h
      split at h <;> cases h
  | received r =>
      refine @ends_of_received a hscreen hbacked r fault ?_
      cases hreceive : a.receive r with
      | ok b =>
          simp only [Application.react, hreceive] at h
          cases h
      | error other =>
          simp only [Application.react, hreceive] at h
          cases h
          rfl
  | messageUser item =>
      simp only [Application.react] at h
      split at h
      · cases h
      · rename_i hshown
        obtain ⟨user, hitem, hclick⟩ := Option.map_eq_some_iff.mp h
        refine Or.inr ⟨?_, .result (Bool.not_eq_true _ ▸ hshown) hitem⟩
        unfold ProfileWidget.onMessageButtonClicked at hclick
        split at hclick
        · rename_i hthrows
          split at hthrows
          · assumption
          · cases hthrows
        · cases hclick
  | select item =>
      -- what is listed can be opened
      obtain ⟨channel, hitem, hopened⟩ := Option.map_eq_some_iff.mp h
      obtain ⟨b, hb⟩ := select_returns hscreen hbacked (List.mem_of_getElem? hitem)
      rw [hb] at hopened
      cases hopened
  | send =>
      -- with a chat open somebody is authenticated
      obtain ⟨m, hm⟩ := send_returns a.session a.chatArea.messageInput hscreen.user
      simp only [Application.react, hm] at h
      cases m <;> cases h
  | deleteMessage item =>
      simp only [Application.react] at h
      split at h
      · cases h
      · split at h <;> cases h

theorem throws_of_unprintable [Qt] (h : Unprintable event) :
    a.react event = some (.error .typeError) := by
  cases event with
  | received r =>
      have hprints : r.prints = false := h
      have hreceive : a.receive r = .error .typeError := by
        unfold Application.receive
        rw [hprints]
        rfl
      simp only [Application.react, hreceive]
      rfl
  | _ => exact h.elim

theorem throws_of_needsUser [Qt] (huser : a.session.authenticatedUser = none)
    (h : NeedsUser a event) : a.react event = some (.error (.thrown .badOptionalAccess)) := by
  cases h with
  | @channel channel hprints =>
      have hthrows : a.session.handle (.createChannel (.ok channel))
          = .error .badOptionalAccess := by
        show a.session.onCreateChannelResponse channel = _
        unfold Session.onCreateChannelResponse
        rw [huser]
      have hdispatch : a.dispatch (.createChannel (.ok channel))
          = .error (.thrown .badOptionalAccess) := by
        unfold Application.dispatch
        rw [hthrows]
      have hreceive : a.receive (.createChannel (.ok channel))
          = .error (.thrown .badOptionalAccess) := by
        rw [Application.receive, if_pos hprints, hdispatch]
      simp only [Application.react, hreceive]
      rfl
  | result hshown hitem =>
      simp only [Application.react, hshown, hitem, ProfileWidget.onMessageButtonClicked, huser]
      rfl

/-! ## The result -/

/--
**How the client ends.** In whatever state the program has got into, an event ends it just
when it is a response that cannot be printed, or nobody is authenticated and it is a channel
that arrives or a click on the button of a search result. Messages, deletions, replies that
can be printed and everything else the user can click are survived in any order, and so are
those two while there is a user.
-/
theorem client_ends_iff [Qt] (h : Application.system.Reachable Always a)
    (event : Application.Event) (fault : Fault) :
    a.react event = some (.error fault)
      ↔ fault = .typeError ∧ Unprintable event
        ∨ fault = .thrown .badOptionalAccess ∧ a.session.authenticatedUser = none
          ∧ NeedsUser a event := by
  constructor
  · intro hthrows
    obtain hprints | ⟨huser, hneeds⟩ :=
      ends_of_throws (onScreen_reachable h) (backed_behind h) hthrows
    · have hfault := hthrows.symm.trans (throws_of_unprintable hprints)
      exact Or.inl ⟨Except.error.inj (Option.some.inj hfault), hprints⟩
    · have hfault := hthrows.symm.trans (throws_of_needsUser huser hneeds)
      exact Or.inr ⟨Except.error.inj (Option.some.inj hfault), huser, hneeds⟩
  · rintro (⟨rfl, hprints⟩ | ⟨rfl, huser, hneeds⟩)
    · exact throws_of_unprintable hprints
    · exact throws_of_needsUser huser hneeds

/-- Ada deletes her account while the results of a search are on their way. -/
def lateResults : List Application.Event :=
  [.connected,
    .submitLogin [0x61] [0x62],
    .received (.login (.ok (.new (.ofByte 1) (lit "ada") (lit "Ada")))),
    .search [0x62],
    .deleteAccount [0x61] [0x62],
    .received (.deleteAccount (.ok (.new (.ofByte 1) (lit "ada") (lit "Ada")))),
    .received (.listAccounts (.ok [.new (.ofByte 2) (lit "bob") (lit "Bob")]))]

theorem lateResults_runs :
    ((@Application.system utf8Qt).exec Always Application.new lateResults).isSome := by
  decide

/-- A click on Bob ends the program. -/
theorem client_ends_iff_bob :
    @Application.react utf8Qt (((@Application.system utf8Qt).exec Always Application.new
        lateResults).get lateResults_runs) (.messageUser 0)
      = some (.error (.thrown .badOptionalAccess)) :=
  (@client_ends_iff _ utf8Qt (System.Reachable.exec_get lateResults_runs) _ _).mpr
    (Or.inr ⟨rfl, rfl, @NeedsUser.result _ 0 (.new (.ofByte 2) (lit "bob") (lit "Bob")) rfl rfl⟩)

end SockEtOut.Proof
