import SockEtOut.Lib.Simulation
import SockEtOut.Proof.Screen

/-!
# Whom the requests speak for

The server believes what a request says of its sender, so it is the client that has to
put the right user into it. A text and a new channel take the user from the session when
they are sent. A message has a button that deletes it if it was the user's when it came on
the screen, and is not looked at again.

Nothing takes the messages off the screen but the next chat. `ChatArea::reset` leaves them,
and with them their buttons, for whoever logs in next. So the requests speak for the user
if users log in on an empty screen only, and what the reset leaves is the subject of the
second part.
-/

namespace SockEtOut.Proof

open Lib System

variable {a b : Application} {event : Application.Event}

/-- Users log in when there are no messages on the screen. -/
def OnEmptyScreen (a : Application) : Application.Event → Prop
  | .received (.login (.ok _)) => a.chatArea.messageLayout = []
  | _ => True

instance (a : Application) (event : Application.Event) : Decidable (OnEmptyScreen a event) := by
  unfold OnEmptyScreen
  split <;> infer_instance

/-- Messages are kept under their own channel. -/
def Filed (session : Session) : Prop :=
  ∀ c ms, session.channelMessages.lookup c = some ms → ∀ m ∈ ms, m.channelId = c

/-- The buttons are the user's. -/
structure Marked (d : Desk) : Prop where
  own : ∀ user, d.session.authenticatedUser = some user → ∀ w ∈ d.chatArea.messageLayout,
    w.isMe = decide (w.message.senderId = user.uid)
  /-- Messages are on the screen of a user because a chat is open. -/
  open_ : d.session.authenticatedUser.isSome → d.session.openChannel = none →
    d.chatArea.messageLayout = []
  filed : Filed d.session

theorem marked_new : Marked (desk .new) where
  own user h := by cases h
  open_ h := by cases h
  filed c ms h := by simp [desk, Application.new, Session.new] at h

/-- A widget is the user's if its message is. -/
theorem new_own {session : Session} {m : Message} {w : MessageWidget} {user : User}
    (huser : session.authenticatedUser = some user) (h : MessageWidget.new session m = .ok w) :
    w.isMe = decide (w.message.senderId = user.uid) := by
  unfold MessageWidget.new at h
  rw [huser] at h
  cases h
  rfl

theorem mapM_own {session : Session} {user : User} (huser : session.authenticatedUser = some user)
    {ms : List Message} {ws : List MessageWidget}
    (h : ms.mapM (MessageWidget.new session) = .ok ws) :
    ∀ w ∈ ws, w.isMe = decide (w.message.senderId = user.uid) := by
  have hall := forall₂_of_mapM h
  clear h
  induction hall with
  | nil => exact fun w hw => absurd hw List.not_mem_nil
  | cons hw _ ih =>
      intro v hv
      rcases List.mem_cons.mp hv with rfl | hv
      · exact new_own huser hw
      · exact ih v hv

/-- Messages are filed when a channel is opened, too. -/
theorem filed_of_opening {d : Desk} {channel : Channel} {session : Session} {chats : List Channel}
    (hfiled : Filed d.session) (h : Opening d channel event session chats) : Filed session := by
  cases h with
  | created h =>
      unfold Session.onCreateChannelResponse at h
      split at h
      · cases h
      · cases h
        intro c ms hms
        dsimp only [Session.setActiveChannel, Session.addChannel] at hms
        rw [Table.lookup_assign] at hms
        split at hms
        · cases hms
          exact fun m hm => absurd hm List.not_mem_nil
        · exact hfiled c ms hms
  | selected => exact hfiled

theorem marked_opened {d : Desk} {channel : Channel} {session : Session} {chats : List Channel}
    {chatArea : ChatArea} (h : Marked d) (hopening : Opening d channel event session chats)
    (hshown : d.chatArea.onActiveChannelChanged session channel = .ok chatArea) :
    Marked ⟨session, chats, chatArea⟩ := by
  obtain ⟨hopen, -⟩ := opening_cases hopening
  obtain ⟨ms, layout, -, -, hlayout, rfl⟩ := opened_cases hshown
  refine ⟨fun user huser => mapM_own huser hlayout, fun _ hnone => ?_,
    filed_of_opening h.filed hopening⟩
  rw [hopen] at hnone
  cases hnone

theorem marked_added {d : Desk} {message : Message} {session : Session} {chatArea : ChatArea}
    (h : Marked d) (hadd : d.session.addMessage message = .ok session)
    (hshown : d.chatArea.onSendMessageSuccess session message = .ok chatArea) :
    Marked ⟨session, d.activeChats, chatArea⟩ := by
  obtain ⟨hopen, huser, hmessages⟩ := session_of_addMessage hadd
  have hfiled : Filed session := by
    intro c ms hms
    rw [hmessages] at hms
    split at hms
    · rename_i heq
      obtain ⟨old, hold, rfl⟩ := Option.map_eq_some_iff.mp hms
      intro m hm
      rcases List.mem_append.mp hm with hm | hm
      · exact h.filed c old hold m hm
      · rw [List.mem_singleton.mp hm, heq]
    · exact h.filed c ms hms
  obtain ⟨-, rfl⟩ | ⟨w, hthis, hw, rfl⟩ := sent_cases hshown
  · exact ⟨fun user hu => h.own user (huser ▸ hu), fun hu hnone => h.open_ (huser ▸ hu)
      (hopen ▸ hnone), hfiled⟩
  · refine ⟨fun user hu v hv => ?_, fun _ hnone => ?_, hfiled⟩
    · rcases List.mem_append.mp hv with hv | hv
      · exact h.own user (huser ▸ hu) v hv
      · rw [List.mem_singleton.mp hv]
        exact new_own hu hw
    · rw [hthis] at hnone
      cases hnone

theorem marked_removed {d : Desk} {message : Message} {session : Session} (h : Marked d)
    (hremove : d.session.removeMessage message = .ok session) :
    Marked ⟨session, d.activeChats, d.chatArea.onDeleteMessageSuccess session message⟩ := by
  obtain ⟨hopen, huser, hmessages⟩ := session_of_removeMessage hremove
  obtain ⟨layout, hsub, harea⟩ := deleted_cases d.chatArea session message
  rw [harea]
  refine ⟨fun user hu w hw => h.own user (huser ▸ hu) w (hsub.subset hw), fun hu hnone => ?_,
    fun c ms hms => h.filed c ms (hmessages ▸ hms)⟩
  have hempty := h.open_ (huser ▸ hu) (hopen ▸ hnone)
  rw [hempty] at hsub
  exact List.sublist_nil.mp hsub

/-- **Preserved by every turn**, if users log in on an empty screen. -/
theorem marked_turn {d' : Desk} (h : Marked (desk a)) (hempty : OnEmptyScreen a event)
    (hturn : Turn (desk a) event d') : Marked d' := by
  cases hturn with
  | still => exact h
  | typed text =>
      refine ⟨fun user huser => ?_, fun huser hnone => ?_, h.filed⟩
      · dsimp only
        rw [setText_messageLayout]
        exact h.own user huser
      · dsimp only
        rw [setText_messageLayout]
        exact h.open_ huser hnone
  | loggedIn user =>
      have hlayout : (desk a).chatArea.messageLayout = [] := hempty
      refine ⟨fun user _ w hw => ?_, fun _ _ => hlayout, h.filed⟩
      rw [hlayout] at hw
      cases hw
  | reset =>
      refine ⟨fun user huser => ?_, fun huser => ?_, marked_new.filed⟩
      · cases huser
      · cases huser
  | opened hopening hshown => exact marked_opened h hopening hshown
  | added hadd hshown => exact marked_added h hadd hshown
  | removed hremove => exact marked_removed h hremove

theorem marked_reachable [Qt] (h : Application.system.Reachable OnEmptyScreen a) :
    Marked (desk a) :=
  h.invariant (P := fun a => Marked (desk a)) marked_new
    fun _ _ _ _ hmarked hg hs => marked_turn hmarked hg (turn_of_step hs)

/-! ## Requests -/

/-- A request is made for the user, and about the chat that is open. -/
def SpeaksFor (a : Application) (user : User) : RequestMessage → Prop
  | .sendMessage m =>
      m.senderUid = user.uid ∧ a.session.openChannel = some m.channelUid
        ∧ ∃ channel ∈ a.sidebar.activeChats, channel.uid = m.channelUid
          ∧ a.chatArea.chatTitle = channel.name
  | .createChannel m => user.uid ∈ m.members
  | .deleteMessage m =>
      a.session.openChannel = some m.channelUid
        ∧ ∃ ms, a.session.channelMessages.lookup m.channelUid = some ms
          ∧ ∃ message ∈ ms, message.snowflake = m.messageSnowflake
            ∧ message.senderId = user.uid
  | .registerAccount _ | .login _ | .listAccounts _ | .deleteAccount _ => True

/-- What is sent is sent as the user's, to the open chat. -/
theorem sent_speaksFor [Qt] {session : Session} {user : User} {text : QString}
    {m : SendMessageMessage} (huser : session.authenticatedUser = some user)
    (h : ChatArea.sendMessage session text = .ok (some m)) :
    m.senderUid = user.uid ∧ session.openChannel = some m.channelUid := by
  unfold ChatArea.sendMessage at h
  split at h
  · cases h
  · rename_i hopen
    split at h
    · cases h
    · rw [huser] at h
      cases h
      exact ⟨rfl, hopen⟩

/-- What is on the screen of a user is a message of the open chat. -/
theorem widget_of_open {w : MessageWidget} {user : User} (hscreen : OnScreen (desk a))
    (hmarked : Marked (desk a)) (huser : a.session.authenticatedUser = some user)
    (hw : w ∈ a.chatArea.messageLayout) :
    a.session.openChannel = some w.message.channelId
      ∧ ∃ ms, a.session.channelMessages.lookup w.message.channelId = some ms
        ∧ w.message ∈ ms := by
  cases hopen : a.session.openChannel with
  | none =>
      have hnone : a.chatArea.messageLayout = [] :=
        hmarked.open_ (by show a.session.authenticatedUser.isSome; rw [huser]; rfl) hopen
      rw [hnone] at hw
      cases hw
  | some c =>
      obtain ⟨ms, hms, hsub⟩ := hscreen.shown c hopen
      have hmem : w.message ∈ ms := hsub.subset (List.mem_map_of_mem hw)
      have hc : w.message.channelId = c := hmarked.filed c ms hms _ hmem
      exact ⟨congrArg some hc.symm, ms, hc ▸ hms, hmem⟩

/--
**Requests speak for the user.** If users log in on an empty screen only, then whatever has
happened before and whatever is clicked: a text is sent as the authenticated user's and to
the channel whose name is the title, a channel that is asked for has the user in it, and a
message that is to be deleted is one that the user has sent to the open chat.
-/
theorem requests_speak_for_user [Qt] (h : Application.system.Reachable OnEmptyScreen a)
    {user : User} (huser : a.session.authenticatedUser = some user) {m : RequestMessage}
    (hreact : a.react event = some (.ok (b, some m))) : SpeaksFor a user m := by
  have hrun : Application.system.Reachable Always a := h.mono fun _ _ _ => trivial
  have hscreen := onScreen_reachable hrun
  have hmarked := marked_reachable h
  cases event with
  | connected | disconnected | disconnect | registrationDisconnect | turnTab | turnSidebarTab
  | typeText => cases hreact
  | received r =>
      obtain ⟨c, -, heq⟩ := map_eq_ok (Option.some.inj hreact)
      cases heq
  | select item =>
      obtain ⟨channel, -, hopened⟩ := Option.map_eq_some_iff.mp hreact
      obtain ⟨c, -, heq⟩ := map_eq_ok hopened
      cases heq
  | search query =>
      cases hreact
      trivial
  | submitLogin username password =>
      simp only [Application.react] at hreact
      split at hreact
      · cases hreact
      · split at hreact <;> cases hreact
        trivial
  | submitRegistration username displayName password =>
      simp only [Application.react] at hreact
      split at hreact
      · cases hreact
      · split at hreact <;> cases hreact
        trivial
  | deleteAccount username password =>
      simp only [Application.react] at hreact
      split at hreact <;> cases hreact
      trivial
  | messageUser item =>
      simp only [Application.react] at hreact
      split at hreact
      · cases hreact
      · obtain ⟨account, -, hclick⟩ := Option.map_eq_some_iff.mp hreact
        -- the user is put in front of the account
        simp only [ProfileWidget.onMessageButtonClicked, huser] at hclick
        cases hclick
        exact List.mem_cons_self
  | send =>
      simp only [Application.react, Option.some.injEq] at hreact
      split at hreact
      · cases hreact
      · cases hreact
      · rename_i hsent
        cases hreact
        obtain ⟨hsender, hopen⟩ := sent_speaksFor huser hsent
        exact ⟨hsender, hopen, hscreen.title _ hopen⟩
  | deleteMessage item =>
      simp only [Application.react] at hreact
      split at hreact
      · cases hreact
      · rename_i w hitem
        split at hreact
        · rename_i hme
          cases hreact
          -- only a widget of the user who is logged in has the button
          have hw := List.mem_of_getElem? hitem
          obtain ⟨hopen, ms, hms, hmem⟩ := widget_of_open hscreen hmarked huser hw
          refine ⟨hopen, ms, hms, w.message, hmem, rfl, ?_⟩
          have hown := hmarked.own user huser w hw
          rw [hme] at hown
          exact of_decide_eq_true hown.symm
        · cases hreact

theorem adaTypes_onEmptyScreen :
    ((@Application.system utf8Qt).exec OnEmptyScreen Application.new adaTypes).isSome := by
  decide

/-- The message that is left is hers to delete. -/
theorem requests_speak_for_user_ada :
    SpeaksFor (((@Application.system utf8Qt).exec OnEmptyScreen Application.new adaTypes).get
        adaTypes_onEmptyScreen)
      ((User.new (.ofByte 1) (lit "ada") (lit "Ada")).addChannel (.ofByte 7))
      (.deleteMessage ⟨.ofByte 7, 6⟩) :=
  @requests_speak_for_user _ _ (.deleteMessage 0) utf8Qt
    (System.Reachable.exec_get adaTypes_onEmptyScreen) _ rfl _ rfl

/-! ## What a reset leaves -/

/-- No channel arrives. -/
def NoChannel (_ : Application) : Application.Event → Prop
  | .received (.createChannel (.ok _)) => False
  | _ => True

instance (a : Application) (event : Application.Event) : Decidable (NoChannel a event) := by
  unfold NoChannel
  split <;> infer_instance

/-- No chat is open and there is none to open, and these are the messages on the screen. -/
structure Idle (layout : List MessageWidget) (d : Desk) : Prop where
  opened : d.session.openChannel = none
  listed : d.activeChats = []
  layout : d.chatArea.messageLayout = layout

theorem idle_of_clears [Qt] (hclears : Clears event) (hs : a.step event = some b) :
    Idle a.chatArea.messageLayout (desk b) := by
  cases hclears with
  | disconnect =>
      cases hs
      exact ⟨rfl, rfl, setText_messageLayout _ _ _⟩
  | deleted user =>
      unfold Application.step at hs
      split at hs
      · rename_i hreact
        cases hs
        obtain ⟨c, hreceive, hb⟩ := map_eq_ok (Option.some.inj hreact)
        cases hb
        cases dispatch_of_receive hreceive
        exact ⟨rfl, rfl, setText_messageLayout _ _ _⟩
      · cases hs

/-- Only a channel that arrives takes them off. -/
theorem idle_turn {layout : List MessageWidget} {d' : Desk} (h : Idle layout (desk a))
    (hno : NoChannel a event) (hturn : Turn (desk a) event d') : Idle layout d' := by
  cases hturn with
  | still => exact h
  | typed text => exact ⟨h.opened, h.listed, (setText_messageLayout _ _ _).trans h.layout⟩
  | loggedIn user => exact ⟨h.opened, h.listed, h.layout⟩
  | reset => exact ⟨rfl, rfl, (setText_messageLayout _ _ _).trans h.layout⟩
  | opened hopening =>
      cases hopening with
      | created => exact hno.elim
      | selected hitem =>
          rw [h.listed] at hitem
          cases hitem
  | added hadd hshown =>
      obtain ⟨hopen, -⟩ := session_of_addMessage hadd
      obtain ⟨-, rfl⟩ | ⟨w, hthis, -⟩ := sent_cases hshown
      · exact ⟨hopen.trans h.opened, h.listed, h.layout⟩
      · rw [hopen, h.opened] at hthis
        cases hthis
  | @removed message session hremove =>
      obtain ⟨hopen, -⟩ := session_of_removeMessage hremove
      refine ⟨hopen.trans h.opened, h.listed, ?_⟩
      unfold ChatArea.onDeleteMessageSuccess
      rw [if_neg (by rw [hopen, h.opened]; exact nofun)]
      exact h.layout

/--
**The messages stay for the next user.** When the user has disconnected or the account has
been deleted, the messages of the chat that was open stay on the screen until a channel
arrives, whatever else arrives or is clicked and whoever logs in. Their buttons stay, and a
click on one asks the server to delete the message.
-/
theorem messages_outlive_user [Qt] (hclears : Clears event) (hs : a.step event = some b)
    {c : Application} (hrun : (Application.system.resume b).Reachable NoChannel c) :
    c.chatArea.messageLayout = a.chatArea.messageLayout
      ∧ ∀ (item : Nat) (w : MessageWidget), a.chatArea.messageLayout[item]? = some w →
        w.isMe = true →
        c.react (.deleteMessage item)
          = some (.ok (c, some (TcpClient.deleteMessage w.message))) := by
  have hidle : Idle a.chatArea.messageLayout (desk c) :=
    hrun.invariant (P := fun c => Idle a.chatArea.messageLayout (desk c))
      (idle_of_clears hclears hs) fun _ _ _ _ hidle hg hs => idle_turn hidle hg (turn_of_step hs)
  have hlayout : c.chatArea.messageLayout = a.chatArea.messageLayout := hidle.layout
  refine ⟨hlayout, fun item w hitem hme => ?_⟩
  simp only [Application.react, hlayout, hitem, hme, if_true]

/-- Ada disconnects, and Bob logs in where she was. -/
def bobAfterAda : List Application.Event :=
  [.disconnected, .connected, .submitLogin [0x62] [0x62],
    .received (.login (.ok (.new (.ofByte 2) (lit "bob") (lit "Bob"))))]

/-- Where Ada left. -/
def adaLeft : Application :=
  ((@Application.system utf8Qt).exec Always Application.new adaTypes).get adaTypes_runs

theorem bobAfterAda_runs :
    (((@Application.system utf8Qt).resume adaLeft.reset).exec NoChannel adaLeft.reset
      bobAfterAda).isSome := by
  decide

def bobThere : Application :=
  (((@Application.system utf8Qt).resume adaLeft.reset).exec NoChannel adaLeft.reset
    bobAfterAda).get bobAfterAda_runs

/-- Bob can have Ada's message deleted. -/
theorem messages_outlive_user_ada :
    @Application.react utf8Qt bobThere (.deleteMessage 0)
      = some (.ok (bobThere, some (.deleteMessage ⟨.ofByte 7, 6⟩))) :=
  (@messages_outlive_user adaLeft adaLeft.reset .disconnect utf8Qt .disconnect rfl bobThere
    (System.Reachable.exec_get bobAfterAda_runs)).2 0
      ⟨.new (.ofByte 1) (.ofByte 7) (lit "you") 6 6, true⟩ rfl rfl

end SockEtOut.Proof
