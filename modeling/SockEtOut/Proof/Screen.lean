import SockEtOut.Client.Application
import SockEtOut.Proof.ChatTexts
import SockEtOut.Proof.OpenChannel

/-!
# What is on the screen

`Turn` says once what an event can do to what the user looks at: the session, the list of
chats and the open chat. Nothing the user clicks and nothing that arrives does anything
else to them, in whatever order it comes.

While a chat is open the screen shows messages that the session has of it, in their order,
and all of them if none has been deleted. Without one there is nothing to type into. And
as no chat is open without a user, the program ends by an exception in two cases only.
-/

namespace SockEtOut.Proof

open Lib System

variable {a b : Application} {event : Application.Event}

/-! ## What an event can do -/

/-- What the user looks at when logged in. -/
structure Desk where
  session : Session
  activeChats : List Channel
  chatArea : ChatArea

def desk (a : Application) : Desk := ⟨a.session, a.sidebar.activeChats, a.chatArea⟩

/-- A channel becomes the active one: a new one that is listed then, or one that is listed. -/
inductive Opening (d : Desk) (channel : Channel) :
    Application.Event → Session → List Channel → Prop where
  | created {session : Session} (h : d.session.onCreateChannelResponse channel = .ok session) :
      Opening d channel (.received (.createChannel (.ok channel))) session
        (d.activeChats ++ [channel])
  | selected {item : Nat} (h : d.activeChats[item]? = some channel) :
      Opening d channel (.select item) (d.session.setActiveChannel channel) d.activeChats

/-- The events that clear everything. -/
inductive Clears : Application.Event → Prop where
  | disconnect : Clears .disconnect
  | deleted (user : User) : Clears (.received (.deleteAccount (.ok user)))

inductive Turn (d : Desk) : Application.Event → Desk → Prop where
  | still {event : Application.Event} : Turn d event d
  | typed {event : Application.Event} (text : QString) (hshort : text.length ≤ ChatArea.maxLength)
      (henabled : d.chatArea.inputEnabled = true ∨ text = []) :
      Turn d event { d with chatArea := d.chatArea.setText d.session text }
  | loggedIn (user : User) :
      Turn d (.received (.login (.ok user)))
        { d with session := { d.session with authenticatedUser := some user } }
  | reset {event : Application.Event} (h : Clears event) :
      Turn d event ⟨.new, [], d.chatArea.reset .new⟩
  | opened {event : Application.Event} {channel : Channel} {session : Session}
      {chats : List Channel} {chatArea : ChatArea} (h : Opening d channel event session chats)
      (hshown : d.chatArea.onActiveChannelChanged session channel = .ok chatArea) :
      Turn d event ⟨session, chats, chatArea⟩
  | added {message : Message} {session : Session} {chatArea : ChatArea}
      (h : d.session.addMessage message = .ok session)
      (hshown : d.chatArea.onSendMessageSuccess session message = .ok chatArea) :
      Turn d (.received (.sendMessage (.ok message))) ⟨session, d.activeChats, chatArea⟩
  | removed {message : Message} {session : Session}
      (h : d.session.removeMessage message = .ok session) :
      Turn d (.received (.deleteMessage (.ok message)))
        ⟨session, d.activeChats, d.chatArea.onDeleteMessageSuccess session message⟩

theorem dispatch_of_receive {r : Response} (h : a.receive r = .ok b) : a.dispatch r = .ok b := by
  unfold Application.receive at h
  split at h
  · exact h
  · cases h

/-- A handler that succeeds has had its session handled. -/
theorem handled_of_dispatch {r : Response} (h : a.dispatch r = .ok b) :
    ∃ session, a.session.handle r = .ok session := by
  unfold Application.dispatch at h
  split at h
  · cases h
  · rename_i session hsession
    exact ⟨session, hsession⟩

theorem map_eq_ok {ε α β : Type} {f : α → β} {x : Except ε α} {y : β} (h : x.map f = .ok y) :
    ∃ z, x = .ok z ∧ f z = y := by
  cases x with
  | error e => cases h
  | ok z => exact ⟨z, rfl, Except.ok.inj h⟩

/-- The results of a traversal that succeeds, one by one. -/
theorem forall₂_of_mapM {ε α β : Type} {f : α → Except ε β} : ∀ {as : List α} {bs : List β},
    as.mapM f = .ok bs → List.Forall₂ (fun a b => f a = .ok b) as bs := by
  intro as
  induction as with
  | nil =>
      intro bs h
      cases h
      exact .nil
  | cons a as ih =>
      intro bs h
      rw [List.mapM_cons] at h
      cases ha : f a with
      | error e =>
          rw [ha] at h
          cases h
      | ok b =>
          rw [ha] at h
          cases hrest : as.mapM f with
          | error e =>
              rw [hrest] at h
              cases h
          | ok rest =>
              rw [hrest] at h
              cases h
              exact .cons ha (ih hrest)

theorem turn_of_receive {r : Response} (h : a.receive r = .ok b) :
    Turn (desk a) (.received r) (desk b) := by
  replace h := dispatch_of_receive h
  obtain ⟨session, hsession⟩ := handled_of_dispatch h
  unfold Application.dispatch at h
  rw [hsession] at h
  cases r with
  | registerAccount data | listAccounts data =>
      cases hsession
      cases data <;> cases h <;> exact .still
  | login data =>
      cases data with
      | error e =>
          cases hsession
          cases h
          exact .still
      | ok user =>
          cases hsession
          cases h
          exact .loggedIn user
  | deleteAccount data =>
      cases data with
      | error e =>
          cases hsession
          cases h
          exact .still
      | ok user =>
          cases h
          exact .reset (.deleted user)
  | createChannel data =>
      cases data with
      | error e =>
          cases hsession
          cases h
          exact .still
      | ok channel =>
          -- two slots: the chat is opened, and then the list gets its item
          obtain ⟨c, hc, rfl⟩ := map_eq_ok h
          obtain ⟨chatArea, harea, rfl⟩ := map_eq_ok hc
          exact .opened (.created hsession) harea
  | sendMessage data =>
      cases data with
      | error e =>
          cases hsession
          cases h
          exact .still
      | ok message =>
          obtain ⟨chatArea, harea, rfl⟩ := map_eq_ok h
          exact .added hsession harea
  | deleteMessage data =>
      cases data with
      | error e =>
          cases hsession
          cases h
          exact .still
      | ok message =>
          cases h
          exact .removed hsession

/-- **Whatever happens is a turn.** -/
theorem turn_of_react [Qt] {m : Option RequestMessage}
    (h : a.react event = some (.ok (b, m))) : Turn (desk a) event (desk b) := by
  cases event with
  | connected | disconnected | registrationDisconnect | turnTab | turnSidebarTab =>
      cases h
      exact .still
  | disconnect =>
      cases h
      exact .reset .disconnect
  | received r =>
      obtain ⟨c, hc, hb⟩ := map_eq_ok (Option.some.inj h)
      cases hb
      exact turn_of_receive hc
  | submitLogin username password =>
      simp only [Application.react] at h
      split at h
      · cases h
      · split at h <;> cases h <;> exact .still
  | submitRegistration username displayName password =>
      simp only [Application.react] at h
      split at h
      · cases h
      · split at h <;> cases h <;> exact .still
  | deleteAccount username password =>
      simp only [Application.react] at h
      split at h <;> cases h <;> exact .still
  | search query =>
      cases h
      exact .still
  | messageUser item =>
      simp only [Application.react] at h
      split at h
      · cases h
      · obtain ⟨user, -, huser⟩ := Option.map_eq_some_iff.mp h
        split at huser
        · cases huser
        · cases huser
          exact .still
  | select item =>
      obtain ⟨channel, hitem, hopened⟩ := Option.map_eq_some_iff.mp h
      obtain ⟨c, hc, hb⟩ := map_eq_ok hopened
      cases hb
      obtain ⟨chatArea, harea, rfl⟩ := map_eq_ok hc
      exact .opened (.selected hitem) harea
  | typeText text =>
      cases h
      show Turn _ _ ⟨a.session, a.sidebar.activeChats, a.chatArea.typeText a.session text⟩
      -- only an enabled input takes a key
      unfold ChatArea.typeText
      split
      · rename_i henabled
        exact .typed _ (List.length_take_le _ _) (Or.inl henabled)
      · exact .still
  | send =>
      simp only [Application.react, Option.some.injEq] at h
      split at h
      · cases h
      · cases h
        exact .still
      · cases h
        exact .typed [] (Nat.zero_le _) (Or.inr rfl)
  | deleteMessage item =>
      simp only [Application.react] at h
      split at h
      · cases h
      · split at h
        · cases h
          exact .still
        · cases h

theorem turn_of_step [Qt] (h : a.step event = some b) : Turn (desk a) event (desk b) := by
  unfold Application.step at h
  split at h
  · rename_i hreact
    cases h
    exact turn_of_react hreact
  · cases h

/-! ## The screen and the session -/

/-- What is to be seen of a chat, next to what the session has of it. -/
structure OnScreen (d : Desk) : Prop where
  /-- With no chat open there is none to open either, and nothing to type into. -/
  closed : d.session.openChannel = none →
    d.activeChats = [] ∧ d.chatArea.chatTitle = [] ∧ d.chatArea.inputEnabled = false
      ∧ d.chatArea.messageInput = []
  user : d.session.openChannel.isSome → d.session.authenticatedUser.isSome
  enabled : d.session.openChannel.isSome → d.chatArea.inputEnabled = true
  /-- The title is the name of a listed channel that has the uid of the open one. -/
  title : ∀ c, d.session.openChannel = some c →
    ∃ channel ∈ d.activeChats, channel.uid = c ∧ d.chatArea.chatTitle = channel.name
  /-- What is shown is part of what the session has, in the same order. -/
  shown : ∀ c, d.session.openChannel = some c → ∃ ms, d.session.channelMessages.lookup c = some ms
    ∧ List.Sublist (d.chatArea.messageLayout.map MessageWidget.message) ms
  send : d.chatArea.sendEnabled
    = (d.session.openChannel.isSome && decide (d.chatArea.messageInput ≠ []))
  short : d.chatArea.messageInput.length ≤ ChatArea.maxLength

theorem onScreen_new : OnScreen (desk .new) where
  closed _ := ⟨rfl, rfl, rfl, rfl⟩
  user h := by cases h
  enabled h := by cases h
  title c h := by cases h
  shown c h := by cases h
  send := rfl
  short := Nat.zero_le _

/-- Text that is set, and the button that goes with it. -/
theorem setText_cases (a : ChatArea) (session : Session) (text : QString) :
    (text = a.messageInput ∧ a.setText session text = a)
      ∨ a.setText session text
        = { a with
            messageInput := text
            sendEnabled := session.openChannel.isSome && decide (text ≠ []) } := by
  unfold ChatArea.setText
  split
  · rename_i h
    exact Or.inl ⟨h, rfl⟩
  · exact Or.inr rfl

/-- A widget is of its message. -/
theorem new_message {session : Session} {m : Message} {w : MessageWidget}
    (h : MessageWidget.new session m = .ok w) : w.message = m := by
  unfold MessageWidget.new at h
  split at h
  · cases h
  · cases h
    rfl

/-- The widgets are of the messages, in their order. -/
theorem messages_of_mapM {session : Session} {ms : List Message} {ws : List MessageWidget}
    (h : ms.mapM (MessageWidget.new session) = .ok ws) : ws.map MessageWidget.message = ms := by
  have hall := forall₂_of_mapM h
  clear h
  induction hall with
  | nil => rfl
  | cons hw _ ih => rw [List.map_cons, new_message hw, ih]

/-- A chat that has been opened shows all of its messages. -/
theorem opened_cases {area area' : ChatArea} {session : Session} {channel : Channel}
    (h : area.onActiveChannelChanged session channel = .ok area') :
    ∃ ms layout, session.getActiveChannelMessages = some ms
      ∧ layout.map MessageWidget.message = ms
      ∧ ms.mapM (MessageWidget.new session) = .ok layout
      ∧ area' = { area with
          inputEnabled := true, chatTitle := channel.name, messageLayout := layout } := by
  unfold ChatArea.onActiveChannelChanged at h
  split at h
  · cases h
  · rename_i ms hms
    obtain ⟨layout, hlayout, rfl⟩ := map_eq_ok h
    exact ⟨ms, layout, hms, messages_of_mapM hlayout, hlayout, rfl⟩

/-- What the session is once a channel is open. -/
theorem opening_cases {d : Desk} {channel : Channel} {session : Session} {chats : List Channel}
    (h : Opening d channel event session chats) :
    session.openChannel = some channel.uid ∧ channel ∈ chats
      ∧ (d.session.authenticatedUser.isSome → session.authenticatedUser.isSome)
      ∧ (session.authenticatedUser.isSome ∨ channel ∈ d.activeChats) := by
  cases h with
  | created h =>
      unfold Session.onCreateChannelResponse at h
      split at h
      · cases h
      · cases h
        exact ⟨rfl, List.mem_append_right _ (List.mem_singleton_self _), fun _ => rfl, Or.inl rfl⟩
  | selected h =>
      have hlisted := List.mem_of_getElem? h
      exact ⟨rfl, hlisted, id, Or.inr hlisted⟩

/-- Nothing but the lists changes when a message is added. -/
theorem session_of_addMessage {s s' : Session} {message : Message}
    (h : s.addMessage message = .ok s') :
    s'.openChannel = s.openChannel ∧ s'.authenticatedUser = s.authenticatedUser
      ∧ ∀ c, s'.channelMessages.lookup c
        = if c = message.channelId then
            (s.channelMessages.lookup c).map fun ms => ms ++ [message]
          else s.channelMessages.lookup c := by
  unfold Session.addMessage at h
  split at h
  · rename_i hnone
    cases h
    refine ⟨rfl, rfl, fun c => ?_⟩
    split
    · rename_i heq
      rw [heq, hnone]
      rfl
    · rfl
  · rename_i ms hms
    split at h
    · cases h
    · cases h
      refine ⟨rfl, rfl, fun c => ?_⟩
      dsimp only
      rw [Table.lookup_assign]
      split
      · rename_i heq
        rw [heq, hms]
        rfl
      · rfl

theorem session_of_removeMessage {s s' : Session} {message : Message}
    (h : s.removeMessage message = .ok s') :
    s'.openChannel = s.openChannel ∧ s'.authenticatedUser = s.authenticatedUser
      ∧ s'.channelMessages = s.channelMessages := by
  unfold Session.removeMessage at h
  split at h
  · cases h
    exact ⟨rfl, rfl, rfl⟩
  · split at h
    · cases h
    · cases h
      exact ⟨rfl, rfl, rfl⟩

/-- A widget more, if the message is of the open chat. -/
theorem sent_cases {area area' : ChatArea} {session : Session} {message : Message}
    (h : area.onSendMessageSuccess session message = .ok area') :
    (session.openChannel ≠ some message.channelId ∧ area' = area)
      ∨ ∃ w, session.openChannel = some message.channelId
        ∧ MessageWidget.new session message = .ok w
        ∧ area' = { area with messageLayout := area.messageLayout ++ [w] } := by
  unfold ChatArea.onSendMessageSuccess at h
  split at h
  · rename_i hopen
    obtain ⟨w, hw, rfl⟩ := map_eq_ok h
    exact Or.inr ⟨w, hopen, hw, rfl⟩
  · rename_i hopen
    cases h
    exact Or.inl ⟨hopen, rfl⟩

/-- Fewer widgets and nothing else. -/
theorem deleted_cases (area : ChatArea) (session : Session) (message : Message) :
    ∃ layout, List.Sublist layout area.messageLayout
      ∧ area.onDeleteMessageSuccess session message = { area with messageLayout := layout } := by
  unfold ChatArea.onDeleteMessageSuccess
  split
  · exact ⟨_, List.eraseP_sublist, rfl⟩
  · exact ⟨_, List.Sublist.refl _, rfl⟩

theorem onScreen_typed {d : Desk} {text : QString} (h : OnScreen d)
    (hshort : text.length ≤ ChatArea.maxLength)
    (henabled : d.chatArea.inputEnabled = true ∨ text = []) :
    OnScreen { d with chatArea := d.chatArea.setText d.session text } := by
  obtain ⟨-, hsame⟩ | hset := setText_cases d.chatArea d.session text
  · rw [hsame]
    exact h
  · rw [hset]
    refine ⟨fun hclosed => ?_, h.user, h.enabled, h.title, h.shown, rfl, hshort⟩
    obtain ⟨hchats, htitle, hinput, -⟩ := h.closed hclosed
    refine ⟨hchats, htitle, hinput, ?_⟩
    rcases henabled with henabled | htext
    · rw [hinput] at henabled
      cases henabled
    · exact htext

theorem onScreen_reset (d : Desk) : OnScreen ⟨.new, [], d.chatArea.reset .new⟩ := by
  have hinput : (d.chatArea.reset .new).messageInput = [] := by
    unfold ChatArea.reset
    obtain ⟨hsame, htext⟩ | htext := setText_cases { d.chatArea with inputEnabled := false } .new []
    · rw [htext]
      exact hsame.symm
    · rw [htext]
  have henabled : (d.chatArea.reset .new).inputEnabled = false := by
    unfold ChatArea.reset
    obtain ⟨-, htext⟩ | htext := setText_cases { d.chatArea with inputEnabled := false } .new []
    · rw [htext]
    · rw [htext]
  constructor
  · exact fun _ => ⟨rfl, rfl, henabled, hinput⟩
  · exact fun h => nomatch h
  · exact fun h => nomatch h
  · exact fun c h => nomatch h
  · exact fun c h => nomatch h
  · rfl
  · show (d.chatArea.reset .new).messageInput.length ≤ _
    rw [hinput]
    exact Nat.zero_le _

theorem onScreen_opened {d : Desk} {channel : Channel} {session : Session} {chats : List Channel}
    {chatArea : ChatArea} (h : OnScreen d) (hopening : Opening d channel event session chats)
    (hshown : d.chatArea.onActiveChannelChanged session channel = .ok chatArea) :
    OnScreen ⟨session, chats, chatArea⟩ := by
  obtain ⟨hopen, hlisted, hkept, huser⟩ := opening_cases hopening
  obtain ⟨ms, layout, hms, hlayout, -, rfl⟩ := opened_cases hshown
  rw [Session.getActiveChannelMessages, hopen] at hms
  refine ⟨fun hclosed => ?_, fun _ => ?_, fun _ => rfl, fun c hc => ?_, fun c hc => ?_, ?_, h.short⟩
  · rw [hopen] at hclosed
    cases hclosed
  · rcases huser with huser | hmem
    · exact huser
    · -- a chat that is listed has been listed since one was open
      refine hkept (h.user ?_)
      cases hbefore : d.session.openChannel with
      | some c => rfl
      | none =>
          rw [(h.closed hbefore).1] at hmem
          cases hmem
  · obtain rfl : channel.uid = c := Option.some.inj (hopen.symm.trans hc)
    exact ⟨channel, hlisted, rfl, rfl⟩
  · obtain rfl : channel.uid = c := Option.some.inj (hopen.symm.trans hc)
    exact ⟨ms, hms, hlayout ▸ List.Sublist.refl _⟩
  · show d.chatArea.sendEnabled = (session.openChannel.isSome && _)
    rw [hopen, h.send]
    cases hbefore : d.session.openChannel with
    | some c => rfl
    | none =>
        rw [(h.closed hbefore).2.2.2]
        rfl

theorem onScreen_added {d : Desk} {message : Message} {session : Session} {chatArea : ChatArea}
    (h : OnScreen d) (hadd : d.session.addMessage message = .ok session)
    (hshown : d.chatArea.onSendMessageSuccess session message = .ok chatArea) :
    OnScreen ⟨session, d.activeChats, chatArea⟩ := by
  obtain ⟨hopen, huser, hmessages⟩ := session_of_addMessage hadd
  obtain ⟨hother, rfl⟩ | ⟨w, hthis, hw, rfl⟩ := sent_cases hshown
  · refine ⟨fun hc => h.closed (hopen ▸ hc), fun hc => ?_, fun hc => h.enabled (hopen ▸ hc),
      fun c hc => h.title c (hopen ▸ hc), fun c hc => ?_, ?_, h.short⟩
    · rw [huser]
      exact h.user (hopen ▸ hc)
    · obtain ⟨ms, hms, hsub⟩ := h.shown c (hopen ▸ hc)
      have hne : c ≠ message.channelId := by
        rintro rfl
        exact hother hc
      exact ⟨ms, by rw [hmessages, if_neg hne, hms], hsub⟩
    · rw [hopen]
      exact h.send
  · refine ⟨fun hc => ?_, fun hc => ?_, fun hc => h.enabled (hopen ▸ hc),
      fun c hc => h.title c (hopen ▸ hc), fun c hc => ?_, ?_, h.short⟩
    · rw [hthis] at hc
      cases hc
    · rw [huser]
      exact h.user (hopen ▸ hc)
    · obtain ⟨ms, hms, hsub⟩ := h.shown c (hopen ▸ hc)
      obtain rfl : message.channelId = c := Option.some.inj (hthis.symm.trans hc)
      refine ⟨ms ++ [message], by rw [hmessages, if_pos rfl, hms]; rfl, ?_⟩
      rw [List.map_append, List.map_singleton, new_message hw]
      exact hsub.append (List.Sublist.refl _)
    · rw [hopen]
      exact h.send

theorem onScreen_removed {d : Desk} {message : Message} {session : Session} (h : OnScreen d)
    (hremove : d.session.removeMessage message = .ok session) :
    OnScreen ⟨session, d.activeChats, d.chatArea.onDeleteMessageSuccess session message⟩ := by
  obtain ⟨hopen, huser, hmessages⟩ := session_of_removeMessage hremove
  obtain ⟨layout, hsub, harea⟩ := deleted_cases d.chatArea session message
  rw [harea]
  refine ⟨fun hc => h.closed (hopen ▸ hc), fun hc => ?_, fun hc => h.enabled (hopen ▸ hc),
    fun c hc => h.title c (hopen ▸ hc), fun c hc => ?_, ?_, h.short⟩
  · rw [huser]
    exact h.user (hopen ▸ hc)
  · obtain ⟨ms, hms, hshown⟩ := h.shown c (hopen ▸ hc)
    exact ⟨ms, by rw [hmessages, hms], (hsub.map _).trans hshown⟩
  · rw [hopen]
    exact h.send

/-- **Preserved by every turn.** -/
theorem onScreen_turn {d d' : Desk} (h : OnScreen d) (hturn : Turn d event d') : OnScreen d' := by
  cases hturn with
  | still => exact h
  | typed text hshort henabled => exact onScreen_typed h hshort henabled
  | loggedIn user =>
      exact ⟨h.closed, fun _ => rfl, h.enabled, h.title, h.shown, h.send, h.short⟩
  | reset => exact onScreen_reset d
  | opened hopening hshown => exact onScreen_opened h hopening hshown
  | added hadd hshown => exact onScreen_added h hadd hshown
  | removed hremove => exact onScreen_removed h hremove

theorem onScreen_reachable [Qt] (h : Application.system.Reachable Always a) :
    OnScreen (desk a) :=
  h.invariant (P := fun a => OnScreen (desk a)) onScreen_new
    fun _ _ _ _ hscreen _ hs => onScreen_turn hscreen (turn_of_step hs)

/-! ## Chats that are shown whole -/

/-- No message is deleted. -/
def Undeleted (_ : Application) : Application.Event → Prop
  | .received (.deleteMessage (.ok _)) => False
  | _ => True

instance (a : Application) (event : Application.Event) : Decidable (Undeleted a event) := by
  unfold Undeleted
  split <;> infer_instance

/-- The open chat shows every message there is of it. -/
def Complete (d : Desk) : Prop :=
  ∀ c, d.session.openChannel = some c →
    d.session.channelMessages.lookup c = some (d.chatArea.messageLayout.map MessageWidget.message)

theorem setText_messageLayout (area : ChatArea) (session : Session) (text : QString) :
    (area.setText session text).messageLayout = area.messageLayout := by
  obtain ⟨-, htext⟩ | htext := setText_cases area session text <;> rw [htext]

theorem complete_turn {d d' : Desk} (h : Complete d) (hkept : Undeleted a event)
    (hturn : Turn d event d') : Complete d' := by
  cases hturn with
  | still => exact h
  | typed text =>
      intro c hc
      dsimp only
      rw [setText_messageLayout]
      exact h c hc
  | loggedIn user => exact h
  | reset => exact fun c hc => nomatch hc
  | opened hopening hshown =>
      intro c hc
      obtain ⟨hopen, -⟩ := opening_cases hopening
      obtain ⟨ms, layout, hms, hlayout, -, rfl⟩ := opened_cases hshown
      rw [Session.getActiveChannelMessages, hc] at hms
      exact hms.trans (congrArg some hlayout.symm)
  | @added message _ _ hadd hshown =>
      intro c hc
      obtain ⟨hopen, -, hmessages⟩ := session_of_addMessage hadd
      dsimp only at hc ⊢
      rw [hmessages, h c (hopen ▸ hc)]
      obtain ⟨hother, rfl⟩ | ⟨w, hthis, hw, rfl⟩ := sent_cases hshown
      · rw [if_neg fun heq : c = message.channelId => hother (heq ▸ hc)]
      · rw [if_pos (Option.some.inj (hc.symm.trans hthis)), List.map_append, List.map_singleton,
          new_message hw]
        rfl
  | removed => exact hkept.elim

theorem complete_new : Complete (desk .new) := by
  intro c hc
  cases hc

theorem complete_reachable [Qt] (h : Application.system.Reachable Undeleted a) :
    Complete (desk a) :=
  h.invariant (P := fun a => Complete (desk a)) complete_new
    fun _ _ _ _ hcomplete hg hs => complete_turn hcomplete hg (turn_of_step hs)

/-! ## The result -/

/--
**The screen shows the session.** Whatever the user does and whatever arrives: while a
channel is open its name is the title, its messages or what deletions have left of them are
shown in order, one can type and the button is there to be clicked when something is typed.
Without deletions all messages are shown. While none is open there is nothing of that.
-/
theorem screen_shows_session [Qt] (h : Application.system.Reachable Always a) :
    OnScreen (desk a) ∧ (Application.system.Reachable Undeleted a → Complete (desk a)) :=
  ⟨onScreen_reachable h, complete_reachable⟩

/-- Ada logs in and gets a channel and two messages, and while she types one of them is deleted. -/
def adaTypes : List Application.Event :=
  [.connected,
    .submitLogin [0x61] [0x62],
    .received (.login (.ok (.new (.ofByte 1) (lit "ada") (lit "Ada")))),
    .received (.createChannel (.ok (.new (.ofByte 7) (lit "plans") [.ofByte 1]))),
    .received (.sendMessage (.ok (.new (.ofByte 1) (.ofByte 7) (lit "hi") 5 5))),
    .received (.sendMessage (.ok (.new (.ofByte 1) (.ofByte 7) (lit "you") 6 6))),
    .typeText [0x68],
    .received (.deleteMessage (.ok (.new (.ofByte 1) (.ofByte 7) (lit "hi") 5 5)))]

theorem adaTypes_runs :
    ((@Application.system utf8Qt).exec Always Application.new adaTypes).isSome := by
  decide

/-- The button can be clicked. -/
theorem screen_shows_session_ada :
    (((@Application.system utf8Qt).exec Always Application.new adaTypes).get
      adaTypes_runs).chatArea.sendEnabled = true :=
  (@screen_shows_session _ utf8Qt (System.Reachable.exec_get adaTypes_runs)).1.send

end SockEtOut.Proof
