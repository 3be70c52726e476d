import SockEtOut.Client.Requests
import SockEtOut.Client.Windows

/-!
# The client program

The session with everything on its screen: the page, the tabs, the chat that is open
with a widget for each message. A handler first changes the session and then emits a
signal, whose slots are called at once; a click calls a slot. Whatever the user can
click can be clicked at any time: pages overlap for half a second while one slides
over the other. What a slot writes to the socket is part of the result.

The socket's own signals come when they come. Nothing here asks for the socket's state
but `connectToServer`, which only logs it. Styles, spinners' pictures and animations
are left out.
-/

namespace SockEtOut

open Lib

/-- What ends the program: an exception that no slot catches. -/
inductive Fault where
  | thrown (e : Exn)
  /-- `at` with a key that is not there. -/
  | outOfRange
  /-- `dump` of a string that is not UTF-8. -/
  | typeError

/-- The pages of the main window. -/
inductive Window where
  | connection
  | authentication
  | main
  deriving DecidableEq

inductive Tab where
  | login
  | register
  deriving DecidableEq

inductive ChatSidebarTab where
  | activeChats
  | search
  deriving DecidableEq

/-! ## Validated texts -/

/-- What `\S` does not match, as the expression is compiled. -/
def isWhitespace (c : UInt16) : Bool := c = 0x20 || (0x09 ≤ c && c ≤ 0x0D)

/-- `validate_text` with the validator `^\S+$`, of a text that the validator let in. -/
def validateText (text : QString) : Bool := text ≠ [] && text.all fun c => !isWhitespace c

/-! ## The open chat -/

/-- A message on the screen, and whether it has a button to delete it. -/
structure MessageWidget where
  message : Message
  isMe : Bool
  deriving DecidableEq

/-- The constructor asks for the user without a check. -/
def MessageWidget.new (session : Session) (message : Message) : Except Fault MessageWidget :=
  match session.authenticatedUser with
  | none => .error (.thrown .badOptionalAccess)
  | some user => .ok { message, isMe := message.senderId = user.uid }

structure ChatArea where
  chatTitle : Str
  /-- Whether `messageInput` takes input. -/
  inputEnabled : Bool
  messageInput : QString
  /-- Whether `sendButton` can be clicked. -/
  sendEnabled : Bool
  messageLayout : List MessageWidget

namespace ChatArea

def new : ChatArea where
  chatTitle := []
  inputEnabled := false
  messageInput := []
  sendEnabled := false
  messageLayout := []

def validateMessage (a : ChatArea) (session : Session) : ChatArea :=
  { a with sendEnabled := session.openChannel.isSome && a.messageInput ≠ [] }

/-- `setText` and `clear`, which emit `textChanged` if it has. -/
def setText (a : ChatArea) (session : Session) (text : QString) : ChatArea :=
  if text = a.messageInput then a else { a with messageInput := text }.validateMessage session

/-- What is typed, cut off at the maximal length. -/
def typeText (a : ChatArea) (session : Session) (text : QString) : ChatArea :=
  if a.inputEnabled then a.setText session (text.take maxLength) else a

/-- The channel has just been made the active one. -/
def onActiveChannelChanged (a : ChatArea) (session : Session) (channel : Channel) :
    Except Fault ChatArea :=
  match session.getActiveChannelMessages with
  | none => .error .outOfRange
  | some messages =>
      (messages.mapM (MessageWidget.new session)).map fun messageLayout =>
        { a with inputEnabled := true, chatTitle := channel.name, messageLayout }

def onSendMessageSuccess (a : ChatArea) (session : Session) (message : Message) :
    Except Fault ChatArea :=
  if session.openChannel = some message.channelId then
    (MessageWidget.new session message).map fun messageWidget =>
      { a with messageLayout := a.messageLayout ++ [messageWidget] }
  else .ok a

/-- The first widget with the snowflake goes. -/
def onDeleteMessageSuccess (a : ChatArea) (session : Session) (message : Message) : ChatArea :=
  if session.openChannel = some message.channelId then
    { a with
      messageLayout := a.messageLayout.eraseP fun widget =>
        widget.message.snowflake = message.snowflake }
  else a

/-- The widgets stay. -/
def reset (a : ChatArea) (session : Session) : ChatArea :=
  { { a with inputEnabled := false }.setText session [] with sendEnabled := false, chatTitle := [] }

end ChatArea

/-! ## The other windows -/

structure SearchTab where
  /-- Whether the results are hidden. -/
  loading : Bool
  searchResults : List User

structure ChatSidebar where
  tab : ChatSidebarTab
  activeChats : List Channel
  searchTab : SearchTab

structure AuthenticationWindow where
  tab : Tab
  /-- Whether the login's fields and button are hidden. -/
  loginLoading : Bool
  /-- The registration's. -/
  registrationLoading : Bool

namespace SearchTab

def reset (_ : SearchTab) : SearchTab where
  loading := false
  searchResults := []

end SearchTab

def ChatSidebar.reset (b : ChatSidebar) : ChatSidebar :=
  { b with activeChats := ActiveChatsTab.reset b.activeChats, searchTab := b.searchTab.reset }

def AuthenticationWindow.reset (w : AuthenticationWindow) : AuthenticationWindow :=
  { w with loginLoading := false, registrationLoading := false }

structure Application where
  session : Session
  page : Window
  authentication : AuthenticationWindow
  sidebar : ChatSidebar
  chatArea : ChatArea

namespace Application

def new : Application where
  session := .new
  page := .connection
  authentication := { tab := .login, loginLoading := false, registrationLoading := false }
  sidebar :=
    { tab := .activeChats, activeChats := []
      searchTab := { loading := false, searchResults := [] } }
  chatArea := .new

/-- `Session::reset`, which goes on to the windows when its own fields are cleared. -/
def reset (a : Application) : Application :=
  let session := a.session.reset
  { a with
    session
    authentication := a.authentication.reset
    sidebar := a.sidebar.reset
    chatArea := a.chatArea.reset session }

/-- `animatePageTransition` -/
def turnTo (a : Application) (page : Window) : Application := { a with page }

/-! ## Signals of the client -/

def onRegistrationSuccess (a : Application) : Application :=
  { a with
    authentication := { a.authentication with registrationLoading := false, tab := .login } }

def onRegistrationFailure (a : Application) : Application :=
  { a with authentication := { a.authentication with registrationLoading := false } }

def onLoginSuccess (a : Application) : Application :=
  { a with authentication := { a.authentication with loginLoading := false } }.turnTo .main

def onLoginFailure (a : Application) : Application :=
  { a with authentication := { a.authentication with loginLoading := false } }

def onSearchSuccess (a : Application) (accounts : List User) : Application :=
  { a with
    sidebar := { a.sidebar with searchTab := { loading := false, searchResults := accounts } } }

def onSearchFailure (a : Application) : Application :=
  { a with
    sidebar := { a.sidebar with searchTab := { a.sidebar.searchTab with loading := false } } }

/-- `set_active_channel` has emitted its signal by the time the next one comes. -/
def onChannelOpened (a : Application) (channel : Channel) : Except Fault Application :=
  (a.chatArea.onActiveChannelChanged a.session channel).map fun chatArea => { a with chatArea }

def onCreateChannelSuccess (a : Application) (channel : Channel) : Application :=
  { a with
    sidebar := { a.sidebar with
      activeChats := ActiveChatsTab.onCreateChannelSuccess a.sidebar.activeChats channel } }

/-- The handler of a response: what it does to the session, and then the signals it emits. -/
def dispatch (a : Application) (r : Response) : Except Fault Application :=
  match a.session.handle r with
  | .error e => .error (.thrown e)
  | .ok session =>
      let b := { a with session }
      match r with
      | .registerAccount (.ok ()) => .ok b.onRegistrationSuccess
      | .registerAccount (.error _) => .ok b.onRegistrationFailure
      | .login (.ok _) => .ok b.onLoginSuccess
      | .login (.error _) => .ok b.onLoginFailure
      | .listAccounts (.ok accounts) => .ok (b.onSearchSuccess accounts)
      | .listAccounts (.error _) => .ok b.onSearchFailure
      | .deleteAccount (.ok _) => .ok (a.reset.turnTo .authentication)
      | .createChannel (.ok channel) =>
          (b.onChannelOpened channel).map fun c => c.onCreateChannelSuccess channel
      | .sendMessage (.ok message) =>
          (b.chatArea.onSendMessageSuccess session message).map fun chatArea => { b with chatArea }
      | .deleteMessage (.ok message) =>
          .ok { b with chatArea := b.chatArea.onDeleteMessageSuccess session message }
      | .deleteAccount (.error _) | .createChannel (.error _) | .sendMessage (.error _)
      | .deleteMessage (.error _) => .ok b

/-- A response that has been decoded is printed, and then its handler gets it. -/
def receive (a : Application) (r : Response) : Except Fault Application :=
  if r.prints then a.dispatch r else .error .typeError

/-! ## Everything that happens -/

inductive Event where
  /-- `TcpClient::onConnected` -/
  | connected
  /-- `TcpClient::onDisconnected` -/
  | disconnected
  /-- A response has been read and decoded. -/
  | received (r : Response)
  /-- `LoginTab::on_submit` -/
  | submitLogin (username password : QString)
  /-- `RegistrationTab::on_submit` -/
  | submitRegistration (username displayName password : QString)
  /-- The button of the login tab, and `ChatWindow::onDisconnect`. -/
  | disconnect
  /-- The button of the registration tab. -/
  | registrationDisconnect
  /-- A tab is turned to by its handle. -/
  | turnTab (tab : Tab)
  | turnSidebarTab (tab : ChatSidebarTab)
  /-- The dialog of `ChatWindow::onDeleteAccount`, accepted. -/
  | deleteAccount (username password : QString)
  /-- `SearchTab::search` -/
  | search (query : QString)
  /-- The button of a search result. -/
  | messageUser (item : Nat)
  /-- An item of the list of chats. -/
  | select (item : Nat)
  /-- What the message's input holds after a keystroke. -/
  | typeText (text : QString)
  /-- `ChatArea::sendMessage` -/
  | send
  /-- The button of a message. -/
  | deleteMessage (item : Nat)

/-- What an event leads to and what is written, or how it ends the program. `none` if there is
nothing to click. -/
def react [Qt] (a : Application) :
    Event → Option (Except Fault (Application × Option RequestMessage))
  | .connected => some (.ok (a.turnTo .authentication, none))
  | .disconnected => some (.ok (a.turnTo .connection, none))
  | .received r => some ((a.receive r).map fun b => (b, none))
  | .submitLogin username password =>
      if a.authentication.loginLoading then none
      else if validateText username && validateText password then
        some (.ok
          ({ a with authentication := { a.authentication with loginLoading := true } },
            some (TcpClient.loginUser (Qt.toStdString username) (Qt.toStdString password))))
      else some (.ok (a, none))
  | .submitRegistration username displayName password =>
      if a.authentication.registrationLoading then none
      else if validateText username && validateText displayName && validateText password then
        some (.ok
          ({ a with authentication := { a.authentication with registrationLoading := true } },
            some (TcpClient.registerUser (Qt.toStdString username) (Qt.toStdString displayName)
              (Qt.toStdString password))))
      else some (.ok (a, none))
  | .disconnect => some (.ok (a.reset, none))
  | .registrationDisconnect => some (.ok (a, none))
  | .turnTab tab => some (.ok ({ a with authentication := { a.authentication with tab } }, none))
  | .turnSidebarTab tab => some (.ok ({ a with sidebar := { a.sidebar with tab } }, none))
  | .deleteAccount username password =>
      if username = [] ∨ password = [] then some (.ok (a, none))
      else some (.ok (a, some (TcpClient.deleteAccount (Qt.toStdString username)
        (Qt.toStdString password))))
  | .search query =>
      some (.ok
        ({ a with
            sidebar := { a.sidebar with
              searchTab := { a.sidebar.searchTab with loading := true } } },
          some (TcpClient.searchAccounts (Qt.toStdString query))))
  | .messageUser item =>
      -- while a search is going on the results are hidden
      if a.sidebar.searchTab.loading then none
      else a.sidebar.searchTab.searchResults[item]?.map fun user =>
        match ProfileWidget.onMessageButtonClicked a.session user with
        | .error e => .error (.thrown e)
        | .ok m => .ok ({ a with sidebar := { a.sidebar with tab := .activeChats } },
            some (.createChannel m))
  | .select item =>
      a.sidebar.activeChats[item]?.map fun channel =>
        (onChannelOpened { a with session := a.session.setActiveChannel channel } channel).map
          fun b => (b, none)
  | .typeText text => some (.ok ({ a with chatArea := a.chatArea.typeText a.session text }, none))
  | .send =>
      some (match ChatArea.sendMessage a.session a.chatArea.messageInput with
        | .error e => .error (.thrown e)
        | .ok none => .ok (a, none)
        | .ok (some m) => .ok ({ a with chatArea := a.chatArea.setText a.session [] },
            some (.sendMessage m)))
  | .deleteMessage item =>
      match a.chatArea.messageLayout[item]? with
      | none => none
      | some widget =>
          if widget.isMe then some (.ok (a, some (TcpClient.deleteMessage widget.message)))
          else none

/-- Where an event leaves the program, unless that ends it. -/
def step [Qt] (a : Application) (event : Event) : Option Application :=
  match a.react event with
  | some (.ok (b, _)) => some b
  | _ => none

def system [Qt] : System Application Event where
  init := .new
  step := step

end Application

end SockEtOut
