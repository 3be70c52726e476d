import SockEtOut.Client.Session
import SockEtOut.Lib.Run
import SockEtOut.Wire.Requests

/-!
# The client's windows

What the windows add to the session: the list of chats that one can be selected
from, and the requests that are made of what the user types and clicks. The list
follows the session's handlers, which call into it; `reset` goes through all windows
and clears it.

A text comes out of a `QString`, in units of UTF-16, and is turned into bytes by Qt.
-/

namespace SockEtOut

open Lib

/-- A `QString`: units of UTF-16. -/
abbrev QString := List UInt16

/-- What the windows use of Qt. -/
class Qt where
  toStdString : QString → Str

/-- `get_active_channel_messages`, nothing where `at` throws. -/
def Session.getActiveChannelMessages (s : Session) : Option (List Message) :=
  match s.openChannel with
  | some channel => s.channelMessages.lookup channel
  | none => some []

/-! ## Requests -/

namespace ChatArea

/-- `setMaxLength` of the input: that many units. -/
def maxLength : Nat := 255

/-- The message that is sent, if one is. The user is not checked for. -/
def sendMessage [Qt] (session : Session) (text : QString) :
    Except Exn (Option SendMessageMessage) :=
  match session.openChannel with
  | none => .ok none
  | some channelUid =>
      if text = [] then .ok none
      else
        match session.authenticatedUser with
        | none => .error .badOptionalAccess
        | some user => .ok (some { channelUid, senderUid := user.uid, text := Qt.toStdString text })

end ChatArea

/-- A channel for the user and the one whose profile is shown, named after both. -/
def ProfileWidget.onMessageButtonClicked (session : Session) (user : User) :
    Except Exn CreateChannelMessage :=
  match session.authenticatedUser with
  | none => .error .badOptionalAccess
  | some authenticatedUser =>
      .ok
        { channelName := authenticatedUser.displayName ++ lit ", " ++ user.displayName
          members := [authenticatedUser.uid, user.uid] }

/-! ## The list of chats -/

namespace ActiveChatsTab

def onCreateChannelSuccess (activeChats : List Channel) (channel : Channel) : List Channel :=
  activeChats ++ [channel]

def reset (_ : List Channel) : List Channel := []

/-- What becomes of the list when the handler of a response has come back. -/
def after (activeChats : List Channel) : Response → List Channel
  | .createChannel (.ok channel) => onCreateChannelSuccess activeChats channel
  | .deleteAccount (.ok _) => reset activeChats
  | _ => activeChats

end ActiveChatsTab

/-- The session and the channels that are listed. -/
structure Client where
  session : Session
  activeChats : List Channel

namespace Client

inductive Input where
  | response (r : Response)
  /-- A click on an item of the list. -/
  | select (item : Nat)
  | reset

/-- What an input leads to, unless an exception is thrown or the item is not there. -/
def step (c : Client) : Input → Option Client
  | .response r =>
      match c.session.handle r with
      | .ok session => some { session, activeChats := ActiveChatsTab.after c.activeChats r }
      | .error _ => none
  | .select item =>
      c.activeChats[item]?.map fun channel =>
        { c with session := c.session.setActiveChannel channel }
  | .reset => some { session := c.session.reset, activeChats := ActiveChatsTab.reset c.activeChats }

def system : System Client Input where
  init := { session := .new, activeChats := [] }
  step := step

end Client

end SockEtOut
