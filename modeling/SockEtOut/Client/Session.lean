import SockEtOut.Server.Handlers

/-!
# The client's session

What a client knows: who it is, the channels it has been told of, and for each the
messages it has been sent. The handlers below are what it does with a response.
The Qt signals they emit reach windows only and are left out, and so are the
failure branches, which emit and do nothing else.

A pointer is the object it points to, which a channel's uid names. In particular
`openChannel` is a uid. A message that arrives is a new object, whatever it says.
-/

namespace SockEtOut

structure Session where
  authenticatedUser : Option User
  openChannel : Option UUID
  channels : Lib.Table UUID Channel
  channelMessages : Lib.Table UUID (List Message)

namespace Session

def new : Session where
  authenticatedUser := none
  openChannel := none
  channels := .empty
  channelMessages := .empty

def reset (_ : Session) : Session := new

/-- A message of a channel the client has not been told of is dropped. -/
def addMessage (s : Session) (message : Message) : Except Exn Session :=
  match s.channelMessages.lookup message.channelId with
  | none => .ok s
  | some messages =>
      match s.channels.lookup message.channelId with
      | none => .error .nullDereference
      | some channel =>
          .ok { s with
            channelMessages := s.channelMessages.assign message.channelId (messages ++ [message])
            channels :=
              s.channels.assign message.channelId (channel.addMessage message.snowflake) }

def setActiveChannel (s : Session) (channel : Channel) : Session :=
  { s with openChannel := some channel.uid }

/-- The channel and an empty list of messages, in place of what was there. -/
def addChannel (s : Session) (channel : Channel) : Session :=
  { s with
    channels := s.channels.assign channel.uid channel
    channelMessages := s.channelMessages.assign channel.uid [] }

/-- The message in the response is no object the list points to, so the list keeps them all. -/
def removeMessage (s : Session) (message : Message) : Except Exn Session :=
  match s.channelMessages.lookup message.channelId with
  | none => .ok s
  | some _ =>
      match s.channels.lookup message.channelId with
      | none => .error .nullDereference
      | some channel =>
          .ok { s with
            channels :=
              s.channels.assign message.channelId (channel.removeMessage message.snowflake) }

def onLoginResponse (s : Session) (user : User) : Except Exn Session :=
  .ok { s with authenticatedUser := some user }

/-- The user is not checked for: without one `value()` throws. -/
def onCreateChannelResponse (s : Session) (channel : Channel) : Except Exn Session :=
  match s.authenticatedUser with
  | none => .error .badOptionalAccess
  | some user =>
      .ok (({ s with authenticatedUser := some (user.addChannel channel.uid) }.addChannel
        channel).setActiveChannel channel)

/-- The handler registered for a response. -/
def handle (s : Session) : Response → Except Exn Session
  | .login (.ok user) => s.onLoginResponse user
  | .deleteAccount (.ok _) => .ok s.reset
  | .createChannel (.ok channel) => s.onCreateChannelResponse channel
  | .sendMessage (.ok message) => s.addMessage message
  | .deleteMessage (.ok message) => s.removeMessage message
  | .registerAccount _ | .listAccounts _ | .login (.error _) | .deleteAccount (.error _)
  | .createChannel (.error _) | .sendMessage (.error _) | .deleteMessage (.error _) => .ok s

end Session

end SockEtOut
