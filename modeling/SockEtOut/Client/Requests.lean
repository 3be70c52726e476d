import SockEtOut.Wire.Packets

/-!
# What the client writes

The seven functions of `TcpClient` that write to the socket, each by the message it
builds and writes.
-/

namespace SockEtOut.TcpClient

def registerUser (username displayName password : Str) : RequestMessage :=
  .registerAccount { username, password, displayName }

def loginUser (username password : Str) : RequestMessage := .login { username, password }

def searchAccounts (regex : Str) : RequestMessage := .listAccounts { regex }

def deleteAccount (username password : Str) : RequestMessage :=
  .deleteAccount { username, password }

def createChannel (channelName : Str) (members : List UUID) : RequestMessage :=
  .createChannel { channelName, members }

def sendTextMessage (channelUid senderUid : UUID) (text : Str) : RequestMessage :=
  .sendMessage { channelUid, senderUid, text }

def deleteMessage (message : Message) : RequestMessage :=
  .deleteMessage { channelUid := message.channelId, messageSnowflake := message.snowflake }

end SockEtOut.TcpClient
