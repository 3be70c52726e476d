import SockEtOut.Wire.Json

/-!
# Decoding into an object

`deserialize` and `from_json` are called on an object and leave in it what it held
wherever they do not assign. The decoders of the modules before this one return a
new object; here `this` is the one they are called on, and every assignment is an
update of it, in the source's order. `User`, `Channel` and `CreateChannelMessage`
have been read into from the start.
-/

namespace SockEtOut

open Lib Reader Nlohmann

/-! ## Requests -/

namespace RegisterAccountMessage

def deserializeInto (this : RegisterAccountMessage) : Reader UInt8 RegisterAccountMessage := do
  let usernameLength ← byteAt 0
  let passwordLength ← byteAt (usernameLength.toNat + 1)
  let displayNameLength ← byteAt (usernameLength.toNat + passwordLength.toNat + 2)
  let username ← slice 1 usernameLength.toNat
  let this := { this with username }
  let password ← slice (usernameLength.toNat + 2) passwordLength.toNat
  let this := { this with password }
  let displayName ← slice (usernameLength.toNat + passwordLength.toNat + 3) displayNameLength.toNat
  pure { this with displayName }

def fromJsonInto [Nlohmann] (this : RegisterAccountMessage) (json : Str) :
    Option RegisterAccountMessage := do
  let j ← parse json
  let username ← stringAt j "username"
  let this := { this with username }
  let password ← stringAt j "password"
  let this := { this with password }
  let displayName ← stringAt j "display_name"
  pure { this with displayName }

end RegisterAccountMessage

namespace LoginMessage

def deserializeInto (this : LoginMessage) : Reader UInt8 LoginMessage := do
  let (username, password) ← deserializeCredentials
  pure { this with username, password }

def fromJsonInto [Nlohmann] (this : LoginMessage) (json : Str) : Option LoginMessage :=
  (credentialsFromJson json).map fun p => { this with username := p.1, password := p.2 }

end LoginMessage

namespace DeleteAccountMessage

def deserializeInto (this : DeleteAccountMessage) : Reader UInt8 DeleteAccountMessage := do
  let (username, password) ← deserializeCredentials
  pure { this with username, password }

def fromJsonInto [Nlohmann] (this : DeleteAccountMessage) (json : Str) :
    Option DeleteAccountMessage :=
  (credentialsFromJson json).map fun p => { this with username := p.1, password := p.2 }

end DeleteAccountMessage

namespace ListAccountsMessage

def deserializeInto (this : ListAccountsMessage) : Reader UInt8 ListAccountsMessage := do
  let regexLength ← byteAt 0
  let regex ← slice 1 regexLength.toNat
  pure { this with regex }

def fromJsonInto [Nlohmann] (this : ListAccountsMessage) (json : Str) :
    Option ListAccountsMessage := do
  let j ← parse json
  let regex ← stringAt j "regex"
  pure { this with regex }

end ListAccountsMessage

namespace SendMessageMessage

def deserializeInto (this : SendMessageMessage) : Reader UInt8 SendMessageMessage := do
  let channelUid ← UUID.deserialize
  let this := { this with channelUid }
  let senderUid ← UUID.deserialize
  let this := { this with senderUid }
  let textLength ← next
  let text ← range textLength.toNat
  pure { this with text }

def fromJsonInto [Nlohmann] (this : SendMessageMessage) (drawn : UUID) (json : Str) :
    Option SendMessageMessage := do
  let j ← parse json
  let channelUid ← uuidAt drawn j "channel_uid"
  let this := { this with channelUid }
  let senderUid ← uuidAt drawn j "sender_uid"
  let this := { this with senderUid }
  let text ← stringAt j "text"
  pure { this with text }

end SendMessageMessage

namespace DeleteMessageMessage

/-- The snowflake is set to zero before the loop shifts into it. -/
def deserializeInto (this : DeleteMessageMessage) : Reader UInt8 DeleteMessageMessage := do
  let channelUid ← UUID.deserialize
  let this := { this with channelUid }
  let this := { this with messageSnowflake := 0 }
  let messageSnowflake ← readSnowflake 8 0 this.messageSnowflake
  pure { this with messageSnowflake }

def fromJsonInto [Nlohmann] (this : DeleteMessageMessage) (drawn : UUID) (json : Str) :
    Option DeleteMessageMessage := do
  let j ← parse json
  let channelUid ← uuidAt drawn j "channel_uid"
  let this := { this with channelUid }
  let messageSnowflake ← numberAt j "message_snowflake"
  pure { this with messageSnowflake }

end DeleteMessageMessage

/-! ## Messages -/

namespace Message

/-- `read_by` is cleared before the loop appends to it. -/
def deserializeInto (e : Endian) (this : Message) : Reader UInt8 Message := do
  let senderId ← UUID.deserialize
  let this := { this with senderId }
  let channelId ← UUID.deserialize
  let this := { this with channelId }
  let snowflake ← readWord e
  let this := { this with snowflake }
  let createdAt ← readWord e
  let this := { this with createdAt }
  let modifiedAt ← readWord e
  let this := { this with modifiedAt }
  let textLength ← next
  let text ← range textLength.toNat
  let this := { this with text }
  let readBySize ← next
  let this := { this with readBy := [] }
  let readBy ← times UUID.deserialize readBySize.toNat
  pure { this with readBy := this.readBy ++ readBy }

def fromJsonInto [Nlohmann] (this : Message) (drawn : UUID) (json : Str) : Option Message := do
  let j ← parse json
  let senderId ← uuidAt drawn j "sender_id"
  let this := { this with senderId }
  let channelId ← uuidAt drawn j "channel_id"
  let this := { this with channelId }
  let snowflake ← numberAt j "snowflake"
  let this := { this with snowflake }
  let createdAt ← numberAt j "created_at"
  let this := { this with createdAt }
  let modifiedAt ← numberAt j "modified_at"
  let this := { this with modifiedAt }
  let text ← stringAt j "text"
  let this := { this with text, readBy := [] }
  let readBy ← eachAt (UUID.fromString drawn) j "read_by"
  pure { this with readBy := this.readBy ++ readBy }

end Message

/-! ## Responses

What a response holds is assigned as a whole, and an object in it is a new one.
-/

namespace RegisterAccountResponse

def deserializeInto (this : RegisterAccountResponse) : Reader UInt8 RegisterAccountResponse := do
  let errorMessage ← deserializeData (pure ())
  pure { this with errorMessage }

def fromJsonInto [Nlohmann] (this : RegisterAccountResponse) (json : Str) :
    Option RegisterAccountResponse :=
  (flaggedFromJson (fun _ => some ()) json).map fun errorMessage => { this with errorMessage }

end RegisterAccountResponse

namespace LoginResponse

def deserializeInto (this : LoginResponse) (drawn : UUID) : Reader UInt8 LoginResponse := do
  let data ← deserializeData (User.default drawn).deserialize
  pure { this with data }

def fromJsonInto [Nlohmann] (this : LoginResponse) (drawn : UUID) (json : Str) :
    Option LoginResponse :=
  (keyedFromJson "user" (nestedAt ((User.default drawn).fromJson drawn) · "user") json).map
    fun data => { this with data }

end LoginResponse

namespace ListAccountsResponse

def deserializeInto (this : ListAccountsResponse) (drawn : UUID) :
    Reader UInt8 ListAccountsResponse := do
  let data ← deserializeData (deserializeUsers drawn)
  pure { this with data }

def fromJsonInto [Nlohmann] (this : ListAccountsResponse) (drawn : UUID) (json : Str) :
    Option ListAccountsResponse :=
  (keyedFromJson "users" (eachAt ((User.default drawn).fromJson drawn) · "users") json).map
    fun data => { this with data }

end ListAccountsResponse

namespace DeleteAccountResponse

def deserializeInto (this : DeleteAccountResponse) (drawn : UUID) :
    Reader UInt8 DeleteAccountResponse := do
  let data ← deserializeDataAt (User.default drawn).deserialize
  pure { this with data }

def fromJsonInto [Nlohmann] (this : DeleteAccountResponse) (drawn : UUID) (json : Str) :
    Option DeleteAccountResponse :=
  (flaggedFromJson (nestedAt ((User.default drawn).fromJson drawn) · "user") json).map
    fun data => { this with data }

end DeleteAccountResponse

namespace CreateChannelResponse

def deserializeInto (this : CreateChannelResponse) (drawn : UUID) :
    Reader UInt8 CreateChannelResponse := do
  let hasError ← next
  if hasError = 0 then do
    let channel ← (Channel.default drawn).deserialize
    pure { this with data := .ok channel }
  else do
    let errorLength ← next
    let error ← range errorLength.toNat
    pure { this with data := .error error }

def fromJsonInto [Nlohmann] (this : CreateChannelResponse) (drawn : UUID) (json : Str) :
    Option CreateChannelResponse :=
  (keyedFromJson "channel" (nestedAt ((Channel.default drawn).fromJson drawn) · "channel") json).map
    fun data => { this with data }

end CreateChannelResponse

namespace SendMessageResponse

def deserializeInto (e : Endian) (this : SendMessageResponse) :
    Reader UInt8 SendMessageResponse := do
  let data ← deserializeData (Message.deserialize e)
  pure { this with data }

def fromJsonInto [Nlohmann] (this : SendMessageResponse) (drawn : UUID) (json : Str) :
    Option SendMessageResponse :=
  (flaggedFromJson (nestedAt (Message.fromJson drawn) · "message") json).map
    fun data => { this with data }

end SendMessageResponse

namespace DeleteMessageResponse

def deserializeInto (e : Endian) (this : DeleteMessageResponse) :
    Reader UInt8 DeleteMessageResponse := do
  let data ← deserializeDataAt (Message.deserialize e)
  pure { this with data }

def fromJsonInto [Nlohmann] (this : DeleteMessageResponse) (drawn : UUID) (json : Str) :
    Option DeleteMessageResponse :=
  (flaggedFromJson (nestedAt (Message.fromJson drawn) · "message") json).map
    fun data => { this with data }

end DeleteMessageResponse

/-! ## The fourteen classes -/

namespace RequestMessage

def deserializeInto : RequestMessage → Reader UInt8 RequestMessage
  | .registerAccount this => do
      let m ← this.deserializeInto
      pure (.registerAccount m)
  | .login this => do
      let m ← this.deserializeInto
      pure (.login m)
  | .listAccounts this => do
      let m ← this.deserializeInto
      pure (.listAccounts m)
  | .deleteAccount this => do
      let m ← this.deserializeInto
      pure (.deleteAccount m)
  | .createChannel this => do
      let m ← this.deserialize
      pure (.createChannel m)
  | .sendMessage this => do
      let m ← this.deserializeInto
      pure (.sendMessage m)
  | .deleteMessage this => do
      let m ← this.deserializeInto
      pure (.deleteMessage m)

def fromJsonInto [Nlohmann] (drawn : UUID) (json : Str) : RequestMessage → Option RequestMessage
  | .registerAccount this => (this.fromJsonInto json).map .registerAccount
  | .login this => (this.fromJsonInto json).map .login
  | .listAccounts this => (this.fromJsonInto json).map .listAccounts
  | .deleteAccount this => (this.fromJsonInto json).map .deleteAccount
  | .createChannel this => (this.fromJson drawn json).map .createChannel
  | .sendMessage this => (this.fromJsonInto drawn json).map .sendMessage
  | .deleteMessage this => (this.fromJsonInto drawn json).map .deleteMessage

end RequestMessage

namespace Response

def deserializeInto (e : Endian) (drawn : UUID) : Response → Reader UInt8 Response
  | .registerAccount data => do
      let r ← (RegisterAccountResponse.mk data).deserializeInto
      pure (.registerAccount r.errorMessage)
  | .login data => do
      let r ← (LoginResponse.mk data).deserializeInto drawn
      pure (.login r.data)
  | .listAccounts data => do
      let r ← (ListAccountsResponse.mk data).deserializeInto drawn
      pure (.listAccounts r.data)
  | .deleteAccount data => do
      let r ← (DeleteAccountResponse.mk data).deserializeInto drawn
      pure (.deleteAccount r.data)
  | .createChannel data => do
      let r ← (CreateChannelResponse.mk data).deserializeInto drawn
      pure (.createChannel r.data)
  | .sendMessage data => do
      let r ← (SendMessageResponse.mk data).deserializeInto e
      pure (.sendMessage r.data)
  | .deleteMessage data => do
      let r ← (DeleteMessageResponse.mk data).deserializeInto e
      pure (.deleteMessage r.data)

def fromJsonInto [Nlohmann] (drawn : UUID) (json : Str) : Response → Option Response
  | .registerAccount data =>
      ((RegisterAccountResponse.mk data).fromJsonInto json).map fun r =>
        .registerAccount r.errorMessage
  | .login data => ((LoginResponse.mk data).fromJsonInto drawn json).map fun r => .login r.data
  | .listAccounts data =>
      ((ListAccountsResponse.mk data).fromJsonInto drawn json).map fun r => .listAccounts r.data
  | .deleteAccount data =>
      ((DeleteAccountResponse.mk data).fromJsonInto drawn json).map fun r => .deleteAccount r.data
  | .createChannel data =>
      ((CreateChannelResponse.mk data).fromJsonInto drawn json).map fun r => .createChannel r.data
  | .sendMessage data =>
      ((SendMessageResponse.mk data).fromJsonInto drawn json).map fun r => .sendMessage r.data
  | .deleteMessage data =>
      ((DeleteMessageResponse.mk data).fromJsonInto drawn json).map fun r => .deleteMessage r.data

end Response

/-! ## Seventeen decoders -/

/-- An object that can be decoded into. -/
inductive Object where
  | user (u : User)
  | message (m : Message)
  | channel (c : Channel)
  | request (m : RequestMessage)
  | response (r : Response)

namespace Object

/-- Two objects of one class. -/
def SameClass : Object → Object → Prop
  | .user _, .user _ | .message _, .message _ | .channel _, .channel _ => True
  | .request m, .request m' => m.operation = m'.operation
  | .response r, .response r' => r.operation = r'.operation
  | _, _ => False

/-- `to_json` -/
def toJson [Nlohmann] : Object → Option Str
  | .user u => u.toJson
  | .message m => m.toJson
  | .channel c => c.toJson
  | .request m => m.toJson
  | .response r => r.toJson

/-- Whether it comes back. -/
def prints : Object → Bool
  | .user u => u.prints
  | .message m => Json.dumps m.text
  | .channel c => Json.dumps c.name
  | .request m => m.prints
  | .response r => r.prints

/-- `deserialize` of the custom build. -/
def read (e : Endian) (drawn : UUID) : Object → Reader UInt8 Object
  | .user this => do
      let u ← this.deserialize
      pure (.user u)
  | .message this => do
      let m ← this.deserializeInto e
      pure (.message m)
  | .channel this => do
      let c ← this.deserialize
      pure (.channel c)
  | .request this => do
      let m ← this.deserializeInto
      pure (.request m)
  | .response this => do
      let r ← this.deserializeInto e drawn
      pure (.response r)

/-- `from_json` -/
def fromJson [Nlohmann] (drawn : UUID) (json : Str) : Object → Option Object
  | .user this => (this.fromJson drawn json).map .user
  | .message this => (this.fromJsonInto drawn json).map .message
  | .channel this => (this.fromJson drawn json).map .channel
  | .request this => (this.fromJsonInto drawn json).map .request
  | .response this => (this.fromJsonInto drawn json).map .response

/-- `deserialize` -/
def deserialize [Nlohmann] (build : Build) (e : Endian) (drawn : UUID) (this : Object)
    (buf : List UInt8) : Option Object :=
  match build with
  | .custom => (this.read e drawn buf 0).map Prod.fst
  | .json => this.fromJson drawn buf

/-- The serialized fields: all but a user's list of channels. -/
def serialized : Object → Object
  | .user u => .user u.profile
  | .response r => .response r.profiles
  | o => o

end Object

end SockEtOut
