import SockEtOut.Lib.Json
import SockEtOut.Wire.Packets

/-!
# Requests and responses as JSON

The other build's encoding: every class has a `to_json`, which assigns its fields
to a `nlohmann::json` and dumps it, and a `from_json`, which parses and reads the
fields back. The JSON library is given by how it dumps and parses; building a value
and taking it apart are `Lib.Json`'s.

UUIDs are written as hexadecimal strings. What belongs to a response is first
dumped by itself and assigned as a string. The responses tell success from error
in two ways: some have a flag, the others look for the key of what they carry.

`none` is an exception, or a byte written past the end of a UUID. As in the custom
build, one `drawn` stands for all the uids that objects are made with.
-/

namespace SockEtOut

open Lib

/-- `dump` and `parse` of `nlohmann::json`, `none` where they throw. -/
class Nlohmann where
  dump : Json → Option Str
  parse : Str → Option Json

open Nlohmann
open Lib.Json (ofFields getNumber)

/-! ## UUIDs -/

/-- `isspace` -/
def isSpace (c : UInt8) : Bool := c = 0x20 || (0x09 ≤ c && c ≤ 0x0D)

/-- The digits at the front. -/
def hexRun : Str → List Nat
  | [] => []
  | c :: s =>
      match hexValue c with
      | some digit => digit :: hexRun s
      | none => []

/-- A `0x` in front of a digit does not count. -/
def skipPrefix : Str → Str
  | zero :: x :: c :: s =>
      if zero = 0x30 ∧ (x = 0x78 ∨ x = 0x58) ∧ (hexValue c).isSome then c :: s
      else zero :: x :: c :: s
  | s => s

/-- A numeral's value, if there is one and it fits. -/
def hexNumeral (s : Str) : Option Nat :=
  let digits := hexRun (skipPrefix s)
  let n := digits.foldl (fun n digit => 16 * n + digit) 0
  if digits = [] then none else if n < 2 ^ 64 then some n else none

/-- `std::stoul(s, nullptr, 16)`: white space may come first, then a sign. -/
def stoul (s : Str) : Option Nat :=
  match s.dropWhile isSpace with
  | [] => none
  | c :: s =>
      if c = 0x2D then (hexNumeral s).map fun n => (2 ^ 64 - n) % 2 ^ 64
      else if c = 0x2B then hexNumeral s
      else hexNumeral (c :: s)

/-- `substr(i, 2)`, for every second `i`. -/
def pairs : Str → List Str
  | [] => []
  | [c] => [[c]]
  | c :: c' :: s => [c, c'] :: pairs s

namespace UUID

/-- Two digits a byte. -/
def toString (u : UUID) : Str :=
  u.value.flatMap fun byte => [hexDigit (byte.toNat / 16), hexDigit (byte.toNat % 16)]

theorem size_overwrite (drawn : UUID) {bytes : List UInt8} (h : bytes.length ≤ 16) :
    (bytes ++ drawn.value.drop bytes.length).length = 16 := by
  rw [List.length_append, List.length_drop, drawn.size_eq]
  omega

/-- `from_string`: the bytes of the string over those that were drawn. -/
def fromString (drawn : UUID) (str : Str) : Option UUID := do
  let bytes ← (pairs str).mapM fun byteString => (stoul byteString).map UInt8.ofNat
  if h : bytes.length ≤ 16 then some ⟨_, size_overwrite drawn h⟩ else none

end UUID

/-! ## Fields -/

/-- `j[key].get<std::string>()`, also where the conversion is implicit -/
def stringAt (j : Json) (key : String) : Option Str := do
  let value ← j.index (lit key)
  value.getString

/-- `j[key].get<uint64_t>()` -/
def numberAt (j : Json) (key : String) : Option UInt64 := do
  let value ← j.index (lit key)
  value.getNumber

/-- `j[key].get<bool>()` -/
def boolAt (j : Json) (key : String) : Option Bool := do
  let value ← j.index (lit key)
  value.getBool

/-- `j[key].get<std::vector<uint64_t>>()` -/
def numbersAt (j : Json) (key : String) : Option (List UInt64) := do
  let value ← j.index (lit key)
  let elements ← value.getArray
  elements.mapM getNumber

/-- A loop over `j[key]` whose variable is a string. -/
def eachAt {α : Type} (read : Str → Option α) (j : Json) (key : String) : Option (List α) := do
  let value ← j.index (lit key)
  value.values.mapM fun element => do
    let s ← element.getString
    read s

/-- `UUID::from_string(j[key].get<std::string>())` -/
def uuidAt (drawn : UUID) (j : Json) (key : String) : Option UUID := do
  let str ← stringAt j key
  UUID.fromString drawn str

/-- A `std::vector<std::string>` of UUIDs, assigned. -/
def uuids (uids : List UUID) : Json := .array (uids.map fun uid => .string uid.toString)

section

variable [Nlohmann]

/-! ## Models -/

namespace User

def toJson (u : User) : Option Str :=
  dump (.object (ofFields
    [(lit "uid", .string u.uid.toString),
     (lit "username", .string u.username),
     (lit "display_name", .string u.displayName),
     (lit "profile_pic", .string u.profilePic)]))

/-- Read into a user: the channels stay. -/
def fromJson (this : User) (drawn : UUID) (json : Str) : Option User := do
  let j ← parse json
  let uid ← uuidAt drawn j "uid"
  let username ← stringAt j "username"
  let displayName ← stringAt j "display_name"
  let profilePic ← stringAt j "profile_pic"
  pure { this with uid, username, displayName, profilePic }

end User

namespace Channel

def toJson (c : Channel) : Option Str :=
  dump (.object (ofFields
    [(lit "uid", .string c.uid.toString),
     (lit "name", .string c.name),
     (lit "user_uids", uuids c.userUids),
     (lit "message_snowflakes", .array (c.messageSnowflakes.map .number))]))

/-- Read into a channel: the users are appended to those it has, the snowflakes replaced. -/
def fromJson (this : Channel) (drawn : UUID) (json : Str) : Option Channel := do
  let j ← parse json
  let uid ← uuidAt drawn j "uid"
  let name ← stringAt j "name"
  let userUids ← eachAt (UUID.fromString drawn) j "user_uids"
  let messageSnowflakes ← numbersAt j "message_snowflakes"
  pure { uid, name, userUids := this.userUids ++ userUids, messageSnowflakes }

end Channel

namespace Message

def toJson (m : Message) : Option Str :=
  dump (.object (ofFields
    [(lit "sender_id", .string m.senderId.toString),
     (lit "channel_id", .string m.channelId.toString),
     (lit "snowflake", .number m.snowflake),
     (lit "created_at", .number m.createdAt),
     (lit "modified_at", .number m.modifiedAt),
     (lit "text", .string m.text),
     (lit "read_by", uuids m.readBy)]))

def fromJson (drawn : UUID) (json : Str) : Option Message := do
  let j ← parse json
  let senderId ← uuidAt drawn j "sender_id"
  let channelId ← uuidAt drawn j "channel_id"
  let snowflake ← numberAt j "snowflake"
  let createdAt ← numberAt j "created_at"
  let modifiedAt ← numberAt j "modified_at"
  let text ← stringAt j "text"
  let readBy ← eachAt (UUID.fromString drawn) j "read_by"
  pure { snowflake, senderId, channelId, createdAt, modifiedAt, readBy, text }

end Message

/-! ## Requests -/

namespace RegisterAccountMessage

def toJson (m : RegisterAccountMessage) : Option Str :=
  dump (.object (ofFields
    [(lit "username", .string m.username),
     (lit "password", .string m.password),
     (lit "display_name", .string m.displayName)]))

def fromJson (json : Str) : Option RegisterAccountMessage := do
  let j ← parse json
  let username ← stringAt j "username"
  let password ← stringAt j "password"
  let displayName ← stringAt j "display_name"
  pure { username, password, displayName }

end RegisterAccountMessage

/-- The JSON of `LoginMessage` and `DeleteAccountMessage`. -/
def credentialsToJson (username password : Str) : Option Str :=
  dump (.object (ofFields [(lit "username", .string username), (lit "password", .string password)]))

/-- What both read from it. -/
def credentialsFromJson (json : Str) : Option (Str × Str) := do
  let j ← parse json
  let username ← stringAt j "username"
  let password ← stringAt j "password"
  pure (username, password)

namespace LoginMessage

def toJson (m : LoginMessage) : Option Str := credentialsToJson m.username m.password

def fromJson (json : Str) : Option LoginMessage :=
  (credentialsFromJson json).map fun p => { username := p.1, password := p.2 }

end LoginMessage

namespace DeleteAccountMessage

def toJson (m : DeleteAccountMessage) : Option Str := credentialsToJson m.username m.password

def fromJson (json : Str) : Option DeleteAccountMessage :=
  (credentialsFromJson json).map fun p => { username := p.1, password := p.2 }

end DeleteAccountMessage

namespace ListAccountsMessage

def toJson (m : ListAccountsMessage) : Option Str :=
  dump (.object (ofFields [(lit "regex", .string m.regex)]))

def fromJson (json : Str) : Option ListAccountsMessage := do
  let j ← parse json
  let regex ← stringAt j "regex"
  pure { regex }

end ListAccountsMessage

namespace CreateChannelMessage

def toJson (m : CreateChannelMessage) : Option Str :=
  dump (.object (ofFields
    [(lit "channel_name", .string m.channelName), (lit "members", uuids m.members)]))

/-- Read into a message: the members are appended to those it has. -/
def fromJson (this : CreateChannelMessage) (drawn : UUID) (json : Str) :
    Option CreateChannelMessage := do
  let j ← parse json
  let channelName ← stringAt j "channel_name"
  let members ← eachAt (UUID.fromString drawn) j "members"
  pure { channelName, members := this.members ++ members }

end CreateChannelMessage

namespace SendMessageMessage

def toJson (m : SendMessageMessage) : Option Str :=
  dump (.object (ofFields
    [(lit "channel_uid", .string m.channelUid.toString),
     (lit "sender_uid", .string m.senderUid.toString),
     (lit "text", .string m.text)]))

def fromJson (drawn : UUID) (json : Str) : Option SendMessageMessage := do
  let j ← parse json
  let channelUid ← uuidAt drawn j "channel_uid"
  let senderUid ← uuidAt drawn j "sender_uid"
  let text ← stringAt j "text"
  pure { channelUid, senderUid, text }

end SendMessageMessage

namespace DeleteMessageMessage

def toJson (m : DeleteMessageMessage) : Option Str :=
  dump (.object (ofFields
    [(lit "channel_uid", .string m.channelUid.toString),
     (lit "message_snowflake", .number m.messageSnowflake)]))

def fromJson (drawn : UUID) (json : Str) : Option DeleteMessageMessage := do
  let j ← parse json
  let channelUid ← uuidAt drawn j "channel_uid"
  let messageSnowflake ← numberAt j "message_snowflake"
  pure { channelUid, messageSnowflake }

end DeleteMessageMessage

/-! ## Responses -/

/-- What a response without a flag writes: its payload under a key of its own, or the error. -/
def keyedToJson {α : Type} (key : String) (payload : α → Option Json) (data : Except Str α) :
    Option Str :=
  match data with
  | .ok value => do
      let value ← payload value
      dump (.object (ofFields [(lit key, value)]))
  | .error error => dump (.object (ofFields [(lit "error", .string error)]))

/-- What it reads: a success where the key is there. -/
def keyedFromJson {α : Type} (key : String) (payload : Json → Option α) (json : Str) :
    Option (Except Str α) := do
  let j ← parse json
  if j.contains (lit key) then do
    let value ← payload j
    pure (.ok value)
  else do
    let error ← stringAt j "error"
    pure (.error error)

/-- What a response with a flag writes: the flag, then its payload or the error. -/
def flaggedToJson {α : Type} (payload : α → Option (List (Str × Json))) (data : Except Str α) :
    Option Str :=
  match data with
  | .ok value => do
      let fields ← payload value
      dump (.object (ofFields ((lit "success", .bool true) :: fields)))
  | .error error =>
      dump (.object (ofFields [(lit "success", .bool false), (lit "error", .string error)]))

/-- What it reads. -/
def flaggedFromJson {α : Type} (payload : Json → Option α) (json : Str) :
    Option (Except Str α) := do
  let j ← parse json
  let success ← boolAt j "success"
  if success then do
    let value ← payload j
    pure (.ok value)
  else do
    let error ← stringAt j "error"
    pure (.error error)

/-- A string of its own in a field: what `to_json` of an object returned. -/
def nested (toJson : Option Str) : Option Json := toJson.map .string

/-- `from_json(j[key])` of a new object. -/
def nestedAt {α : Type} (fromJson : Str → Option α) (j : Json) (key : String) : Option α := do
  let json ← stringAt j key
  fromJson json

namespace RegisterAccountResponse

def toJson (r : RegisterAccountResponse) : Option Str :=
  flaggedToJson (fun _ => some []) r.errorMessage

def fromJson (json : Str) : Option RegisterAccountResponse :=
  (flaggedFromJson (fun _ => some ()) json).map RegisterAccountResponse.mk

end RegisterAccountResponse

namespace LoginResponse

def toJson (r : LoginResponse) : Option Str :=
  keyedToJson "user" (fun user => nested user.toJson) r.data

def fromJson (drawn : UUID) (json : Str) : Option LoginResponse :=
  (keyedFromJson "user" (nestedAt ((User.default drawn).fromJson drawn) · "user") json).map
    LoginResponse.mk

end LoginResponse

namespace ListAccountsResponse

def toJson (r : ListAccountsResponse) : Option Str :=
  keyedToJson "users" (fun users => (users.mapM fun user => nested user.toJson).map .array) r.data

def fromJson (drawn : UUID) (json : Str) : Option ListAccountsResponse :=
  (keyedFromJson "users" (eachAt ((User.default drawn).fromJson drawn) · "users") json).map
    ListAccountsResponse.mk

end ListAccountsResponse

namespace DeleteAccountResponse

def toJson (r : DeleteAccountResponse) : Option Str :=
  flaggedToJson (fun user => (nested user.toJson).map fun j => [(lit "user", j)]) r.data

def fromJson (drawn : UUID) (json : Str) : Option DeleteAccountResponse :=
  (flaggedFromJson (nestedAt ((User.default drawn).fromJson drawn) · "user") json).map
    DeleteAccountResponse.mk

end DeleteAccountResponse

namespace CreateChannelResponse

def toJson (r : CreateChannelResponse) : Option Str :=
  keyedToJson "channel" (fun channel => nested channel.toJson) r.data

def fromJson (drawn : UUID) (json : Str) : Option CreateChannelResponse :=
  (keyedFromJson "channel" (nestedAt ((Channel.default drawn).fromJson drawn) · "channel") json).map
    CreateChannelResponse.mk

end CreateChannelResponse

namespace SendMessageResponse

def toJson (r : SendMessageResponse) : Option Str :=
  flaggedToJson (fun message => (nested message.toJson).map fun j => [(lit "message", j)]) r.data

def fromJson (drawn : UUID) (json : Str) : Option SendMessageResponse :=
  (flaggedFromJson (nestedAt (Message.fromJson drawn) · "message") json).map
    SendMessageResponse.mk

end SendMessageResponse

namespace DeleteMessageResponse

def toJson (r : DeleteMessageResponse) : Option Str :=
  flaggedToJson (fun message => (nested message.toJson).map fun j => [(lit "message", j)]) r.data

def fromJson (drawn : UUID) (json : Str) : Option DeleteMessageResponse :=
  (flaggedFromJson (nestedAt (Message.fromJson drawn) · "message") json).map
    DeleteMessageResponse.mk

end DeleteMessageResponse

/-! ## The fourteen classes -/

namespace RequestMessage

def toJson : RequestMessage → Option Str
  | .registerAccount m => m.toJson
  | .login m => m.toJson
  | .listAccounts m => m.toJson
  | .deleteAccount m => m.toJson
  | .createChannel m => m.toJson
  | .sendMessage m => m.toJson
  | .deleteMessage m => m.toJson

/-- A new object of the class that the server's switch has for an operation, read into. -/
def fromJson (drawn : UUID) (operation : Operation) (json : Str) : Option RequestMessage :=
  match operation with
  | .registerAccount => (RegisterAccountMessage.fromJson json).map .registerAccount
  | .login => (LoginMessage.fromJson json).map .login
  | .listAccounts => (ListAccountsMessage.fromJson json).map .listAccounts
  | .deleteAccount => (DeleteAccountMessage.fromJson json).map .deleteAccount
  | .createChannel => ((CreateChannelMessage.mk [] []).fromJson drawn json).map .createChannel
  | .sendMessage => (SendMessageMessage.fromJson drawn json).map .sendMessage
  | .deleteMessage => (DeleteMessageMessage.fromJson drawn json).map .deleteMessage
  | _ => none

end RequestMessage

namespace Response

def toJson : Response → Option Str
  | .registerAccount data => (RegisterAccountResponse.mk data).toJson
  | .login data => (LoginResponse.mk data).toJson
  | .listAccounts data => (ListAccountsResponse.mk data).toJson
  | .deleteAccount data => (DeleteAccountResponse.mk data).toJson
  | .createChannel data => (CreateChannelResponse.mk data).toJson
  | .sendMessage data => (SendMessageResponse.mk data).toJson
  | .deleteMessage data => (DeleteMessageResponse.mk data).toJson

/-- A new object of the class that the client's switch has for an operation, read into. -/
def fromJson (drawn : UUID) (operation : Operation) (json : Str) : Option Response :=
  match operation with
  | .registerAccount =>
      (RegisterAccountResponse.fromJson json).map fun r => .registerAccount r.errorMessage
  | .login => (LoginResponse.fromJson drawn json).map fun r => .login r.data
  | .listAccounts => (ListAccountsResponse.fromJson drawn json).map fun r => .listAccounts r.data
  | .deleteAccount => (DeleteAccountResponse.fromJson drawn json).map fun r => .deleteAccount r.data
  | .createChannel => (CreateChannelResponse.fromJson drawn json).map fun r => .createChannel r.data
  | .sendMessage => (SendMessageResponse.fromJson drawn json).map fun r => .sendMessage r.data
  | .deleteMessage => (DeleteMessageResponse.fromJson drawn json).map fun r => .deleteMessage r.data
  | _ => none

end Response

end

/-- Every string of a request can be dumped. -/
def RequestMessage.prints : RequestMessage → Bool
  | .registerAccount m =>
      Json.dumps m.username && Json.dumps m.password && Json.dumps m.displayName
  | .login m => Json.dumps m.username && Json.dumps m.password
  | .listAccounts m => Json.dumps m.regex
  | .deleteAccount m => Json.dumps m.username && Json.dumps m.password
  | .createChannel m => Json.dumps m.channelName
  | .sendMessage m => Json.dumps m.text
  | .deleteMessage _ => true

/-- A response with its users as they travel, without their channels. -/
def Response.profiles : Response → Response
  | .login data => .login (data.map User.profile)
  | .listAccounts data => .listAccounts (data.map (List.map User.profile))
  | .deleteAccount data => .deleteAccount (data.map User.profile)
  | r => r

end SockEtOut
