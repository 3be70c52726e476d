import SockEtOut.Server.Handlers
import SockEtOut.Wire.Requests
import SockEtOut.Wire.Responses

/-!
# Requests and responses as packets

An object of any of the fourteen classes, with its operation, its encoding, its
`size` and its `serialize_msg`, and the decoder a reader's switch picks for an
operation. What a class does is in the modules before this one.

Both ends also print what they have decoded and what they are about to write, in
every build. The text is JSON, and `dump` throws at a string that is not UTF-8;
`prints` says whether it comes back.
-/

namespace SockEtOut

open Lib Reader

/-! ## What can be printed -/

namespace Json

/-- The class of a byte: the first 256 entries of the decoder's table. -/
def byteType (b : UInt8) : Nat :=
  if b < 0x80 then 0
  else if b < 0x90 then 1
  else if b < 0xA0 then 9
  else if b < 0xC0 then 7
  else if b < 0xC2 then 8
  else if b < 0xE0 then 2
  else if b = 0xE0 then 10
  else if b = 0xED then 4
  else if b < 0xF0 then 3
  else if b = 0xF0 then 11
  else if b < 0xF4 then 6
  else if b = 0xF4 then 5
  else 8

/-- Where a byte of a class leads: the rest of the table, without its rejecting entries. -/
def transition : (state type : Nat) → Option Nat
  | 0, 0 => some 0
  | 0, 2 => some 2
  | 0, 3 => some 3
  | 0, 4 => some 5
  | 0, 5 => some 8
  | 0, 6 => some 7
  | 0, 10 => some 4
  | 0, 11 => some 6
  | 2, 1 | 2, 7 | 2, 9 => some 0
  | 3, 1 | 3, 7 | 3, 9 => some 2
  | 4, 7 => some 2
  | 5, 1 | 5, 9 => some 2
  | 6, 7 | 6, 9 => some 3
  | 7, 1 | 7, 7 | 7, 9 => some 3
  | 8, 1 => some 3
  | _, _ => none

/-- Whether the rest of a string can be dumped: no byte is rejected, the last ends a character. -/
def dumpsFrom : (state : Nat) → Str → Bool
  | state, [] => state == 0
  | state, b :: s =>
      match transition state (byteType b) with
      | none => false
      | some state => dumpsFrom state s

/-- Whether `dump` comes back from a string, its error handler being the strict one. -/
def dumps (s : Str) : Bool := dumpsFrom 0 s

end Json

/-- The strings in a user's JSON; everything else in it is ASCII. -/
def User.prints (u : User) : Bool :=
  Json.dumps u.username && Json.dumps u.displayName && Json.dumps u.profilePic

/-! ## Requests -/

/-- An object of one of the request classes. -/
inductive RequestMessage where
  | registerAccount (m : RegisterAccountMessage)
  | login (m : LoginMessage)
  | listAccounts (m : ListAccountsMessage)
  | deleteAccount (m : DeleteAccountMessage)
  | createChannel (m : CreateChannelMessage)
  | sendMessage (m : SendMessageMessage)
  | deleteMessage (m : DeleteMessageMessage)
  deriving DecidableEq

namespace RequestMessage

def operation : RequestMessage → Operation
  | .registerAccount _ => .registerAccount
  | .login _ => .login
  | .listAccounts _ => .listAccounts
  | .deleteAccount _ => .deleteAccount
  | .createChannel _ => .createChannel
  | .sendMessage _ => .sendMessage
  | .deleteMessage _ => .deleteMessage

def serialize : RequestMessage → List UInt8 → List UInt8
  | .registerAccount m => m.serialize
  | .login m => m.serialize
  | .listAccounts m => m.serialize
  | .deleteAccount m => m.serialize
  | .createChannel m => m.serialize
  | .sendMessage m => m.serialize
  | .deleteMessage m => m.serialize

def size : RequestMessage → Nat
  | .registerAccount m => m.size
  | .login m => m.size
  | .listAccounts m => m.size
  | .deleteAccount m => m.size
  | .createChannel m => m.size
  | .sendMessage m => m.size
  | .deleteMessage m => m.size

/-- A new object of the class that the server's switch has for an operation, and its decoder. -/
def deserialize : Operation → Reader UInt8 RequestMessage
  | .registerAccount => do
      let m ← RegisterAccountMessage.deserialize
      pure (.registerAccount m)
  | .login => do
      let m ← LoginMessage.deserialize
      pure (.login m)
  | .listAccounts => do
      let m ← ListAccountsMessage.deserialize
      pure (.listAccounts m)
  | .deleteAccount => do
      let m ← DeleteAccountMessage.deserialize
      pure (.deleteAccount m)
  | .createChannel => do
      let m ← (CreateChannelMessage.mk [] []).deserialize
      pure (.createChannel m)
  | .sendMessage => do
      let m ← SendMessageMessage.deserialize
      pure (.sendMessage m)
  | .deleteMessage => do
      let m ← DeleteMessageMessage.deserialize
      pure (.deleteMessage m)
  | _ => fail

/-- Every string and list fits its one-byte count. -/
def Counted : RequestMessage → Prop
  | .registerAccount m =>
      m.username.length ≤ 255 ∧ m.password.length ≤ 255 ∧ m.displayName.length ≤ 255
  | .login m => m.username.length ≤ 255 ∧ m.password.length ≤ 255
  | .listAccounts m => m.regex.length ≤ 255
  | .deleteAccount m => m.username.length ≤ 255 ∧ m.password.length ≤ 255
  | .createChannel m => m.channelName.length ≤ 255 ∧ m.members.length ≤ 255
  | .sendMessage m => m.text.length ≤ 255
  | .deleteMessage _ => True

theorem length_serialize (m : RequestMessage) : (m.serialize []).length = m.size := by
  cases m with
  | registerAccount m => exact m.length_serialize
  | login m => exact length_credentials m.username m.password
  | listAccounts m => exact m.length_serialize
  | deleteAccount m => exact length_credentials m.username m.password
  | createChannel m => exact m.length_serialize
  | sendMessage m => exact m.length_serialize
  | deleteMessage m => exact m.length_serialize

theorem serialize_append (m : RequestMessage) (buf : List UInt8) :
    m.serialize buf = buf ++ m.serialize [] := by
  cases m with
  | registerAccount m =>
      simp only [serialize, RegisterAccountMessage.serialize, List.append_assoc, List.nil_append]
  | login m | deleteAccount m =>
      simp only [serialize, LoginMessage.serialize, DeleteAccountMessage.serialize,
        serializeCredentials, List.append_assoc, List.nil_append]
  | listAccounts m =>
      simp only [serialize, ListAccountsMessage.serialize, List.append_assoc, List.nil_append]
  | createChannel m =>
      simp only [serialize, CreateChannelMessage.serialize_eq, List.nil_append]
  | sendMessage m => simp only [serialize, SendMessageMessage.serialize_eq, List.nil_append]
  | deleteMessage m => simp only [serialize, DeleteMessageMessage.serialize_eq, List.nil_append]

end RequestMessage

/-! ## Responses -/

namespace Response

def operation : Response → Operation
  | .registerAccount _ => .registerAccount
  | .login _ => .login
  | .listAccounts _ => .listAccounts
  | .deleteAccount _ => .deleteAccount
  | .createChannel _ => .createChannel
  | .sendMessage _ => .sendMessage
  | .deleteMessage _ => .deleteMessage

def serialize (e : Endian) : Response → List UInt8 → List UInt8
  | .registerAccount data => (RegisterAccountResponse.mk data).serialize
  | .login data => (LoginResponse.mk data).serialize
  | .listAccounts data => (ListAccountsResponse.mk data).serialize
  | .deleteAccount data => (DeleteAccountResponse.mk data).serialize
  | .createChannel data => (CreateChannelResponse.mk data).serialize
  | .sendMessage data => (SendMessageResponse.mk data).serialize e
  | .deleteMessage data => (DeleteMessageResponse.mk data).serialize e

def size : Response → Nat
  | .registerAccount data => (RegisterAccountResponse.mk data).size
  | .login data => (LoginResponse.mk data).size
  | .listAccounts data => (ListAccountsResponse.mk data).size
  | .deleteAccount data => (DeleteAccountResponse.mk data).size
  | .createChannel data => (CreateChannelResponse.mk data).size
  | .sendMessage data => (SendMessageResponse.mk data).size
  | .deleteMessage data => (DeleteMessageResponse.mk data).size

/-- A new object of the class that the client's switch has for an operation, and its decoder. -/
def deserialize (e : Endian) (drawn : UUID) : Operation → Reader UInt8 Response
  | .registerAccount => do
      let r ← RegisterAccountResponse.deserialize
      pure (.registerAccount r.errorMessage)
  | .login => do
      let r ← LoginResponse.deserialize drawn
      pure (.login r.data)
  | .listAccounts => do
      let r ← ListAccountsResponse.deserialize drawn
      pure (.listAccounts r.data)
  | .deleteAccount => do
      let r ← DeleteAccountResponse.deserialize drawn
      pure (.deleteAccount r.data)
  | .createChannel => do
      let r ← CreateChannelResponse.deserialize drawn
      pure (.createChannel r.data)
  | .sendMessage => do
      let r ← SendMessageResponse.deserialize e
      pure (.sendMessage r.data)
  | .deleteMessage => do
      let r ← DeleteMessageResponse.deserialize e
      pure (.deleteMessage r.data)
  | _ => fail

/-- `serialize_msg` -/
def serializeMsg (e : Endian) (r : Response) : List UInt8 → List UInt8 :=
  SockEtOut.serializeMsg r.operation r.size (r.serialize e)

/-- Whether `to_json` comes back. -/
def prints : Response → Bool
  | .registerAccount (.ok _) => true
  | .login (.ok user) | .deleteAccount (.ok user) => user.prints
  | .listAccounts (.ok users) => users.all User.prints
  | .createChannel (.ok channel) => Json.dumps channel.name
  | .sendMessage (.ok message) | .deleteMessage (.ok message) => Json.dumps message.text
  | .registerAccount (.error error) | .login (.error error) | .listAccounts (.error error)
  | .deleteAccount (.error error) | .createChannel (.error error) | .sendMessage (.error error)
  | .deleteMessage (.error error) => Json.dumps error

/-- Every string and list fits its one-byte count. -/
def Counted : Response → Prop
  | .registerAccount (.ok _) => True
  | .login (.ok user) | .deleteAccount (.ok user) => user.Counted
  | .listAccounts (.ok users) => users.length ≤ 255 ∧ ∀ user ∈ users, user.Counted
  | .createChannel (.ok channel) => channel.Counted
  | .sendMessage (.ok message) | .deleteMessage (.ok message) => message.Counted
  | .registerAccount (.error error) | .login (.error error) | .listAccounts (.error error)
  | .deleteAccount (.error error) | .createChannel (.error error) | .sendMessage (.error error)
  | .deleteMessage (.error error) => error.length ≤ 255

/-- What of a response travels: users without their channels, and one byte of a snowflake. -/
def wire : Response → Response
  | .login data => .login (data.map User.profile)
  | .listAccounts data => .listAccounts (data.map (List.map User.profile))
  | .deleteAccount data => .deleteAccount (data.map User.profile)
  | .createChannel data =>
      .createChannel (data.map fun c =>
        { c with messageSnowflakes := c.messageSnowflakes.map fun s => s.toUInt8.toUInt64 })
  | r => r

theorem length_serialize (e : Endian) (r : Response) : (r.serialize e []).length = r.size := by
  cases r with
  | registerAccount data =>
      exact length_serializeData (fun _ buf => (List.append_nil buf).symm) (fun _ => rfl) data
  | login data => exact length_serializeData User.serialize_append User.length_serialize data
  | listAccounts data =>
      exact length_serializeData ListAccountsResponse.serializeUsers_append
        ListAccountsResponse.length_serializeUsers data
  | deleteAccount data =>
      exact length_serializeData User.serialize_append User.length_serialize data
  | createChannel data => exact CreateChannelResponse.length_serialize ⟨data⟩
  | sendMessage data =>
      exact length_serializeData (Message.serialize_append e) (Message.length_serialize e) data
  | deleteMessage data =>
      exact length_serializeData (Message.serialize_append e) (Message.length_serialize e) data

/-- `CreateChannelResponse` writes its two cases as the others do. -/
theorem createChannel_serialize (data : Except Str Channel) (buf : List UInt8) :
    (CreateChannelResponse.mk data).serialize buf = serializeData Channel.serialize data buf := by
  cases data <;> rfl

theorem serialize_append (e : Endian) (r : Response) (buf : List UInt8) :
    r.serialize e buf = buf ++ r.serialize e [] := by
  cases r with
  | registerAccount data =>
      exact serializeData_append (fun _ buf => (List.append_nil buf).symm) data buf
  | login data | deleteAccount data =>
      exact serializeData_append User.serialize_append data buf
  | listAccounts data =>
      exact serializeData_append ListAccountsResponse.serializeUsers_append data buf
  | createChannel data =>
      have happend : ∀ (c : Channel) (buf : List UInt8),
          c.serialize buf = buf ++ c.serialize [] := by
        intro c buf
        rw [Channel.serialize_eq, Channel.serialize_eq c [], List.nil_append]
      show (CreateChannelResponse.mk data).serialize buf
        = buf ++ (CreateChannelResponse.mk data).serialize []
      rw [createChannel_serialize, createChannel_serialize]
      exact serializeData_append happend data buf
  | sendMessage data | deleteMessage data =>
      exact serializeData_append (Message.serialize_append e) data buf

end Response

/-- An object of one of the fourteen classes. -/
inductive Packet where
  | request (m : RequestMessage)
  | response (r : Response)

namespace Packet

def operation : Packet → Operation
  | .request m => m.operation
  | .response r => r.operation

def serialize (e : Endian) : Packet → List UInt8 → List UInt8
  | .request m => m.serialize
  | .response r => r.serialize e

def size : Packet → Nat
  | .request m => m.size
  | .response r => r.size

def serializeMsg (e : Endian) (p : Packet) : List UInt8 → List UInt8 :=
  SockEtOut.serializeMsg p.operation p.size (p.serialize e)

def Counted : Packet → Prop
  | .request m => m.Counted
  | .response r => r.Counted

theorem length_serialize (e : Endian) (p : Packet) : (p.serialize e []).length = p.size := by
  cases p with
  | request m => exact m.length_serialize
  | response r => exact r.length_serialize e

theorem serialize_append (e : Endian) (p : Packet) (buf : List UInt8) :
    p.serialize e buf = buf ++ p.serialize e [] := by
  cases p with
  | request m => exact m.serialize_append buf
  | response r => exact r.serialize_append e buf

end Packet

end SockEtOut
