import Mathlib.Data.Nat.Bitwise
import SockEtOut.Models.Basic

/-!
# Headers and frames

Every message travels behind a header of four bytes: the protocol version and the
header's own size in one, the operation, and the payload's length, high byte
first. A frame is a header and its payload.

The two builds of the program differ in the protocol version, and in what a
payload is. Nothing here looks inside a payload.
-/

namespace SockEtOut

/-- Whether `PROTOCOL_JSON` is defined. -/
inductive Build where
  | custom
  | json
  deriving DecidableEq

/-- `PROTOCOL_VERSION` -/
def Build.protocolVersion : Build → UInt8
  | .custom => 1
  | .json => 2

inductive Operation where
  | registerAccount
  | login
  | listAccounts
  | deleteAccount
  | sendMessage
  | readMessage
  | deleteMessage
  | editMessage
  | unreadMessage
  | createChannel
  | updateChannelName
  | updateDisplayName
  | updateProfilePicture
  | resetPassword
  deriving DecidableEq

/-- The enumerators in order; an operation's byte is its position. -/
def Operation.all : List Operation :=
  [.registerAccount, .login, .listAccounts, .deleteAccount, .sendMessage, .readMessage,
    .deleteMessage, .editMessage, .unreadMessage, .createChannel, .updateChannelName,
    .updateDisplayName, .updateProfilePicture, .resetPassword]

def Operation.code (op : Operation) : UInt8 := UInt8.ofNat (Operation.all.idxOf op)

/-- The enumerator a byte stands for, if it stands for one. -/
def Operation.ofCode (code : UInt8) : Option Operation := Operation.all[code.toNat]?

/-- `operation` is a byte: the cast on reading it accepts every value. -/
structure Header where
  version : UInt8
  operation : UInt8
  packetLength : UInt16
  deriving DecidableEq

namespace Header

/-- `sizeof(version) + sizeof(operation) + sizeof(packet_length)` -/
def size : Nat := 1 + 1 + 2

def serialize (h : Header) (buf : List UInt8) : List UInt8 :=
  buf ++ [(h.version <<< 4) ||| UInt8.ofNat size, h.operation,
    (h.packetLength >>> 8).toUInt8, (h.packetLength &&& 0xFF).toUInt8]

/-- The length's two bytes are copied and passed through `ntohs`. -/
def deserialize : List UInt8 → Option Header
  | b₀ :: b₁ :: b₂ :: b₃ :: _ =>
      some
        { version := b₀ >>> 4
          operation := b₁
          packetLength := (b₂.toUInt16 <<< 8) ||| b₃.toUInt16 }
  | _ => none

/-- The two bytes of a length, put together again. -/
theorem packetLength_bytes (n : UInt16) :
    ((n >>> 8).toUInt8.toUInt16 <<< 8) ||| (n &&& 0xFF).toUInt8.toUInt16 = n := by
  apply UInt16.toNat_inj.mp
  have hn : n.toNat < 2 ^ 16 := n.toNat_lt
  have hlow : (n &&& 0xFF).toNat = n.toNat % 2 ^ 8 := by
    rw [UInt16.toNat_and]
    exact Nat.and_two_pow_sub_one_eq_mod n.toNat 8
  have hhigh : (n >>> 8).toNat = n.toNat / 2 ^ 8 := by
    rw [UInt16.toNat_shiftRight, Nat.shiftRight_eq_div_pow]
    rfl
  have hshift : ((n >>> 8).toUInt8.toUInt16 <<< 8).toNat = (n.toNat / 2 ^ 8) <<< 8 := by
    rw [UInt16.toNat_shiftLeft, UInt8.toNat_toUInt16, UInt16.toNat_toUInt8, hhigh]
    show (n.toNat / 2 ^ 8 % 2 ^ 8) <<< 8 % 2 ^ 16 = (n.toNat / 2 ^ 8) <<< 8
    rw [Nat.shiftLeft_eq, Nat.shiftLeft_eq]
    omega
  rw [UInt16.toNat_or, hshift, UInt8.toNat_toUInt16, UInt16.toNat_toUInt8, hlow,
    Nat.mod_mod, ← Nat.shiftLeft_add_eq_or_of_lt (Nat.mod_lt _ (by decide)), Nat.shiftLeft_eq]
  omega

/-- A header reads back, as long as its version fits into four bits. -/
theorem deserialize_serialize (h : Header) (hv : (h.version <<< 4 ||| 4) >>> 4 = h.version) :
    deserialize (h.serialize []) = some h := by
  show some (Header.mk ((h.version <<< 4 ||| 4) >>> 4) h.operation _) = some h
  rw [packetLength_bytes, hv]

end Header

/-- The operations that have a case in the readers' switches, the same seven in both. -/
def Operation.handled : Operation → Bool
  | .registerAccount | .login | .listAccounts | .deleteAccount | .sendMessage | .deleteMessage
  | .createChannel => true
  | _ => false

/-- A frame that a reader of the current version dispatches. -/
structure Frame where
  operation : Operation
  payload : List UInt8
  handled : operation.handled = true
  length_lt : payload.length < 2 ^ 16
  deriving DecidableEq

/-- The bytes of a frame, as `serialize_msg` writes them. -/
def Frame.bytes (b : Build) (f : Frame) : List UInt8 :=
  Header.serialize ⟨b.protocolVersion, f.operation.code, UInt16.ofNat f.payload.length⟩ []
    ++ f.payload

theorem Operation.ofCode_code (op : Operation) : Operation.ofCode op.code = some op := by
  cases op <;> rfl

theorem Build.version_reads_back (b : Build) :
    (b.protocolVersion <<< 4 ||| 4) >>> 4 = b.protocolVersion := by
  cases b <;> rfl

end SockEtOut
