import SockEtOut.Lib.Word
import SockEtOut.Wire.Channel

/-!
# Users and messages on the wire

The custom build's encoding of a `User` and of a `Message`. Neither has an outer
length: a decoder that embeds one in a list goes on behind its `size`, which is
computed from what has just been decoded.

A user's list of channels does not travel. A message's three numbers are copied
from memory and to memory, in the byte order of the machine.
-/

namespace SockEtOut

open Lib Reader

namespace User

def serialize (u : User) (buf : List UInt8) : List UInt8 :=
  let usernameLength := UInt8.ofNat u.username.length
  let displayNameLength := UInt8.ofNat u.displayName.length
  let profilePicLength := UInt8.ofNat u.profilePic.length
  let buf := u.uid.serialize buf
  let buf := buf ++ [usernameLength]
  let buf := buf ++ u.username
  let buf := buf ++ [displayNameLength]
  let buf := buf ++ u.displayName
  let buf := buf ++ [profilePicLength]
  buf ++ u.profilePic

/-- Read into a user: all that travels is overwritten, the channels stay. -/
def deserialize (this : User) : Reader UInt8 User := do
  let uid ← UUID.deserialize
  let usernameLength ← next
  let username ← range usernameLength.toNat
  let displayNameLength ← next
  let displayName ← range displayNameLength.toNat
  let profilePicLength ← next
  let profilePic ← range profilePicLength.toNat
  pure { this with uid, username, displayName, profilePic }

def size (u : User) : Nat :=
  let size := u.uid.value.length
  let size := size + (1 + u.username.length)
  let size := size + (1 + u.displayName.length)
  size + (1 + u.profilePic.length)

/-- `User()`: empty, under a uid of its own. -/
def default (uid : UUID) : User := ⟨uid, [], [], [], []⟩

/-- What of a user travels: everything but its channels. -/
def profile (u : User) : User := { u with channels := [] }

/-- Every string fits its length byte. -/
def Counted (u : User) : Prop :=
  u.username.length ≤ 255 ∧ u.displayName.length ≤ 255 ∧ u.profilePic.length ≤ 255

instance (u : User) : Decidable u.Counted :=
  inferInstanceAs (Decidable (_ ∧ _ ∧ _))

end User

namespace Message

def serialize (e : Endian) (m : Message) (buf : List UInt8) : List UInt8 :=
  let buf := m.senderId.serialize buf
  let buf := m.channelId.serialize buf
  let buf := buf ++ e.bytes m.snowflake
  let buf := buf ++ e.bytes m.createdAt
  let buf := buf ++ e.bytes m.modifiedAt
  let textLength := UInt8.ofNat m.text.length
  let buf := buf ++ [textLength]
  let buf := buf ++ m.text
  let readBySize := UInt8.ofNat m.readBy.length
  let buf := buf ++ [readBySize]
  m.readBy.foldl (fun buf userId => userId.serialize buf) buf

/-- `*reinterpret_cast<const uint64_t*>(&buf[offset])` -/
def readWord (e : Endian) : Reader UInt8 UInt64 := do
  let bytes ← range 8
  pure (e.word bytes)

/-- Nothing of the message read into is left: `read_by` is cleared. -/
def deserialize (e : Endian) : Reader UInt8 Message := do
  let senderId ← UUID.deserialize
  let channelId ← UUID.deserialize
  let snowflake ← readWord e
  let createdAt ← readWord e
  let modifiedAt ← readWord e
  let textLength ← next
  let text ← range textLength.toNat
  let readBySize ← next
  let readBy ← times UUID.deserialize readBySize.toNat
  pure { snowflake, senderId, channelId, createdAt, modifiedAt, readBy, text }

def size (m : Message) : Nat :=
  let size := m.senderId.value.length + m.channelId.value.length
  let size := size + (8 + 8 + 8)
  let size := size + (1 + m.text.length)
  let size := size + 1
  m.readBy.foldl (fun size _ => size + 16) size

/-- The text and the readers fit their one-byte counts. -/
def Counted (m : Message) : Prop := m.text.length ≤ 255 ∧ m.readBy.length ≤ 255

instance (m : Message) : Decidable m.Counted :=
  inferInstanceAs (Decidable (_ ∧ _))

end Message

/-- A channel within its one-byte counts. -/
def Channel.Counted (c : Channel) : Prop :=
  c.name.length ≤ 255 ∧ c.userUids.length ≤ 255 ∧ c.messageSnowflakes.length ≤ 255

/-! ## The bytes -/

/-- The sections of a serialized user, in order. -/
theorem User.serialize_eq (u : User) (buf : List UInt8) :
    u.serialize buf = buf ++ (u.uid.value ++ ([UInt8.ofNat u.username.length] ++ (u.username
      ++ ([UInt8.ofNat u.displayName.length] ++ (u.displayName
      ++ ([UInt8.ofNat u.profilePic.length] ++ u.profilePic)))))) := by
  unfold User.serialize UUID.serialize
  dsimp only
  simp only [List.append_assoc]

/-- `size` is what `serialize` writes. -/
theorem User.length_serialize (u : User) : (u.serialize []).length = u.size := by
  rw [User.serialize_eq, User.size]
  simp only [List.nil_append, List.length_append, List.length_singleton]
  omega

@[simp] theorem User.size_profile (u : User) : u.profile.size = u.size := rfl

theorem Message.serialize_eq (e : Endian) (m : Message) (buf : List UInt8) :
    m.serialize e buf = buf ++ (m.senderId.value ++ (m.channelId.value ++ (e.bytes m.snowflake
      ++ (e.bytes m.createdAt ++ (e.bytes m.modifiedAt ++ ([UInt8.ofNat m.text.length] ++ (m.text
      ++ ([UInt8.ofNat m.readBy.length] ++ m.readBy.flatMap UUID.value)))))))) := by
  unfold Message.serialize UUID.serialize
  dsimp only
  rw [foldl_append_eq UUID.value]
  simp only [List.append_assoc]

theorem length_uuids (us : List UUID) : (us.flatMap UUID.value).length = 16 * us.length := by
  induction us with
  | nil => rfl
  | cons u us ih =>
      rw [List.flatMap_cons, List.length_append, ih, u.size_eq, List.length_cons]
      omega

theorem foldl_add_const {α : Type*} (k : Nat) (xs : List α) (n : Nat) :
    xs.foldl (fun n _ => n + k) n = n + k * xs.length := by
  induction xs generalizing n with
  | nil => rfl
  | cons x xs ih => rw [List.foldl_cons, ih, List.length_cons, Nat.mul_succ]; omega

theorem Message.length_serialize (e : Endian) (m : Message) :
    (m.serialize e []).length = m.size := by
  rw [Message.serialize_eq, List.nil_append, Message.size, foldl_add_const]
  simp only [List.length_append, List.length_singleton, Endian.length_bytes, length_uuids]
  omega

/-! ## What is read back -/

/-- Into a user without channels, a user reads as its profile. -/
theorem reads_user (drawn : UUID) (u : User) (h : u.Counted) :
    Reads (User.default drawn).deserialize (u.serialize []) u.profile := by
  obtain ⟨husername, hdisplayName, hprofilePic⟩ := h
  rw [User.serialize_eq, List.nil_append]
  refine (reads_uuid u.uid).bind ?_
  refine (reads_next _).bind ?_
  refine (reads_range (toNat_count husername)).bind ?_
  refine (reads_next _).bind ?_
  refine (reads_range (toNat_count hdisplayName)).bind ?_
  refine (reads_next _).bind ?_
  exact (reads_range (toNat_count hprofilePic)).map _

theorem reads_word (e : Endian) (n : UInt64) : Reads (Message.readWord e) (e.bytes n) n := by
  have hbytes := (reads_range (e.length_bytes n)).map e.word
  rwa [e.word_bytes] at hbytes

theorem reads_message (e : Endian) (m : Message) (h : m.Counted) :
    Reads (Message.deserialize e) (m.serialize e []) m := by
  obtain ⟨htext, hreadBy⟩ := h
  have hreadBy' := reads_times (toNat_count hreadBy) fun u _ => reads_uuid u
  rw [List.map_id'] at hreadBy'
  rw [Message.serialize_eq, List.nil_append]
  refine (reads_uuid m.senderId).bind ?_
  refine (reads_uuid m.channelId).bind ?_
  refine (reads_word e m.snowflake).bind ?_
  refine (reads_word e m.createdAt).bind ?_
  refine (reads_word e m.modifiedAt).bind ?_
  refine (reads_next _).bind ?_
  refine (reads_range (toNat_count htext)).bind ?_
  refine (reads_next _).bind ?_
  exact hreadBy'.map _

end SockEtOut
