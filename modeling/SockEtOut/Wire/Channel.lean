import SockEtOut.Lib.Reader
import SockEtOut.Models.Basic

/-!
# Channels on the wire

The custom build's encoding of a UUID, a channel and a `CreateChannelResponse`.
A writer appends to the buffer it is given; a reader walks one with an offset,
and comes back empty where the source would read past the end.

Every count and length is one byte. So is every message snowflake: the writer
pushes the 64-bit value onto a vector of bytes, the reader takes one byte back,
and `size` counts one. `reads_channel` says what comes out.
-/

namespace SockEtOut

open Lib Reader

def UUID.serialize (u : UUID) (buf : List UInt8) : List UInt8 := buf ++ u.value

/-- Copy sixteen bytes. -/
def UUID.deserialize : Reader UInt8 UUID := do
  let value ← range 16
  if h : value.length = 16 then pure ⟨value, h⟩ else fail

namespace Channel

def serialize (c : Channel) (buf : List UInt8) : List UInt8 :=
  let buf := c.uid.serialize buf
  let nameLength := UInt8.ofNat c.name.length
  let buf := buf ++ [nameLength]
  let buf := buf ++ c.name
  let numUsers := UInt8.ofNat c.userUids.length
  let buf := buf ++ [numUsers]
  let buf := c.userUids.foldl (fun buf userUid => userUid.serialize buf) buf
  let numMessages := UInt8.ofNat c.messageSnowflakes.length
  let buf := buf ++ [numMessages]
  c.messageSnowflakes.foldl (fun buf messageSnowflake => buf ++ [messageSnowflake.toUInt8]) buf

/-- Read into a channel: the lists are appended to, the rest is overwritten. -/
def deserialize (this : Channel) : Reader UInt8 Channel := do
  let uid ← UUID.deserialize
  let nameLength ← next
  let name ← range nameLength.toNat
  let numUsers ← next
  let userUids ← times UUID.deserialize numUsers.toNat
  let numMessages ← next
  let messageSnowflakes ← times (do let b ← next; pure b.toUInt64) numMessages.toNat
  pure
    { uid := uid
      name := name
      userUids := this.userUids ++ userUids
      messageSnowflakes := this.messageSnowflakes ++ messageSnowflakes }

def size (c : Channel) : Nat :=
  c.userUids.foldl (fun size userUid => size + userUid.value.length) (16 + 1 + c.name.length + 1)
    + 1 + c.messageSnowflakes.length

/-- `Channel()`: empty, under a uid of its own. -/
def default (uid : UUID) : Channel := .new uid [] []

end Channel

/-- Either a channel or the text of an error. -/
structure CreateChannelResponse where
  data : Except Str Channel

namespace CreateChannelResponse

def serialize (r : CreateChannelResponse) (buf : List UInt8) : List UInt8 :=
  match r.data with
  | .ok channel => channel.serialize (buf ++ [0])
  | .error error => buf ++ [1] ++ [UInt8.ofNat error.length] ++ error

/-- A success is read into a new channel, whose uid is drawn and then overwritten. -/
def deserialize (drawn : UUID) : Reader UInt8 CreateChannelResponse := do
  let hasError ← next
  if hasError = 0 then do
    let channel ← (Channel.default drawn).deserialize
    pure ⟨.ok channel⟩
  else do
    let errorLength ← next
    let error ← range errorLength.toNat
    pure ⟨.error error⟩

def size (r : CreateChannelResponse) : Nat :=
  match r.data with
  | .ok channel => 1 + channel.size
  | .error error => 1 + (1 + error.length)

def isSuccess (r : CreateChannelResponse) : Bool :=
  match r.data with
  | .ok _ => true
  | .error _ => false

def getErrorMessage (r : CreateChannelResponse) : Option Str :=
  match r.data with
  | .ok _ => none
  | .error error => some error

def getData (r : CreateChannelResponse) : Option Channel :=
  match r.data with
  | .ok channel => some channel
  | .error _ => none

end CreateChannelResponse

/-! ## The bytes of a channel -/

theorem foldl_append_eq {α β : Type*} (f : α → List β) (xs : List α) (buf : List β) :
    xs.foldl (fun buf x => buf ++ f x) buf = buf ++ xs.flatMap f := by
  induction xs generalizing buf with
  | nil => simp
  | cons x xs ih => rw [List.foldl_cons, ih, List.flatMap_cons, List.append_assoc]

theorem foldl_length_eq {α β : Type*} (f : α → List β) (xs : List α) (n : Nat) :
    xs.foldl (fun n x => n + (f x).length) n = n + (xs.flatMap f).length := by
  induction xs generalizing n with
  | nil => rfl
  | cons x xs ih =>
      rw [List.foldl_cons, ih, List.flatMap_cons, List.length_append, Nat.add_assoc]

/-- The sections of a serialized channel, in order. -/
theorem Channel.serialize_eq (c : Channel) (buf : List UInt8) :
    c.serialize buf = buf ++ (c.uid.value ++ ([UInt8.ofNat c.name.length] ++ (c.name
      ++ ([UInt8.ofNat c.userUids.length] ++ (c.userUids.flatMap UUID.value
      ++ ([UInt8.ofNat c.messageSnowflakes.length]
      ++ c.messageSnowflakes.flatMap fun s => [s.toUInt8])))))) := by
  unfold Channel.serialize UUID.serialize
  dsimp only
  rw [foldl_append_eq, foldl_append_eq UUID.value]
  simp only [List.append_assoc]

theorem Channel.serialize_append (c : Channel) (buf : List UInt8) :
    c.serialize buf = buf ++ c.serialize [] := by
  rw [Channel.serialize_eq, Channel.serialize_eq c [], List.nil_append]

/-- `size` is what `serialize` writes. -/
theorem Channel.length_serialize (c : Channel) : (c.serialize []).length = c.size := by
  rw [Channel.serialize_eq, Channel.size, foldl_length_eq UUID.value, ← List.map_eq_flatMap]
  simp only [List.nil_append, List.length_append, List.length_singleton, List.length_map,
    c.uid.size_eq]
  omega

theorem CreateChannelResponse.length_serialize (r : CreateChannelResponse) :
    (r.serialize []).length = r.size := by
  unfold CreateChannelResponse.serialize CreateChannelResponse.size
  cases r.data with
  | ok channel =>
      dsimp only
      rw [Channel.serialize_eq, List.length_append, ← channel.length_serialize,
        Channel.serialize_eq channel []]
      rfl
  | error error =>
      simp only [List.nil_append, List.length_append, List.length_singleton]
      omega

/-! ## What is read back -/

theorem reads_uuid (u : UUID) : Reads UUID.deserialize u.value u := by
  rw [← List.append_nil u.value]
  refine (reads_range u.size_eq).bind ?_
  rw [dif_pos u.size_eq]
  exact reads_pure u

/-- A snowflake comes back as its lowest byte. -/
theorem reads_snowflake (s : UInt64) :
    Reads (do let b ← next; pure b.toUInt64) [s.toUInt8] s.toUInt8.toUInt64 := by
  exact (reads_next s.toUInt8).map _

theorem toNat_count {n : Nat} (h : n ≤ 255) : n = (UInt8.ofNat n).toNat :=
  (UInt8.toNat_ofNat_of_lt' (by show n < 256; omega)).symm

/-- **What a channel reads back as**: itself, but for its snowflakes. -/
theorem reads_channel (this c : Channel) (hname : c.name.length ≤ 255)
    (husers : c.userUids.length ≤ 255) (hmessages : c.messageSnowflakes.length ≤ 255) :
    Reads this.deserialize (c.serialize [])
      { uid := c.uid
        name := c.name
        userUids := this.userUids ++ c.userUids
        messageSnowflakes :=
          this.messageSnowflakes ++ c.messageSnowflakes.map fun s => s.toUInt8.toUInt64 } := by
  have husers' := reads_times (toNat_count husers) fun u _ => reads_uuid u
  rw [List.map_id'] at husers'
  have hmessages' := reads_times (toNat_count hmessages) fun s _ => reads_snowflake s
  rw [Channel.serialize_eq, List.nil_append]
  refine (reads_uuid c.uid).bind ?_
  refine (reads_next _).bind ?_
  refine (reads_range (toNat_count hname)).bind ?_
  refine (reads_next _).bind ?_
  refine husers'.bind ?_
  refine (reads_next _).bind ?_
  exact hmessages'.map _

/-- A successful response reads back as a successful response. -/
theorem reads_success (drawn : UUID) (c : Channel) (hname : c.name.length ≤ 255)
    (husers : c.userUids.length ≤ 255) (hmessages : c.messageSnowflakes.length ≤ 255) :
    Reads (CreateChannelResponse.deserialize drawn)
      ((CreateChannelResponse.mk (.ok c)).serialize [])
      ⟨.ok { c with
        messageSnowflakes := c.messageSnowflakes.map fun s => s.toUInt8.toUInt64 }⟩ := by
  have hchannel := reads_channel (.default drawn) c hname husers hmessages
  have hbytes : (CreateChannelResponse.mk (.ok c)).serialize [] = [0] ++ c.serialize [] := by
    show c.serialize ([] ++ [0]) = _
    rw [Channel.serialize_eq, Channel.serialize_eq c []]
    rfl
  rw [hbytes]
  refine (reads_next 0).bind ?_
  rw [if_pos rfl]
  exact hchannel.map _

end SockEtOut
