import SockEtOut.Lib.Vec

/-!
# Users, messages and channels

The three kinds of object the server stores, and the UUID that names the first
and the last. An object is shared through a `std::shared_ptr`, and every pointer
to it sees an update; here an object is a value held in its table, and updating
it through a pointer is updating the table.

A `std::string` is its bytes. A channel's `message_snowflakes` is a list, except
inside the one loop that can see past its end (`Database.removeUser`), which
works on the vector's storage.
-/

namespace SockEtOut

/-- A `std::string`: any bytes, not necessarily text. -/
abbrev Str := List UInt8

/-- The bytes of a string literal of the source. -/
def lit (s : String) : Str := s.toList.map fun c => UInt8.ofNat c.toNat

/-- The exceptions the modelled code can throw. -/
inductive Exn where
  /-- `value()` of an empty `std::optional`. -/
  | badOptionalAccess
  /-- A `std::runtime_error` and its text. -/
  | runtimeError (what : Str)
  /-- No exception, but where the program is no longer defined: `->` through a null pointer. -/
  | nullDereference
  deriving DecidableEq

/-- How a call ends, when it ends. -/
inductive Outcome (α : Type) where
  | returned (a : α)
  | raised (e : Exn)
  /-- It is still in a wait loop when the clock readings given to it run out. -/
  | waiting
  deriving DecidableEq

/-- A UUID: an array of sixteen bytes. -/
structure UUID where
  value : List UInt8
  size_eq : value.length = 16
  deriving DecidableEq

/-- A UUID with one byte repeated, for examples. -/
def UUID.ofByte (b : UInt8) : UUID := ⟨List.replicate 16 b, List.length_replicate⟩

structure User where
  uid : UUID
  username : Str
  displayName : Str
  profilePic : Str
  channels : List UUID
  deriving DecidableEq

/-- `User(username, display_name)`, the uid being the one its constructor draws. -/
def User.new (uid : UUID) (username displayName : Str) : User where
  uid := uid
  username := username
  displayName := displayName
  profilePic := lit ":/assets/profile_pics/blank_profile_pic.png"
  channels := []

def User.addChannel (u : User) (channelId : UUID) : User :=
  { u with channels := u.channels ++ [channelId] }

/-- Erase what `std::find` finds: the first occurrence only. -/
def User.removeChannel (u : User) (channelId : UUID) : User :=
  { u with channels := u.channels.erase channelId }

structure Message where
  snowflake : UInt64
  senderId : UUID
  channelId : UUID
  createdAt : UInt64
  modifiedAt : UInt64
  readBy : List UUID
  text : Str
  deriving DecidableEq

/-- `Message(sender_id, channel_id, text)`, from the snowflake and the clock reading it draws. -/
def Message.new (senderId channelId : UUID) (text : Str) (snowflake createdAt : UInt64) :
    Message where
  snowflake := snowflake
  senderId := senderId
  channelId := channelId
  createdAt := createdAt
  modifiedAt := createdAt
  readBy := [senderId]
  text := text

structure Channel where
  uid : UUID
  name : Str
  userUids : List UUID
  messageSnowflakes : List UInt64
  deriving DecidableEq

/-- `Channel(name, user_uids)`, the uid being the one its constructor draws. -/
def Channel.new (uid : UUID) (name : Str) (userUids : List UUID) : Channel where
  uid := uid
  name := name
  userUids := userUids
  messageSnowflakes := []

def Channel.addUser (c : Channel) (userUid : UUID) : Channel :=
  { c with userUids := c.userUids ++ [userUid] }

def Channel.addMessage (c : Channel) (messageSnowflake : UInt64) : Channel :=
  { c with messageSnowflakes := c.messageSnowflakes ++ [messageSnowflake] }

/-- Erase every occurrence of a member. -/
def Channel.removeUser (c : Channel) (userUid : UUID) : Channel :=
  { c with userUids := ((Lib.Vec.ofList c.userUids).eraseIf fun _ uid => uid == userUid).toList }

/-- Erase every occurrence of a snowflake, the argument being a value of the caller's. -/
def Channel.removeMessage (c : Channel) (messageSnowflake : UInt64) : Channel :=
  { c with
    messageSnowflakes :=
      ((Lib.Vec.ofList c.messageSnowflakes).eraseIf fun _ s => s == messageSnowflake).toList }

/-! ## The two notions of removal -/

theorem Channel.removeUser_userUids (c : Channel) (u : UUID) :
    (c.removeUser u).userUids = c.userUids.filter (fun v => !(v == u)) := by
  unfold Channel.removeUser
  dsimp only
  rw [Lib.Vec.eraseIf_const, Lib.Vec.toList_ofList]

theorem Channel.removeMessage_messageSnowflakes (c : Channel) (s : UInt64) :
    (c.removeMessage s).messageSnowflakes = c.messageSnowflakes.filter (fun t => !(t == s)) := by
  unfold Channel.removeMessage
  dsimp only
  rw [Lib.Vec.eraseIf_const, Lib.Vec.toList_ofList]

@[simp] theorem Channel.removeUser_messageSnowflakes (c : Channel) (u : UUID) :
    (c.removeUser u).messageSnowflakes = c.messageSnowflakes := rfl

@[simp] theorem Channel.removeMessage_userUids (c : Channel) (s : UInt64) :
    (c.removeMessage s).userUids = c.userUids := rfl

/-- `removeChannel` takes one occurrence, not all. -/
theorem User.count_removeChannel (u : User) (c d : UUID) :
    (u.removeChannel c).channels.count d = u.channels.count d - if c = d then 1 else 0 := by
  unfold User.removeChannel
  dsimp only
  rw [List.count_erase]
  by_cases h : c = d <;> simp [h]

theorem User.count_addChannel (u : User) (c d : UUID) :
    (u.addChannel c).channels.count d = u.channels.count d + if c = d then 1 else 0 := by
  unfold User.addChannel
  dsimp only
  rw [List.count_append, List.count_singleton]
  by_cases h : c = d <;> simp [h]

end SockEtOut
