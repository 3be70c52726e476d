import SockEtOut.Lib.Run
import SockEtOut.Server.Tables

/-!
# The database

`Database` holds the four tables and implements the operations that touch more
than one. An operation that succeeds may emit signals on user objects; only a
user found in the table is signalled, so the uid names the object. The process
has one snowflake generator, and it is kept here.

What the environment decides is an argument: the UUID a constructor draws, the
salt of a password, the clock readings.
-/

namespace SockEtOut

/-- A signal of a `User` object, which its uid names, and what it carries. -/
inductive Signal where
  | channelAdded (user : UUID) (channel : Channel)
  | messageReceived (user : UUID) (message : Message)
  | messageDeleted (user : UUID) (message : Message)
  deriving DecidableEq

/-- Whose signal it is. -/
def Signal.user : Signal → UUID
  | .channelAdded user _ | .messageReceived user _ | .messageDeleted user _ => user

structure Database where
  users : UserTable
  messages : MessageTable
  channels : ChannelTable
  passwords : PasswordTable
  /-- `SnowflakeIDGenerator::get_instance()` -/
  generator : SnowflakeIDGenerator

/-- How an operation ends: its result, the database it leaves, and what it emitted. -/
structure Ret (α : Type) where
  outcome : Outcome (Except Str α)
  db : Database
  emitted : List Signal

/-- The database a call leaves behind, unless the call never comes back. -/
def Ret.finish {α : Type} (r : Ret α) : Option Database :=
  match r.outcome with
  | .waiting => none
  | _ => some r.db

namespace Database

/-- `Database()`, in a process that has drawn no snowflake yet. -/
def new : Database where
  users := .empty
  messages := .empty
  channels := .empty
  passwords := .empty
  generator := .instance₀

/-- Emit a signal on each user of a list that is in the table, once per listing. -/
def notify (db : Database) (userUids : List UUID) (signal : UUID → Signal) : List Signal :=
  (userUids.filter fun uid => (db.users.lookup uid).isSome).map signal

def addUser [External] (db : Database) (user : User) (password salt : Str) : Ret Unit :=
  match db.passwords.addPassword user.uid password salt with
  | (.error e, passwords) => ⟨.returned (.error e), { db with passwords }, []⟩
  | (.ok (), passwords) =>
      let (res, users) := db.users.addUser user
      ⟨.returned res, { db with passwords, users }, []⟩

def addMessage (db : Database) (senderUid channelUid : UUID) (content : Str)
    (readings : List Int) (now : UInt64) : Ret Message :=
  match db.channels.lookup channelUid with
  | none => ⟨.returned (.error (lit "Channel does not exist")), db, []⟩
  | some channel =>
      match db.messages.addMessage db.generator senderUid channelUid content readings now with
      | (.raised e, messages, generator) => ⟨.raised e, { db with messages, generator }, []⟩
      | (.waiting, messages, generator) => ⟨.waiting, { db with messages, generator }, []⟩
      | (.returned (.error e), messages, generator) =>
          ⟨.returned (.error e), { db with messages, generator }, []⟩
      | (.returned (.ok message), messages, generator) =>
          let channels := db.channels.modify channelUid (·.addMessage message.snowflake)
          ⟨.returned (.ok message), { db with messages, generator, channels },
            db.notify channel.userUids (.messageReceived · message)⟩

def addChannel (db : Database) (uid : UUID) (channelName : Str) (members : List UUID) :
    Ret Channel :=
  match db.channels.addChannel uid channelName members with
  | (.error e, channels) => ⟨.returned (.error e), { db with channels }, []⟩
  | (.ok channel, channels) =>
      let users := channel.userUids.foldl
        (fun users userUid => users.modify userUid (·.addChannel channel.uid)) db.users
      ⟨.returned (.ok channel), { db with channels, users },
        db.notify channel.userUids (.channelAdded · channel)⟩

def addUserToChannel (db : Database) (userUid channelUid : UUID) : Ret Unit :=
  match db.users.lookup userUid with
  | none => ⟨.returned (.error (lit "User does not exist")), db, []⟩
  | some _ =>
      match db.channels.lookup channelUid with
      | none => ⟨.returned (.error (lit "Channel does not exist")), db, []⟩
      | some _ =>
          ⟨.returned (.ok ()),
            { db with
              users := db.users.modify userUid (·.addChannel channelUid)
              channels := db.channels.modify channelUid (·.addUser userUid) }, []⟩

/--
The inner loop of `removeUser`, over the history of a channel that `userUid` has
just left. Its range was fixed before it started, so it visits `n` cells of the
vector's storage from cell `i` on whatever the removals do to the vector, and each
removal compares with the cell the loop variable refers to.
-/
def sweepHistory (db : Database) (userUid : UUID) (members : List UUID) :
    (n i : Nat) → Lib.Vec UInt64 → Lib.Vec UInt64 × List Signal
  | 0, _, history => (history, [])
  | n + 1, i, history =>
      match history.cells[i]?.bind db.messages.lookup with
      | none => sweepHistory db userUid members n (i + 1) history
      | some message =>
          if message.senderId = userUid then
            let rest := sweepHistory db userUid members n (i + 1)
              (history.eraseIf (Lib.Vec.refEq i))
            (rest.1, db.notify members (.messageDeleted · message) ++ rest.2)
          else sweepHistory db userUid members n (i + 1) history

/-- One pass of the outer loop of `removeUser`: take the user and its messages out of a channel. -/
def leaveChannel (db : Database) (userUid channelUid : UUID) : Database × List Signal :=
  match db.channels.lookup channelUid with
  | none => (db, [])
  | some channel =>
      let channel := channel.removeUser userUid
      let swept := db.sweepHistory userUid channel.userUids channel.messageSnowflakes.length 0
        (.ofList channel.messageSnowflakes)
      ({ db with
          channels := db.channels.assign channelUid
            { channel with messageSnowflakes := swept.1.toList } }, swept.2)

/-- The outer loop of `removeUser`, over the user's list of channels. -/
def leaveChannels (db : Database) (userUid : UUID) : List UUID → Database × List Signal
  | [] => (db, [])
  | channelUid :: channelUids =>
      let left := db.leaveChannel userUid channelUid
      let rest := leaveChannels left.1 userUid channelUids
      (rest.1, left.2 ++ rest.2)

def removeUser (db : Database) (userUid : UUID) : Ret User :=
  match db.users.lookup userUid with
  | none => ⟨.returned (.error (lit "User does not exist")), db, []⟩
  | some user =>
      let left := db.leaveChannels userUid user.channels
      let (res, users) := left.1.users.removeUser userUid
      ⟨.returned res, { left.1 with users }, left.2⟩

def removeMessage (db : Database) (messageSnowflake : UInt64) : Ret Unit :=
  match db.messages.lookup messageSnowflake with
  | none => ⟨.returned (.error (lit "Message does not exist")), db, []⟩
  | some message =>
      match db.channels.lookup message.channelId with
      | none => ⟨.returned (.error (lit "Channel does not exist")), db, []⟩
      | some channel =>
          match db.messages.removeMessage messageSnowflake with
          | (.error e, messages) => ⟨.returned (.error e), { db with messages }, []⟩
          | (.ok (), messages) =>
              ⟨.returned (.ok ()),
                { db with
                  messages
                  channels :=
                    db.channels.modify message.channelId (·.removeMessage messageSnowflake) },
                db.notify channel.userUids (.messageDeleted · message)⟩

/-- The channel is not checked for: an unknown one makes `value()` throw. -/
def removeChannel (db : Database) (channelUid : UUID) : Ret Unit :=
  match db.channels.lookup channelUid with
  | none => ⟨.raised .badOptionalAccess, db, []⟩
  | some channel =>
      let users := channel.userUids.foldl
        (fun users userUid => users.modify userUid (·.removeChannel channelUid)) db.users
      let messages := channel.messageSnowflakes.foldl
        (fun messages messageSnowflake =>
          match messages.lookup messageSnowflake with
          | none => messages
          | some _ => (MessageTable.removeMessage messages messageSnowflake).2) db.messages
      let (res, channels) := db.channels.removeChannel channelUid
      ⟨.returned res, { db with users, messages, channels }, []⟩

/-! ## Serial runs of the operations -/

/-- A call of one of the seven operations, with what the environment decides in it. -/
inductive Op where
  /-- `add_user` of a user built as `on_register_account` builds it, so with no channels. -/
  | addUser (uid : UUID) (username displayName password salt : Str)
  | addChannel (uid : UUID) (channelName : Str) (members : List UUID)
  | addUserToChannel (userUid channelUid : UUID)
  | addMessage (senderUid channelUid : UUID) (content : Str) (readings : List Int) (now : UInt64)
  | removeMessage (messageSnowflake : UInt64)
  | removeChannel (channelUid : UUID)
  | removeUser (userUid : UUID)

def step [External] (db : Database) : Op → Option Database
  | .addUser uid username displayName password salt =>
      (db.addUser (.new uid username displayName) password salt).finish
  | .addChannel uid channelName members => (db.addChannel uid channelName members).finish
  | .addUserToChannel userUid channelUid => (db.addUserToChannel userUid channelUid).finish
  | .addMessage senderUid channelUid content readings now =>
      (db.addMessage senderUid channelUid content readings now).finish
  | .removeMessage messageSnowflake => (db.removeMessage messageSnowflake).finish
  | .removeChannel channelUid => (db.removeChannel channelUid).finish
  | .removeUser userUid => (db.removeUser userUid).finish

/-- Every UUID that occurs anywhere in the tables. -/
def uids (db : Database) : List UUID :=
  db.users.keys ++ db.channels.keys ++ db.passwords.keys
    ++ db.users.values.flatMap User.channels ++ db.channels.values.flatMap Channel.userUids
    ++ db.messages.values.flatMap fun m => [m.senderId, m.channelId]

/-- The UUIDs a call draws occur nowhere yet, in its own arguments included. -/
def FreshUids (db : Database) : Op → Prop
  | .addUser uid .. => uid ∉ db.uids
  | .addChannel uid _ members => uid ∉ db.uids ∧ uid ∉ members
  | _ => True

instance (db : Database) : (op : Op) → Decidable (db.FreshUids op)
  | .addUser uid .. => inferInstanceAs (Decidable (uid ∉ db.uids))
  | .addChannel uid _ members => inferInstanceAs (Decidable (uid ∉ db.uids ∧ uid ∉ members))
  | .addUserToChannel .. | .addMessage .. | .removeMessage _ | .removeChannel _
  | .removeUser _ => inferInstanceAs (Decidable True)

/-- The database under any serial sequence of operations. -/
def system [External] : Lib.System Database Op where
  init := .new
  step := step

end Database

end SockEtOut
