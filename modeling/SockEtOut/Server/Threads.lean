import SockEtOut.Server.Handlers

/-!
# Requests on several threads

Each connection has a thread, which runs one handler at a time. What is atomic is
one call on one table or one object, under its lock, and one emission or write;
between two of them any other thread may move. The handlers below are the ones
that send and delete messages and the one that logs a user in. None of them
writes users, passwords or member lists, so what they read there is read when it
is first needed.

A signal reaches the slots that are connected when it is emitted. A slot of the
emitting thread's own connection runs at once, and any other is queued until the
thread it lives on is between two handlers.

The loop of a login goes over the live vector of a channel's snowflakes. Its range
is fixed when it starts: two pointers into the block of cells the vector has then.
Appending to a block with room moves nothing; one that is full is left for another
(`relocate`), and freed. Reading on in it is undefined. The loop below then comes to
its end, having found nothing it can look up, as one that reads other things than
snowflakes does. Erasing a snowflake shifts the cells behind it, which the loop below
does not notice; what a login writes is stated only where nobody deletes.
-/

namespace SockEtOut.Threads

/-- Where a thread stands in its handler. -/
inductive Pc where
  | idle
  /-- `Database::add_message` has found the channel; the message is about to be stored. -/
  | storing (senderUid channelUid : UUID) (content : Str)
  /-- It is stored; its snowflake is about to be appended to the channel's list. -/
  | listing (message : Message)
  /-- It is listed; these members are left to be signalled. -/
  | announcing (message : Message) (userUids : List UUID)
  /-- `Database::remove_message` has found the message; its channel is about to be looked up. -/
  | findingChannel (message : Message)
  /-- The message is about to be erased from the table. -/
  | erasing (message : Message)
  /-- It is erased; these members are left to be signalled, and the list is next. -/
  | announcingDeletion (message : Message) (userUids : List UUID)
  /-- `on_login` has checked the password; the old user's signals are about to be disconnected. -/
  | disconnecting (user : User)
  /-- The user's signals are about to be connected. -/
  | connecting (user : User)
  /-- The `LoginResponse` is about to be written. -/
  | greeting (user : User)
  /-- These channels are left to be replayed. -/
  | replaying (channelUids : List UUID)
  /-- A channel is written; the loop over its history is about to start. -/
  | openingHistory (channelUid : UUID) (channelUids : List UUID)
  /-- These snowflakes are left of the loop's range in a block, and then these channels. -/
  | replayingHistory (channelUid : UUID) (block : Nat) (messageSnowflakes : List UInt64)
      (channelUids : List UUID)
  deriving DecidableEq

structure State where
  server : Server
  /-- Program counters; a thread without an entry is idle. -/
  threads : Lib.Table Nat Pc
  /-- The notifications that wait for a connection's thread, in order. -/
  queued : Nat → List Response
  /-- The frames written to each connection, in order. -/
  written : Nat → List Response
  /-- The snowflakes for which `remove_message` has returned success, in order. -/
  removed : List UInt64
  /-- The block of cells that each channel's list of snowflakes is in. -/
  block : UUID → Nat

namespace State

def pc (s : State) (thread : Nat) : Pc := (s.threads.lookup thread).getD .idle

def setPc (s : State) (thread : Nat) (pc : Pc) : State :=
  { s with threads := s.threads.assign thread pc }

def setDb (s : State) (db : Database) : State := { s with server := { s.server with db } }

/-- Write frames to a connection, on its own thread. -/
def write (s : State) (conn : Nat) (responses : List Response) : State :=
  { s with written := Function.update s.written conn (s.written conn ++ responses) }

/-- Emit a signal on a thread: its own slots run now, the others' are queued. -/
def emit (s : State) (thread : Nat) (signal : Signal) : State :=
  let frames := s.server.deliver signal
  { s with
    written := Function.update s.written thread (s.written thread ++ framesFor thread frames)
    queued conn :=
      if conn = thread then s.queued conn else s.queued conn ++ framesFor conn frames }

/-- Signal one member, if it is registered. -/
def signal (s : State) (thread : Nat) (userUid : UUID) (signal : UUID → Signal) : State :=
  match s.server.db.users.lookup userUid with
  | none => s
  | some _ => s.emit thread (signal userUid)

end State

/-- The member list of a channel. -/
def members (db : Database) (channelUid : UUID) : List UUID :=
  ((db.channels.lookup channelUid).map Channel.userUids).getD []

/-- The history of a channel. -/
def history (db : Database) (channelUid : UUID) : List UInt64 :=
  ((db.channels.lookup channelUid).map Channel.messageSnowflakes).getD []

/-- What a thread can do, with what the environment decides in it. -/
inductive Act where
  /-- `on_send_message` starts. -/
  | sendMessage (senderUid channelUid : UUID) (text : Str)
  /-- `on_delete_message` starts. -/
  | deleteMessage (messageSnowflake : UInt64)
  /-- `on_login` starts. -/
  | login (username password : Str)
  /-- The handler goes on by one step; only the one that stores a message reads the clock. -/
  | advance (readings : List Int) (now : UInt64)
  /-- The list that is about to be appended to is full, and its cells move. -/
  | relocate
  /-- Between two handlers, the slot of a queued notification runs. -/
  | deliver

/-- One step of a handler that has started. -/
def advance (s : State) (i : Nat) (readings : List Int) (now : UInt64) : Pc → Option State
  | .idle => none
  -- `Database::add_message`
  | .storing senderUid channelUid content =>
      let db := s.server.db
      match db.messages.addMessage db.generator senderUid channelUid content readings now with
      | (.returned (.ok message), messages, generator) =>
          some ((s.setDb { db with messages, generator }).setPc i (.listing message))
      | (.returned (.error _), messages, generator) | (.raised _, messages, generator) =>
          some ((s.setDb { db with messages, generator }).setPc i .idle)
      | (.waiting, _, _) => none
  | .listing message =>
      let db := s.server.db
      let channels := db.channels.modify message.channelId (·.addMessage message.snowflake)
      some ((s.setDb { db with channels }).setPc i
        (.announcing message (members db message.channelId)))
  | .announcing message (userUid :: userUids) =>
      some ((s.signal i userUid (.messageReceived · message)).setPc i
        (.announcing message userUids))
  | .announcing _ [] => some (s.setPc i .idle)
  -- `Database::remove_message`
  | .findingChannel message =>
      match s.server.db.channels.lookup message.channelId with
      | none => some (s.setPc i .idle)
      | some _ => some (s.setPc i (.erasing message))
  | .erasing message =>
      let db := s.server.db
      let (_, messages) := db.messages.removeMessage message.snowflake
      some ((s.setDb { db with messages }).setPc i
        (.announcingDeletion message (members db message.channelId)))
  | .announcingDeletion message (userUid :: userUids) =>
      some ((s.signal i userUid (.messageDeleted · message)).setPc i
        (.announcingDeletion message userUids))
  | .announcingDeletion message [] =>
      let db := s.server.db
      let channels := db.channels.modify message.channelId (·.removeMessage message.snowflake)
      some { (s.setDb { db with channels }).setPc i .idle with
        removed := s.removed ++ [message.snowflake] }
  -- `on_login`
  | .disconnecting user =>
      some { s.setPc i (.connecting user) with
        server := { s.server with slots := s.server.disconnected i } }
  | .connecting user =>
      some { s.setPc i (.greeting user) with
        server := { s.server with
          authenticatedUser := Function.update s.server.authenticatedUser i (some user.uid)
          slots := s.server.slots ++ Server.slotsOf i user.uid } }
  | .greeting user => some ((s.write i [.login (.ok user)]).setPc i (.replaying user.channels))
  | .replaying [] => some (s.setPc i .idle)
  | .replaying (channelUid :: channelUids) =>
      match s.server.db.channels.lookup channelUid with
      | none => some (s.setPc i (.replaying channelUids))
      | some channel =>
          some ((s.write i [.createChannel (.ok channel)]).setPc i
            (.openingHistory channelUid channelUids))
  | .openingHistory channelUid channelUids =>
      some (s.setPc i (.replayingHistory channelUid (s.block channelUid)
        (history s.server.db channelUid) channelUids))
  | .replayingHistory channelUid block messageSnowflakes channelUids =>
      -- the cells have moved, and the loop is where they were
      if s.block channelUid ≠ block then some (s.setPc i (.replaying channelUids))
      else
        match messageSnowflakes with
        | [] => some (s.setPc i (.replaying channelUids))
        | messageSnowflake :: messageSnowflakes =>
            match s.server.db.messages.lookup messageSnowflake with
            | none =>
                some (s.setPc i (.replayingHistory channelUid block messageSnowflakes channelUids))
            | some message =>
                some ((s.write i [.sendMessage (.ok message)]).setPc i
                  (.replayingHistory channelUid block messageSnowflakes channelUids))

/-- The reallocation that an append begins with, if it needs one. -/
def relocate (s : State) : Pc → Option State
  | .listing message =>
      some { s with
        block := Function.update s.block message.channelId (s.block message.channelId + 1) }
  | _ => none

/-- How `on_login` starts: a refusal is written, an unknown username throws. -/
def login [External] (s : State) (i : Nat) (username password : Str) : State :=
  match s.server.db.users.getUidFromUsername username with
  | none => s
  | some userUid =>
      match s.server.db.passwords.verifyPassword userUid password with
      | .error error => s.write i [.login (.error error)]
      | .ok false => s.write i [.login (.error (lit "Incorrect password"))]
      | .ok true =>
          match s.server.db.users.lookup userUid with
          | none => s
          | some user => s.setPc i (.disconnecting user)

/-- What a thread between two handlers can do. -/
def pickUp [External] (s : State) (i : Nat) : Act → Option State
  | .sendMessage senderUid channelUid text =>
      match s.server.db.channels.lookup channelUid with
      | none => some s
      | some _ => some (s.setPc i (.storing senderUid channelUid text))
  | .deleteMessage messageSnowflake =>
      match s.server.db.messages.lookup messageSnowflake with
      | none => some s
      | some message => some (s.setPc i (.findingChannel message))
  | .login username password => some (login s i username password)
  | .deliver =>
      match s.queued i with
      | [] => none
      | response :: responses =>
          some { s.write i [response] with queued := Function.update s.queued i responses }
  | .advance .. | .relocate => none

def step [External] (s : State) : Nat × Act → Option State
  | (i, .advance readings now) => advance s i readings now (s.pc i)
  | (i, .relocate) => relocate s (s.pc i)
  | (i, act) => if s.pc i = .idle then pickUp s i act else none

/-- A server whose threads are all between two handlers. -/
def start (server : Server) : State where
  server := server
  threads := .empty
  queued _ := []
  written _ := []
  removed := []
  block _ := 0

/-- Any interleaving of the handlers' steps, from a server at rest. -/
def system [External] (server : Server) : Lib.System State (Nat × Act) where
  init := start server
  step := step

end SockEtOut.Threads
