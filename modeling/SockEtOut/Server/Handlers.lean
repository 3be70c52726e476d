import SockEtOut.Server.Database

/-!
# Connections and request handlers

A connection is a `ClientHandler` on a thread of its own. It remembers the user
it has authenticated and has its slots connected to that user's signals; a slot
writes one frame to the connection's own socket. `handle` runs a request to
completion, the notifications it causes included, and says which frames went to
which connection, in the order each connection's socket gets them.

A frame is the response it carries. How responses become bytes is the business of
`Wire`.
-/

namespace SockEtOut

/-- What the server writes to a client. -/
inductive Response where
  | registerAccount (data : Except Str Unit)
  | login (data : Except Str User)
  | listAccounts (data : Except Str (List User))
  | deleteAccount (data : Except Str User)
  | createChannel (data : Except Str Channel)
  | sendMessage (data : Except Str Message)
  | deleteMessage (data : Except Str Message)

/-- What a client asks of the server. -/
inductive Request where
  | registerAccount (username password displayName : Str)
  | login (username password : Str)
  | listAccounts (regex : Str)
  | deleteAccount (username password : Str)
  | createChannel (channelName : Str) (members : List UUID)
  | sendMessage (senderUid channelUid : UUID) (text : Str)
  | deleteMessage (messageSnowflake : UInt64)

/-- What the environment decides while a request is handled. -/
structure Draws where
  uid : UUID
  salt : Str
  readings : List Int
  now : UInt64

/-- A UUID and clock readings, for examples. -/
def Draws.ofByte (uid : UInt8) (readings : List Int) : Draws :=
  ⟨.ofByte uid, lit "saltsaltsaltsalt", readings, 0⟩

/-- The slots of a `ClientHandler`, one for each signal of a `User`. -/
inductive SlotKind where
  | onChannelAdded
  | onMessageReceived
  | onMessageDeleted
  deriving DecidableEq

/-- A Qt connection from a user's signal to a client handler's slot. -/
structure Slot where
  sender : UUID
  kind : SlotKind
  receiver : Nat
  deriving DecidableEq

/-- The slot a signal goes to. -/
def Signal.kind : Signal → SlotKind
  | .channelAdded .. => .onChannelAdded
  | .messageReceived .. => .onMessageReceived
  | .messageDeleted .. => .onMessageDeleted

/-- What the slot writes. -/
def Signal.response : Signal → Response
  | .channelAdded _ channel => .createChannel (.ok channel)
  | .messageReceived _ message => .sendMessage (.ok message)
  | .messageDeleted _ message => .deleteMessage (.ok message)

structure Server where
  db : Database
  /-- `authenticated_user` of each connection's handler. -/
  authenticatedUser : Nat → Option UUID
  /-- The Qt connections, in the order they were made. -/
  slots : List Slot

/-- The end of a handler: how it ended, the server it leaves, and the frames it wrote. -/
structure Handled where
  outcome : Outcome Unit
  server : Server
  written : List (Nat × Response)

/-- The frames for one connection among those for all, in order. -/
def framesFor (conn : Nat) (written : List (Nat × Response)) : List Response :=
  (written.filter fun p => p.1 = conn).map Prod.snd

namespace Server

def new : Server where
  db := .new
  authenticatedUser _ := none
  slots := []

/-- The slots of a connection on a user's signals. -/
def slotsOf (conn : Nat) (uid : UUID) : List Slot :=
  [⟨uid, .onChannelAdded, conn⟩, ⟨uid, .onMessageReceived, conn⟩, ⟨uid, .onMessageDeleted, conn⟩]

/-- The Qt connections that are left when a handler has let go of the user it had, if any. -/
def disconnected (s : Server) (conn : Nat) : List Slot :=
  match s.authenticatedUser conn with
  | none => s.slots
  | some old => s.slots.filter (· ∉ slotsOf conn old)

/-- `ClientHandler::set_authenticated_user`: disconnect from the old user, connect to the new. -/
def setAuthenticatedUser (s : Server) (conn : Nat) (uid : UUID) : Server where
  db := s.db
  authenticatedUser := Function.update s.authenticatedUser conn (some uid)
  slots := s.disconnected conn ++ slotsOf conn uid

/-- The frames a signal causes: one for each slot connected to it. -/
def deliver (s : Server) (signal : Signal) : List (Nat × Response) :=
  (s.slots.filter fun slot => slot.sender = signal.user ∧ slot.kind = signal.kind).map
    fun slot => (slot.receiver, signal.response)

/-- Finish a handler with a database call, its notifications, and a reply to its result. -/
def conclude {α : Type} (s : Server) (ret : Ret α)
    (reply : Except Str α → List (Nat × Response)) : Handled :=
  let server := { s with db := ret.db }
  let notified := ret.emitted.flatMap s.deliver
  match ret.outcome with
  | .returned res => ⟨.returned (), server, notified ++ reply res⟩
  | .raised e => ⟨.raised e, server, notified⟩
  | .waiting => ⟨.waiting, server, notified⟩

/-- Finish a handler that changes nothing with a reply. -/
def respond (s : Server) (conn : Nat) (response : Response) : Handled :=
  ⟨.returned (), s, [(conn, response)]⟩

/-- A channel and then its history, of the messages that are still stored. -/
def replayChannel (db : Database) (channelUid : UUID) : List Response :=
  match db.channels.lookup channelUid with
  | none => []
  | some channel =>
      .createChannel (.ok channel) ::
        channel.messageSnowflakes.filterMap fun messageSnowflake =>
          (db.messages.lookup messageSnowflake).map fun message => .sendMessage (.ok message)

/-- The frames that follow a successful login. -/
def replay (db : Database) (user : User) : List Response :=
  user.channels.flatMap (replayChannel db)

/-- A replay is of the user's channels, and of the stored messages that they list. -/
theorem mem_replay {db : Database} {user : User} {r : Response} (h : r ∈ replay db user) :
    ∃ c ∈ user.channels, ∃ ch, db.channels.lookup c = some ch
      ∧ (r = .createChannel (.ok ch)
        ∨ ∃ t ∈ ch.messageSnowflakes, ∃ m, db.messages.lookup t = some m
            ∧ r = .sendMessage (.ok m)) := by
  obtain ⟨c, hc, hr⟩ := List.mem_flatMap.mp h
  unfold replayChannel at hr
  split at hr
  · exact absurd hr List.not_mem_nil
  · rename_i ch hch
    refine ⟨c, hc, ch, hch, ?_⟩
    rcases List.mem_cons.mp hr with rfl | hr
    · exact Or.inl rfl
    · obtain ⟨t, ht, htm⟩ := List.mem_filterMap.mp hr
      obtain ⟨m, hm, rfl⟩ := Option.map_eq_some_iff.mp htm
      exact Or.inr ⟨t, ht, m, hm, rfl⟩

variable [External]

def onRegisterAccount (s : Server) (conn : Nat) (draws : Draws)
    (username password displayName : Str) : Handled :=
  match s.db.users.getUidFromUsername username with
  | some _ => s.respond conn (.registerAccount (.error (lit "Username already exists")))
  | none =>
      s.conclude (s.db.addUser (.new draws.uid username displayName) password draws.salt)
        fun res => [(conn, .registerAccount res)]

/-- The uid is printed before it is checked, so an unknown username makes `value()` throw. -/
def onLogin (s : Server) (conn : Nat) (username password : Str) : Handled :=
  match s.db.users.getUidFromUsername username with
  | none => ⟨.raised .badOptionalAccess, s, []⟩
  | some userUid =>
      match s.db.passwords.verifyPassword userUid password with
      | .error error => s.respond conn (.login (.error error))
      | .ok false => s.respond conn (.login (.error (lit "Incorrect password")))
      | .ok true =>
          match s.db.users.lookup userUid with
          -- `get_user_by_uid(..).value()`
          | none => ⟨.raised .badOptionalAccess, s, []⟩
          | some user =>
              ⟨.returned (), s.setAuthenticatedUser conn userUid,
                (conn, .login (.ok user)) :: (replay s.db user).map fun r => (conn, r)⟩

def onListAccounts (s : Server) (conn : Nat) (regex : Str) : Handled :=
  match s.db.users.getUuidsMatchingRegex regex with
  | .error error => s.respond conn (.listAccounts (.error error))
  | .ok uuids => s.respond conn (.listAccounts (.ok (uuids.filterMap s.db.users.lookup)))

def onDeleteAccount (s : Server) (conn : Nat) (username password : Str) : Handled :=
  match s.db.users.getUidFromUsername username with
  | none => s.respond conn (.deleteAccount (.error (lit "Username does not exist")))
  | some userUid =>
      match s.db.passwords.verifyPassword userUid password with
      | .error error => s.respond conn (.deleteAccount (.error error))
      | .ok false =>
          s.respond conn (.deleteAccount (.error (lit "Username and password do not match")))
      | .ok true => s.conclude (s.db.removeUser userUid) fun res => [(conn, .deleteAccount res)]

/-- The result of the deletion is dropped. -/
def onDeleteMessage (s : Server) (messageSnowflake : UInt64) : Handled :=
  s.conclude (s.db.removeMessage messageSnowflake) fun _ => []

/-- The creator hears of the channel as a member, if it is one. -/
def onCreateChannel (s : Server) (draws : Draws) (channelName : Str) (members : List UUID) :
    Handled :=
  s.conclude (s.db.addChannel draws.uid channelName members) fun _ => []

def onSendMessage (s : Server) (draws : Draws) (senderUid channelUid : UUID) (text : Str) :
    Handled :=
  s.conclude (s.db.addMessage senderUid channelUid text draws.readings draws.now) fun _ => []

/-- The handler registered for a request. -/
def handle (s : Server) (conn : Nat) (draws : Draws) : Request → Handled
  | .registerAccount username password displayName =>
      s.onRegisterAccount conn draws username password displayName
  | .login username password => s.onLogin conn username password
  | .listAccounts regex => s.onListAccounts conn regex
  | .deleteAccount username password => s.onDeleteAccount conn username password
  | .createChannel channelName members => s.onCreateChannel draws channelName members
  | .sendMessage senderUid channelUid text => s.onSendMessage draws senderUid channelUid text
  | .deleteMessage messageSnowflake => s.onDeleteMessage messageSnowflake

/-- A request of a connection, with what the environment decides. -/
structure Call where
  conn : Nat
  request : Request
  draws : Draws

/-- The call, handled to completion. -/
def receive (s : Server) (call : Call) : Handled :=
  s.handle call.conn call.draws call.request

/-- The server after a call, unless the call never comes back. -/
def step (s : Server) (call : Call) : Option Server :=
  match (s.receive call).outcome with
  | .waiting => none
  | _ => some (s.receive call).server

/-- The server under any sequence of requests of any connections. -/
def system : Lib.System Server Call where
  init := .new
  step := step

end Server

end SockEtOut
