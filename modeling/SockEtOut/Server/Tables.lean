import SockEtOut.Lib.Table
import SockEtOut.Models.Snowflake

/-!
# The four tables

Each table guards its map with a mutex of its own and answers one call at a time,
so a call is a function on the map. What two calls in a row promise is another
matter, and the subject of `Server.Registration`.

A scan of an `std::unordered_map` visits the entries in no order the source fixes.
Nothing below uses more of a scan than `Lib.Table.findKey?_some` and
`findKey?_none` say.
-/

namespace SockEtOut

/-- The two libraries the server calls out to. -/
class External where
  /-- OpenSSL's SHA-256 of a string, in hexadecimal. -/
  sha256 : Str → Str
  /-- `std::regex(s)`: the text of the error, or which strings match as a whole. -/
  regex : Str → Except Str (Str → Bool)

/-- The libraries as they answer on the one password that examples use, and on literal patterns. -/
@[reducible] def External.sample : External where
  sha256 s :=
    if s = lit "secretsaltsaltsaltsalt" then
      lit "e7bc994cec51fd01035ea45396b7584a51ccbebd1ff5b527c480159e944a552a"
    else []
  regex s := .ok fun name => name == s

abbrev UserTable := Lib.Table UUID User

abbrev MessageTable := Lib.Table UInt64 Message

abbrev ChannelTable := Lib.Table UUID Channel

/-- A password's hash and the salt that went into it. -/
abbrev PasswordTable := Lib.Table UUID (Str × Str)

namespace UserTable

def getUuidsMatchingRegex [External] (t : UserTable) (regex : Str) : Except Str (List UUID) :=
  match External.regex regex with
  | .error what => .error (lit "Regex error: " ++ what)
  | .ok regexMatch => .ok (t.filterKeys fun _ user => regexMatch user.username)

def getUidFromUsername (t : UserTable) (username : Str) : Option UUID :=
  t.findKey? fun _ user => user.username == username

def addUser (t : UserTable) (user : User) : Except Str Unit × UserTable :=
  (.ok (), t.emplace user.uid user)

def removeUser (t : UserTable) (userUid : UUID) : Except Str User × UserTable :=
  match t.lookup userUid with
  | none => (.error (lit "User does not exist"), t)
  | some user => (.ok user, t.erase userUid)

end UserTable

namespace MessageTable

/-- The message is built, and so its snowflake drawn, before anything is stored. -/
def addMessage (t : MessageTable) (g : SnowflakeIDGenerator) (senderUid channelUid : UUID)
    (content : Str) (readings : List Int) (now : UInt64) :
    Outcome (Except Str Message) × MessageTable × SnowflakeIDGenerator :=
  match g.nextId readings with
  | (.returned id, g') =>
      let message := Message.new senderUid channelUid content (UInt64.ofBitVec id) now
      (.returned (.ok message), t.emplace message.snowflake message, g')
  | (.raised e, g') => (.raised e, t, g')
  | (.waiting, g') => (.waiting, t, g')

def removeMessage (t : MessageTable) (messageSnowflake : UInt64) :
    Except Str Unit × MessageTable :=
  (.ok (), t.erase messageSnowflake)

end MessageTable

namespace ChannelTable

def addChannel (t : ChannelTable) (uid : UUID) (channelName : Str) (members : List UUID) :
    Except Str Channel × ChannelTable :=
  (.ok (Channel.new uid channelName members), t.emplace uid (Channel.new uid channelName members))

def removeChannel (t : ChannelTable) (channelUid : UUID) : Except Str Unit × ChannelTable :=
  (.ok (), t.erase channelUid)

end ChannelTable

namespace PasswordTable

variable [External]

def verifyPassword (t : PasswordTable) (userUid : UUID) (password : Str) : Except Str Bool :=
  match t.lookup userUid with
  | none => .error (lit "User does not exist")
  | some (hash, salt) => .ok (hash == External.sha256 (password ++ salt))

def addPassword (t : PasswordTable) (userUid : UUID) (password salt : Str) :
    Except Str Unit × PasswordTable :=
  (.ok (), t.emplace userUid (External.sha256 (password ++ salt), salt))

end PasswordTable

/-! ## Finding a user by name -/

theorem UserTable.getUidFromUsername_some {t : UserTable} {name : Str} {uid : UUID}
    (h : t.getUidFromUsername name = some uid) :
    ∃ user, t.lookup uid = some user ∧ user.username = name := by
  obtain ⟨user, hu, hp⟩ := Lib.Table.findKey?_some h
  exact ⟨user, hu, by simpa using hp⟩

theorem UserTable.getUidFromUsername_none {t : UserTable} {name : Str}
    (h : t.getUidFromUsername name = none) {uid : UUID} {user : User}
    (hu : t.lookup uid = some user) : user.username ≠ name := by
  have := Lib.Table.findKey?_none h hu
  simpa using this

end SockEtOut
