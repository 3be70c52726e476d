import SockEtOut.Wire.Header
import SockEtOut.Wire.Models

/-!
# Requests on the wire

The custom build's encoding of the seven request classes. Their decoders come in
three styles. Strings alone are found by sums of indices into the whole buffer;
what holds a UUID is walked with a running offset; and a snowflake is put together
by a loop over indices. In the first and the last the state of the reader is not
an offset of the source's but the furthest byte read.
-/

namespace SockEtOut

open Lib Reader

/--
`serialize_msg`, the same in every class: a header with the class's operation and
`size()` narrowed to sixteen bits, and the payload behind it.
-/
def serializeMsg (operation : Operation) (size : Nat) (serialize : List UInt8 → List UInt8)
    (buf : List UInt8) : List UInt8 :=
  let header : Header := ⟨Build.custom.protocolVersion, operation.code, UInt16.ofNat size⟩
  serialize (header.serialize buf)

/-! ## Strings -/

structure RegisterAccountMessage where
  username : Str
  password : Str
  displayName : Str
  deriving DecidableEq

namespace RegisterAccountMessage

def serialize (m : RegisterAccountMessage) (buf : List UInt8) : List UInt8 :=
  let usernameLength := UInt8.ofNat m.username.length
  let passwordLength := UInt8.ofNat m.password.length
  let displayNameLength := UInt8.ofNat m.displayName.length
  let buf := buf ++ [usernameLength] ++ m.username
  let buf := buf ++ [passwordLength] ++ m.password
  buf ++ [displayNameLength] ++ m.displayName

/-- The three lengths first, then the strings. -/
def deserialize : Reader UInt8 RegisterAccountMessage := do
  let usernameLength ← byteAt 0
  let passwordLength ← byteAt (usernameLength.toNat + 1)
  let displayNameLength ← byteAt (usernameLength.toNat + passwordLength.toNat + 2)
  let username ← slice 1 usernameLength.toNat
  let password ← slice (usernameLength.toNat + 2) passwordLength.toNat
  let displayName ← slice (usernameLength.toNat + passwordLength.toNat + 3) displayNameLength.toNat
  pure { username, password, displayName }

def size (m : RegisterAccountMessage) : Nat :=
  3 + m.username.length + m.password.length + m.displayName.length

end RegisterAccountMessage

structure LoginMessage where
  username : Str
  password : Str
  deriving DecidableEq

/-- What `LoginMessage` and `DeleteAccountMessage` write: two strings. -/
def serializeCredentials (username password : Str) (buf : List UInt8) : List UInt8 :=
  let usernameLength := UInt8.ofNat username.length
  let passwordLength := UInt8.ofNat password.length
  let buf := buf ++ [usernameLength] ++ username
  buf ++ [passwordLength] ++ password

/-- What both read. -/
def deserializeCredentials : Reader UInt8 (Str × Str) := do
  let usernameLength ← byteAt 0
  let passwordLength ← byteAt (usernameLength.toNat + 1)
  let username ← slice 1 usernameLength.toNat
  let password ← slice (usernameLength.toNat + 2) passwordLength.toNat
  pure (username, password)

namespace LoginMessage

def serialize (m : LoginMessage) (buf : List UInt8) : List UInt8 :=
  serializeCredentials m.username m.password buf

def deserialize : Reader UInt8 LoginMessage := do
  let (username, password) ← deserializeCredentials
  pure { username, password }

def size (m : LoginMessage) : Nat := 2 + m.username.length + m.password.length

end LoginMessage

structure DeleteAccountMessage where
  username : Str
  password : Str
  deriving DecidableEq

namespace DeleteAccountMessage

def serialize (m : DeleteAccountMessage) (buf : List UInt8) : List UInt8 :=
  serializeCredentials m.username m.password buf

def deserialize : Reader UInt8 DeleteAccountMessage := do
  let (username, password) ← deserializeCredentials
  pure { username, password }

def size (m : DeleteAccountMessage) : Nat := 2 + m.username.length + m.password.length

end DeleteAccountMessage

structure ListAccountsMessage where
  regex : Str
  deriving DecidableEq

namespace ListAccountsMessage

def serialize (m : ListAccountsMessage) (buf : List UInt8) : List UInt8 :=
  buf ++ [UInt8.ofNat m.regex.length] ++ m.regex

def deserialize : Reader UInt8 ListAccountsMessage := do
  let regexLength ← byteAt 0
  let regex ← slice 1 regexLength.toNat
  pure { regex }

def size (m : ListAccountsMessage) : Nat := 1 + m.regex.length

end ListAccountsMessage

/-! ## UUIDs -/

structure CreateChannelMessage where
  channelName : Str
  members : List UUID
  deriving DecidableEq

namespace CreateChannelMessage

def serialize (m : CreateChannelMessage) (buf : List UInt8) : List UInt8 :=
  let channelNameLength := UInt8.ofNat m.channelName.length
  let buf := buf ++ [channelNameLength]
  let buf := buf ++ m.channelName
  let numMembers := UInt8.ofNat m.members.length
  let buf := buf ++ [numMembers]
  m.members.foldl (fun buf member => member.serialize buf) buf

/-- Read into a message: the members are appended to those it has. -/
def deserialize (this : CreateChannelMessage) : Reader UInt8 CreateChannelMessage := do
  let channelNameLength ← next
  let channelName ← range channelNameLength.toNat
  let numMembers ← next
  let members ← times UUID.deserialize numMembers.toNat
  pure { channelName, members := this.members ++ members }

def size (m : CreateChannelMessage) : Nat :=
  m.members.foldl (fun size member => size + member.value.length) (1 + m.channelName.length + 1)

end CreateChannelMessage

structure SendMessageMessage where
  channelUid : UUID
  senderUid : UUID
  text : Str
  deriving DecidableEq

namespace SendMessageMessage

def serialize (m : SendMessageMessage) (buf : List UInt8) : List UInt8 :=
  let buf := m.channelUid.serialize buf
  let buf := m.senderUid.serialize buf
  let textLength := UInt8.ofNat m.text.length
  let buf := buf ++ [textLength]
  buf ++ m.text

def deserialize : Reader UInt8 SendMessageMessage := do
  let channelUid ← UUID.deserialize
  let senderUid ← UUID.deserialize
  let textLength ← next
  let text ← range textLength.toNat
  pure { channelUid, senderUid, text }

def size (m : SendMessageMessage) : Nat :=
  m.channelUid.value.length + m.senderUid.value.length + 1 + m.text.length

end SendMessageMessage

structure DeleteMessageMessage where
  channelUid : UUID
  messageSnowflake : UInt64
  deriving DecidableEq

namespace DeleteMessageMessage

/-- The snowflake's bytes, shifted out from the highest on. -/
def serialize (m : DeleteMessageMessage) (buf : List UInt8) : List UInt8 :=
  let buf := m.channelUid.serialize buf
  [56, 48, 40, 32, 24, 16, 8, 0].foldl
    (fun buf (i : UInt64) => buf ++ [(m.messageSnowflake >>> i).toUInt8]) buf

/-- The last `n` passes of the loop over `i`, each of which shifts in `buf[16 + i]`. -/
def readSnowflake : (n i : Nat) → UInt64 → Reader UInt8 UInt64
  | 0, _, messageSnowflake => pure messageSnowflake
  | n + 1, i, messageSnowflake => do
      let b ← byteAt (16 + i)
      readSnowflake n (i + 1) ((messageSnowflake <<< 8) ||| b.toUInt64)

def deserialize : Reader UInt8 DeleteMessageMessage := do
  let channelUid ← UUID.deserialize
  let messageSnowflake ← readSnowflake 8 0 0
  pure { channelUid, messageSnowflake }

def size (_ : DeleteMessageMessage) : Nat := 24

end DeleteMessageMessage

/-! ## The bytes of a request -/

theorem RegisterAccountMessage.length_serialize (m : RegisterAccountMessage) :
    (m.serialize []).length = m.size := by
  rw [serialize, size]
  simp only [List.nil_append, List.length_append, List.length_singleton]
  omega

theorem length_credentials (username password : Str) :
    (serializeCredentials username password []).length
      = 2 + username.length + password.length := by
  rw [serializeCredentials]
  simp only [List.nil_append, List.length_append, List.length_singleton]
  omega

theorem ListAccountsMessage.length_serialize (m : ListAccountsMessage) :
    (m.serialize []).length = m.size := by
  rw [serialize, size]
  simp only [List.nil_append, List.length_append, List.length_singleton]

theorem CreateChannelMessage.serialize_eq (m : CreateChannelMessage) (buf : List UInt8) :
    m.serialize buf = buf ++ ([UInt8.ofNat m.channelName.length] ++ (m.channelName
      ++ ([UInt8.ofNat m.members.length] ++ m.members.flatMap UUID.value))) := by
  unfold CreateChannelMessage.serialize UUID.serialize
  dsimp only
  rw [foldl_append_eq UUID.value]
  simp only [List.append_assoc]

theorem CreateChannelMessage.length_serialize (m : CreateChannelMessage) :
    (m.serialize []).length = m.size := by
  rw [serialize_eq, size, foldl_length_eq UUID.value]
  simp only [List.nil_append, List.length_append, List.length_singleton]
  omega

theorem SendMessageMessage.serialize_eq (m : SendMessageMessage) (buf : List UInt8) :
    m.serialize buf = buf ++ (m.channelUid.value ++ (m.senderUid.value
      ++ ([UInt8.ofNat m.text.length] ++ m.text))) := by
  unfold SendMessageMessage.serialize UUID.serialize
  dsimp only
  simp only [List.append_assoc]

theorem SendMessageMessage.length_serialize (m : SendMessageMessage) :
    (m.serialize []).length = m.size := by
  rw [serialize_eq, size]
  simp only [List.nil_append, List.length_append, List.length_singleton]
  omega

theorem DeleteMessageMessage.serialize_eq (m : DeleteMessageMessage) (buf : List UInt8) :
    m.serialize buf = buf ++ (m.channelUid.value ++ Word.toBytes m.messageSnowflake) := by
  unfold DeleteMessageMessage.serialize UUID.serialize Word.toBytes
  dsimp only
  rw [foldl_append_eq, ← List.map_eq_flatMap, List.append_assoc]

theorem DeleteMessageMessage.length_serialize (m : DeleteMessageMessage) :
    (m.serialize []).length = m.size := by
  rw [serialize_eq, size, List.nil_append, List.length_append, m.channelUid.size_eq,
    Word.length_toBytes]

/-! ## What is decoded -/

/-- Three strings, each found by the sum of the lengths in front of it. -/
theorem decodes_registerAccount (m : RegisterAccountMessage) (husername : m.username.length ≤ 255)
    (hpassword : m.password.length ≤ 255) (hdisplayName : m.displayName.length ≤ 255) :
    Decodes RegisterAccountMessage.deserialize (m.serialize []) m := by
  have hu := toNat_count husername
  have hp := toNat_count hpassword
  have hd := toNat_count hdisplayName
  intro after
  rw [m.length_serialize, RegisterAccountMessage.serialize, RegisterAccountMessage.size,
    List.nil_append]
  simp only [List.append_assoc]
  generalize UInt8.ofNat m.username.length = ul at *
  generalize UInt8.ofNat m.password.length = pl at *
  generalize UInt8.ofNat m.displayName.length = dl at *
  have hul : [ul].length = 1 := rfl
  have hpl : [pl].length = 1 := rfl
  have hdl : [dl].length = 1 := rfl
  refine (yields_byteAt (at_start _ _)).bind ?_
  refine (yields_byteAt (((at_start _ _).behind _ rfl).behind _ (by omega))).bind ?_
  refine (yields_byteAt (((((at_start _ _).behind _ rfl).behind _ rfl).behind _ rfl).behind _
    (by omega))).bind ?_
  refine (yields_slice ((at_start _ _).behind _ (by omega)) hu).bind ?_
  refine (yields_slice ((((at_start _ _).behind _ rfl).behind _ rfl).behind _
    (by omega)) hp).bind ?_
  refine (yields_slice ((((((at_start _ _).behind _ rfl).behind _ rfl).behind _ rfl).behind _
    rfl).behind _ (by omega)) hd).bind ?_
  exact yields_pure _ (by omega)

/-- Two strings. -/
theorem decodes_credentials {username password : Str} (husername : username.length ≤ 255)
    (hpassword : password.length ≤ 255) :
    Decodes deserializeCredentials (serializeCredentials username password [])
      (username, password) := by
  have hu := toNat_count husername
  have hp := toNat_count hpassword
  intro after
  rw [length_credentials, serializeCredentials, List.nil_append]
  simp only [List.append_assoc]
  generalize UInt8.ofNat username.length = ul at *
  generalize UInt8.ofNat password.length = pl at *
  have hul : [ul].length = 1 := rfl
  have hpl : [pl].length = 1 := rfl
  refine (yields_byteAt (at_start _ _)).bind ?_
  refine (yields_byteAt (((at_start _ _).behind _ rfl).behind _ (by omega))).bind ?_
  refine (yields_slice ((at_start _ _).behind _ (by omega)) hu).bind ?_
  refine (yields_slice ((((at_start _ _).behind _ rfl).behind _ rfl).behind _
    (by omega)) hp).bind ?_
  exact yields_pure _ (by omega)

theorem decodes_login (m : LoginMessage) (husername : m.username.length ≤ 255)
    (hpassword : m.password.length ≤ 255) :
    Decodes LoginMessage.deserialize (m.serialize []) m :=
  (decodes_credentials husername hpassword).map fun p => LoginMessage.mk p.1 p.2

theorem decodes_deleteAccount (m : DeleteAccountMessage) (husername : m.username.length ≤ 255)
    (hpassword : m.password.length ≤ 255) :
    Decodes DeleteAccountMessage.deserialize (m.serialize []) m :=
  (decodes_credentials husername hpassword).map fun p => DeleteAccountMessage.mk p.1 p.2

theorem decodes_listAccounts (m : ListAccountsMessage) (hregex : m.regex.length ≤ 255) :
    Decodes ListAccountsMessage.deserialize (m.serialize []) m := by
  have hr := toNat_count hregex
  intro after
  rw [m.length_serialize, ListAccountsMessage.serialize, ListAccountsMessage.size,
    List.nil_append]
  simp only [List.append_assoc]
  generalize UInt8.ofNat m.regex.length = rl at *
  have hrl : [rl].length = 1 := rfl
  refine (yields_byteAt (at_start _ _)).bind ?_
  refine (yields_slice ((at_start _ _).behind _ (by omega)) hr).bind ?_
  exact yields_pure _ (by omega)

theorem decodes_createChannel (m : CreateChannelMessage) (hname : m.channelName.length ≤ 255)
    (hmembers : m.members.length ≤ 255) :
    Decodes (CreateChannelMessage.mk [] []).deserialize (m.serialize []) m := by
  have hmembers' := reads_times (toNat_count hmembers) fun u _ => reads_uuid u
  rw [List.map_id'] at hmembers'
  rw [CreateChannelMessage.serialize_eq, List.nil_append]
  refine Reads.decodes ?_
  refine (reads_next _).bind ?_
  refine (reads_range (toNat_count hname)).bind ?_
  refine (reads_next _).bind ?_
  exact hmembers'.map _

theorem decodes_sendMessage (m : SendMessageMessage) (htext : m.text.length ≤ 255) :
    Decodes SendMessageMessage.deserialize (m.serialize []) m := by
  rw [SendMessageMessage.serialize_eq, List.nil_append]
  refine Reads.decodes ?_
  refine (reads_uuid m.channelUid).bind ?_
  refine (reads_uuid m.senderUid).bind ?_
  refine (reads_next _).bind ?_
  exact (reads_range (toNat_count htext)).map _

/-- The loop shifts in the bytes that stand at its indices. -/
theorem yields_snowflake {buf : List UInt8} : ∀ (bs : List UInt8) (i : Nat) (s : UInt64),
    At buf (16 + i) bs →
      Yields (DeleteMessageMessage.readSnowflake bs.length i s) buf (16 + i)
        (bs.foldl (fun n b => (n <<< 8) ||| b.toUInt64) s) (16 + i + bs.length)
  | [], i, s, _ => yields_pure s rfl
  | b :: bs, i, s, h => by
      have hrest := yields_snowflake bs (i + 1) ((s <<< 8) ||| b.toUInt64) h.tail
      refine (yields_byteAt h.head).bind ?_
      rw [Nat.max_eq_right (Nat.le_succ _), List.length_cons]
      rw [show 16 + i + (bs.length + 1) = 16 + (i + 1) + bs.length by omega]
      exact hrest

theorem decodes_deleteMessage (m : DeleteMessageMessage) :
    Decodes DeleteMessageMessage.deserialize (m.serialize []) m := by
  intro after
  have huid := reads_uuid m.channelUid [] (Word.toBytes m.messageSnowflake ++ after)
  rw [List.nil_append, List.length_nil, m.channelUid.size_eq] at huid
  have hloop := yields_snowflake (Word.toBytes m.messageSnowflake) 0 0
    ((at_start _ after).behind m.channelUid.value m.channelUid.size_eq)
  rw [m.length_serialize, DeleteMessageMessage.serialize_eq, List.nil_append, List.append_assoc]
  refine Yields.bind huid ?_
  refine Yields.bind hloop ?_
  rw [← Word.ofBytes, Word.ofBytes_toBytes]
  exact yields_pure m rfl

end SockEtOut
