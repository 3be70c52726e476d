import SockEtOut.Client.Windows
import SockEtOut.Proof.RoundTrips

/-!
# What is typed and clicked, as it arrives

The windows limit what they send in other units than the encoder counts. A text is
limited to 255 units of UTF-16 and has one byte for its length in UTF-8; the name of
a chat between two users is both their names, each of which has a length byte to
itself. So what is accepted here may be too long there, and is then read as something
else: a text as its beginning, a name with its end taken for members.
-/

namespace SockEtOut.Proof

open Lib Reader

/-! ## Texts -/

/--
The server reads the payload of `m` as `m`, and what it stores of it is read by every
member as it was stored.
-/
def ArrivesUnchanged (m : SendMessageMessage) : Prop :=
  (∃ offset, Yields (RequestMessage.deserialize .sendMessage)
      ((RequestMessage.sendMessage m).serialize []) 0 (.sendMessage m) offset)
    ∧ ∀ (e : Endian) (drawn : UUID) (snowflake createdAt : UInt64), ∃ offset,
      Yields (Response.deserialize e drawn .sendMessage)
        ((Response.sendMessage (.ok (.new m.senderUid m.channelUid m.text snowflake
          createdAt))).serialize e []) 0
        (.sendMessage (.ok (.new m.senderUid m.channelUid m.text snowflake createdAt))) offset

/-- What a text of any length is read as: as much of it as its length byte says. -/
theorem yields_sendMessage (m : SendMessageMessage) :
    ∃ offset, Yields SendMessageMessage.deserialize (m.serialize []) 0
      { m with text := m.text.take (m.text.length % 256) } offset := by
  have hlt : m.text.length % 256 < 256 := Nat.mod_lt _ (by decide)
  have hle : m.text.length % 256 ≤ m.text.length := Nat.mod_le _ _
  have hread := decodes_sendMessage { m with text := m.text.take (m.text.length % 256) }
    (by show (m.text.take _).length ≤ 255; rw [List.length_take]; omega)
    (m.text.drop (m.text.length % 256))
  have hbytes : m.serialize []
      = ({ m with text := m.text.take (m.text.length % 256) } : SendMessageMessage).serialize []
        ++ m.text.drop (m.text.length % 256) := by
    have hcount : UInt8.ofNat (m.text.length % 256) = UInt8.ofNat m.text.length :=
      UInt8.ofNat_mod_size
    rw [SendMessageMessage.serialize_eq, SendMessageMessage.serialize_eq, List.length_take,
      Nat.min_eq_left hle, hcount]
    simp only [List.nil_append, List.append_assoc, List.take_append_drop]
  rw [← hbytes] at hread
  exact ⟨_, hread⟩

/-- A message arrives unchanged if and only if its text fits the length byte. -/
theorem arrivesUnchanged_iff (m : SendMessageMessage) :
    ArrivesUnchanged m ↔ m.text.length ≤ 255 := by
  constructor
  · rintro ⟨⟨offset, hread⟩, -⟩
    obtain ⟨m', offset', hread', hpure⟩ := Yields.of_bind hread
    cases hpure
    obtain ⟨offset'', htaken⟩ := yields_sendMessage m
    have hsame : m = { m with text := m.text.take (m.text.length % 256) } :=
      (Prod.mk.inj (Option.some.inj (Eq.symm (hread'.symm.trans htaken)))).1.symm
    have hlength := congrArg (fun m => m.text.length) hsame
    dsimp only at hlength
    rw [List.length_take] at hlength
    have hlt : m.text.length % 256 < 256 := Nat.mod_lt _ (by decide)
    omega
  · intro htext
    refine ⟨?_, fun e drawn snowflake createdAt => ?_⟩
    · have hread := decodes_request (.sendMessage m) htext []
      rw [List.append_nil] at hread
      exact ⟨_, hread⟩
    · have hread := decodes_response e drawn
        (.sendMessage (.ok (.new m.senderUid m.channelUid m.text snowflake createdAt)))
        ⟨htext, by show 1 ≤ 255; decide⟩ []
      rw [List.append_nil] at hread
      exact ⟨_, hread⟩

/-- What is sent of a text that is not empty. -/
theorem sendMessage_eq [Qt] {session : Session} {channelUid : UUID} {user : User}
    {text : QString} (hopen : session.openChannel = some channelUid)
    (huser : session.authenticatedUser = some user) (htext : 1 ≤ text.length) :
    ChatArea.sendMessage session text
      = .ok (some { channelUid, senderUid := user.uid, text := Qt.toStdString text }) := by
  have hne : text ≠ [] := by
    rintro rfl
    exact absurd htext (by decide)
  rw [ChatArea.sendMessage, hopen]
  dsimp only
  rw [if_neg hne, huser]

/--
**When a text arrives.** A text makes a message for the open channel in the user's
name, and it arrives unchanged exactly if it is at most 255 bytes long.
-/
theorem chat_text_arrives_iff [Qt] {session : Session} {channelUid : UUID} {user : User}
    {text : QString} (hopen : session.openChannel = some channelUid)
    (huser : session.authenticatedUser = some user) (htext : 1 ≤ text.length) :
    ∃ m, ChatArea.sendMessage session text = .ok (some m)
      ∧ m = { channelUid, senderUid := user.uid, text := Qt.toStdString text }
      ∧ (ArrivesUnchanged m ↔ (Qt.toStdString text).length ≤ 255) :=
  ⟨_, sendMessage_eq hopen huser htext, rfl, arrivesUnchanged_iff _⟩

/-! ## A Qt that encodes -/

/-- A unit that stands for a character by itself; half of a pair is replaced. -/
def utf8Unit (u : UInt16) : Str :=
  let c := if 0xD800 ≤ u ∧ u < 0xE000 then 0xFFFD else u.toNat
  if c < 0x80 then [UInt8.ofNat c]
  else if c < 0x800 then [0xC0 + c / 64, 0x80 + c % 64].map UInt8.ofNat
  else [0xE0 + c / 4096, 0x80 + c / 64 % 64, 0x80 + c % 64].map UInt8.ofNat

/-- The character that a pair of units stands for. -/
def utf8Pair (u v : UInt16) : Str :=
  let c := 0x10000 + (u.toNat - 0xD800) * 0x400 + (v.toNat - 0xDC00)
  [0xF0 + c / 262144, 0x80 + c / 4096 % 64, 0x80 + c / 64 % 64, 0x80 + c % 64].map UInt8.ofNat

/-- UTF-8. -/
def utf8 : QString → Str
  | [] => []
  | [u] => utf8Unit u
  | u :: v :: us =>
      if (0xD800 ≤ u ∧ u < 0xDC00) ∧ 0xDC00 ≤ v ∧ v < 0xE000 then utf8Pair u v ++ utf8 us
      else utf8Unit u ++ utf8 (v :: us)

example : utf8 [0x61, 0xE9, 0x20AC, 0xD83D, 0xDE00]
    = [0x61, 0xC3, 0xA9, 0xE2, 0x82, 0xAC, 0xF0, 0x9F, 0x98, 0x80] := by decide

@[reducible] def utf8Qt : Qt where
  toStdString := utf8

/-- A unit that begins no pair is a character. -/
theorem utf8_cons {u : UInt16} (h : u < 0xD800) (us : QString) :
    utf8 (u :: us) = utf8Unit u ++ utf8 us := by
  cases us with
  | nil => rw [utf8, utf8, List.append_nil]
  | cons v us =>
      rw [utf8, if_neg]
      rintro ⟨⟨hle, -⟩, -⟩
      exact absurd (Std.lt_of_lt_of_le h hle) (Std.lt_irrefl)

/-- Characters of one width. -/
theorem length_utf8_of_width {k : Nat} {text : QString}
    (h : ∀ u ∈ text, u < 0xD800 ∧ (utf8Unit u).length = k) :
    (utf8 text).length = k * text.length := by
  induction text with
  | nil => rfl
  | cons u us ih =>
      obtain ⟨hu, hwidth⟩ := h u List.mem_cons_self
      rw [utf8_cons hu, List.length_append, hwidth, ih fun v hv => h v (List.mem_cons_of_mem _ hv),
        List.length_cons, Nat.mul_succ, Nat.add_comm]

/-- Within ASCII the two limits are one: whatever is accepted arrives. -/
theorem ascii_text_arrives {text : QString} (hascii : ∀ u ∈ text, u < 0x80)
    (haccepted : text.length ≤ ChatArea.maxLength) (channelUid senderUid : UUID) :
    ArrivesUnchanged ⟨channelUid, senderUid, utf8 text⟩ := by
  rw [arrivesUnchanged_iff]
  have hwidth : ∀ u ∈ text, u < 0xD800 ∧ (utf8Unit u).length = 1 := by
    intro u hu
    have hlt := hascii u hu
    have hnat : u.toNat < 0x80 := UInt16.lt_iff_toNat_lt.mp hlt
    have hwhole : ¬ (0xD800 ≤ u ∧ u < 0xE000) := fun h =>
      absurd (Std.lt_of_le_of_lt h.1 hlt) (by decide)
    refine ⟨Std.lt_trans hlt (by decide), ?_⟩
    rw [utf8Unit, if_neg hwhole, if_pos hnat]
    rfl
  have hlength := length_utf8_of_width hwidth
  rw [Nat.one_mul] at hlength
  rw [hlength]
  exact haccepted

/-- Ada, with a channel open. -/
def adaInPlans : Session where
  authenticatedUser := some (.new (.ofByte 1) (lit "ada") (lit "Ada"))
  openChannel := some (.ofByte 7)
  channels := Table.empty.assign (.ofByte 7) (.new (.ofByte 7) (lit "plans") [.ofByte 1])
  channelMessages := Table.empty.assign (.ofByte 7) []

theorem chat_text_arrives_iff_short :
    ∃ m, @ChatArea.sendMessage utf8Qt adaInPlans [0xE9] = .ok (some m)
      ∧ m = ⟨.ofByte 7, .ofByte 1, utf8 [0xE9]⟩
      ∧ (ArrivesUnchanged m ↔ (utf8 [0xE9]).length ≤ 255) :=
  @chat_text_arrives_iff utf8Qt adaInPlans (.ofByte 7) (.new (.ofByte 1) (lit "ada") (lit "Ada"))
    [0xE9] rfl rfl (by decide)

/-- Of 128 times `é` nothing is left: the text is 256 bytes long. -/
theorem accented_text_is_lost :
    ∃ text : QString, text.length = 128 ∧ text.length ≤ ChatArea.maxLength
      ∧ ∃ m, @ChatArea.sendMessage utf8Qt adaInPlans text = .ok (some m) ∧ ¬ ArrivesUnchanged m
        ∧ ∃ offset, Yields SendMessageMessage.deserialize (m.serialize []) 0
          { m with text := [] } offset := by
  have htext : (List.replicate 128 (0xE9 : UInt16)).length = 128 := List.length_replicate
  have hlength : (utf8 (List.replicate 128 0xE9)).length = 2 * 128 := by
    have hwidth : ∀ u ∈ List.replicate 128 (0xE9 : UInt16),
        u < 0xD800 ∧ (utf8Unit u).length = 2 := by
      intro u hu
      obtain rfl := List.eq_of_mem_replicate hu
      decide
    rw [length_utf8_of_width hwidth, htext]
  refine ⟨List.replicate 128 0xE9, htext, ?_, ⟨.ofByte 7, .ofByte 1, _⟩,
    @sendMessage_eq utf8Qt adaInPlans (.ofByte 7) (.new (.ofByte 1) (lit "ada") (lit "Ada")) _
      rfl rfl ?_, ?_, ?_⟩
  · rw [htext]
    decide
  · rw [htext]
    decide
  · rw [arrivesUnchanged_iff]
    show ¬ (utf8 (List.replicate 128 0xE9)).length ≤ 255
    omega
  · obtain ⟨offset, hread⟩ :=
      yields_sendMessage ⟨.ofByte 7, .ofByte 1, utf8 (List.replicate 128 0xE9)⟩
    dsimp only at hread
    rw [hlength] at hread
    exact ⟨offset, hread⟩

/-! ## Chats between two users -/

/-- The server reads the payload of `m` as a channel of this name and these members. -/
def ReadAs (m : CreateChannelMessage) (channelName : Str) (members : List UUID) : Prop :=
  ∃ offset, Yields (RequestMessage.deserialize .createChannel)
    ((RequestMessage.createChannel m).serialize []) 0 (.createChannel ⟨channelName, members⟩) offset

/-- No name is read that is longer than its length byte can say. -/
theorem name_le_of_deserialize {buf : List UInt8} {m : CreateChannelMessage} {offset : Nat}
    (h : Yields (CreateChannelMessage.mk [] []).deserialize buf 0 m offset) :
    m.channelName.length ≤ 255 := by
  obtain ⟨nl, o₁, -, h⟩ := h.of_bind
  obtain ⟨channelName, o₂, hname, h⟩ := h.of_bind
  obtain ⟨count, o₃, -, h⟩ := h.of_bind
  obtain ⟨members, o₄, -, hpure⟩ := h.of_bind
  cases hpure
  obtain ⟨hlength, -⟩ := hname.of_range
  have hnl := nl.toNat_lt
  dsimp only
  omega

theorem readAs_iff (user other : User) :
    ReadAs ⟨user.displayName ++ lit ", " ++ other.displayName, [user.uid, other.uid]⟩
        (user.displayName ++ lit ", " ++ other.displayName) [user.uid, other.uid]
      ↔ user.displayName.length + other.displayName.length ≤ 253 := by
  have hlength : (user.displayName ++ lit ", " ++ other.displayName).length
      = user.displayName.length + 2 + other.displayName.length := by
    rw [List.length_append, List.length_append]
    rfl
  constructor
  · rintro ⟨offset, hread⟩
    obtain ⟨m, offset', hread', hpure⟩ := Yields.of_bind hread
    cases hpure
    have hle := name_le_of_deserialize hread'
    dsimp only at hle
    omega
  · intro hfits
    have hread := decodes_request
      (.createChannel ⟨user.displayName ++ lit ", " ++ other.displayName, [user.uid, other.uid]⟩)
      ⟨by show (user.displayName ++ lit ", " ++ other.displayName).length ≤ 255; omega,
        by show 2 ≤ 255; decide⟩ []
    rw [List.append_nil] at hread
    exact ⟨_, hread⟩

/--
**When a chat can be created.** The button makes a channel of both users, and the
server reads both names and both members exactly if the names, with what is between
them, fit one length byte.
-/
theorem chat_between_iff {session : Session} {user : User}
    (huser : session.authenticatedUser = some user) (other : User) :
    ∃ m, ProfileWidget.onMessageButtonClicked session other = .ok m
      ∧ (ReadAs m (user.displayName ++ lit ", " ++ other.displayName) [user.uid, other.uid]
        ↔ user.displayName.length + other.displayName.length ≤ 253) := by
  refine ⟨_, ?_, readAs_iff user other⟩
  rw [ProfileWidget.onMessageButtonClicked, huser]

/-- Ada and Bob. -/
theorem chat_between_iff_bob :
    ∃ m, ProfileWidget.onMessageButtonClicked adaInPlans (.new (.ofByte 2) (lit "bob") (lit "Bob"))
        = .ok m
      ∧ (ReadAs m (lit "Ada" ++ lit ", " ++ lit "Bob") [.ofByte 1, .ofByte 2]
        ↔ (lit "Ada").length + (lit "Bob").length ≤ 253) :=
  @chat_between_iff adaInPlans (.new (.ofByte 1) (lit "ada") (lit "Ada")) rfl
    (.new (.ofByte 2) (lit "bob") (lit "Bob"))

/-- A user with a name of 127 bytes. -/
def longNamed (uid : UInt8) : User :=
  .new (.ofByte uid) (lit "long") (List.replicate 127 0x61)

/-- Two such names and what is between them are 256 bytes. -/
theorem long_names_make_no_chat :
    (longNamed 1).displayName.length ≤ 255 ∧ (longNamed 2).displayName.length ≤ 255
      ∧ ∃ m, ProfileWidget.onMessageButtonClicked
          { Session.new with authenticatedUser := some (longNamed 1) } (longNamed 2) = .ok m
        ∧ ¬ ReadAs m ((longNamed 1).displayName ++ lit ", " ++ (longNamed 2).displayName)
          [.ofByte 1, .ofByte 2] := by
  have hlength : ∀ uid, (longNamed uid).displayName.length = 127 := fun _ => List.length_replicate
  refine ⟨by rw [hlength]; decide, by rw [hlength]; decide, _, rfl, ?_⟩
  intro hread
  have hfits := (readAs_iff (longNamed 1) (longNamed 2)).mp hread
  rw [hlength, hlength] at hfits
  omega

end SockEtOut.Proof
