import SockEtOut.Wire.Json

/-!
# Round trips of the JSON encoding

What comes back from the JSON of a request or a response, of any length. The JSON
library is assumed to parse what it dumps; what has to agree is the code on its two
sides, field by field and case by case, and the two readings of a UUID.

The only thing that does not come back is a user's list of channels, which is in no
JSON: `Response.profiles` is what does.
-/

namespace SockEtOut.Proof

open Lib Nlohmann
open Lib.Json hiding parse

/-! ## UUIDs -/

theorem hexDigit_ge {n : Nat} (h : n < 16) : 0x30 ≤ hexDigit n := by
  interval_cases n <;> decide

theorem hexDigit_ascii {n : Nat} (h : n < 16) : hexDigit n < 0x80 := by
  interval_cases n <;> decide

theorem hexRun_cons {n : Nat} (h : n < 16) (s : Str) :
    hexRun (hexDigit n :: s) = n :: hexRun s := by
  rw [hexRun, hexValue_hexDigit h]

/-- Two digits are the number they were written from. -/
theorem stoul_digits {m n : Nat} (hm : m < 16) (hn : n < 16) :
    stoul [hexDigit m, hexDigit n] = some (16 * m + n) := by
  have hge := UInt8.le_iff_toNat_le.mp (hexDigit_ge hm)
  have hne : ∀ c : UInt8, c.toNat < 0x30 → hexDigit m ≠ c := by
    rintro c hc rfl
    exact absurd hge (Nat.not_le_of_lt hc)
  have hspace : isSpace (hexDigit m) = false := by
    rw [isSpace, Bool.or_eq_false_iff, Bool.and_eq_false_iff, decide_eq_false_iff_not,
      decide_eq_false_iff_not, decide_eq_false_iff_not, UInt8.le_iff_toNat_le]
    refine ⟨hne 0x20 (by decide), Or.inr fun hle => ?_⟩
    rw [UInt8.le_iff_toNat_le] at hle
    exact absurd (Nat.le_trans hge hle) (by decide)
  have hnumeral : hexNumeral [hexDigit m, hexDigit n] = some (16 * m + n) := by
    have hskip : skipPrefix [hexDigit m, hexDigit n] = [hexDigit m, hexDigit n] := rfl
    rw [hexNumeral, hskip, hexRun_cons hm, hexRun_cons hn, hexRun,
      if_neg (List.cons_ne_nil _ _), if_pos] <;>
      simp only [List.foldl_cons, List.foldl_nil]
    · rw [Nat.mul_zero, Nat.zero_add]
    · omega
  rw [stoul, List.dropWhile_cons_of_neg (by simp [hspace])]
  dsimp only
  rw [if_neg (hne 0x2D (by decide)), if_neg (hne 0x2B (by decide)), hnumeral]

/-- Each byte is read from its two digits. -/
theorem pairs_mapM (value : List UInt8) :
    (pairs (value.flatMap fun byte =>
        [hexDigit (byte.toNat / 16), hexDigit (byte.toNat % 16)])).mapM
      (fun byteString => (stoul byteString).map UInt8.ofNat) = some value := by
  induction value with
  | nil => rfl
  | cons byte value ih =>
      have hbyte := byte.toNat_lt
      have hstoul : stoul [hexDigit (byte.toNat / 16), hexDigit (byte.toNat % 16)]
          = some (16 * (byte.toNat / 16) + byte.toNat % 16) :=
        stoul_digits (by omega) (by omega)
      rw [Nat.div_add_mod] at hstoul
      rw [List.flatMap_cons]
      simp only [List.cons_append, List.nil_append]
      rw [pairs, List.mapM_cons, hstoul, Option.map_some, UInt8.ofNat_toNat, ih]
      rfl

/-- A UUID is read back from its digits, whatever was drawn. -/
theorem fromString_toString (drawn u : UUID) : UUID.fromString drawn u.toString = some u := by
  rw [UUID.fromString, UUID.toString, pairs_mapM]
  have hsize : u.value.length ≤ 16 := Nat.le_of_eq u.size_eq
  have hdrop : drawn.value.drop u.value.length = [] := by
    rw [List.drop_eq_nil_iff, drawn.size_eq, u.size_eq]
  simp only [Option.bind_eq_bind, Option.bind_some, dif_pos hsize, hdrop, List.append_nil]

/-! ## UTF-8 -/

/-- The library dumps the string. -/
def Utf8 (s : Str) : Prop := Json.dumps s = true

/-- A byte of ASCII is a character of its own, between characters only. -/
theorem dumpsFrom_ascii {c : UInt8} (hc : c < 0x80) (state : Nat) (s : Str) :
    Json.dumpsFrom state (c :: s) = (state == 0 && Json.dumpsFrom 0 s) := by
  have htype : Json.byteType c = 0 := if_pos hc
  have hstays : ∀ n, Json.transition (n + 1) 0 = none
    | 0 | 1 | 2 | 3 | 4 | 5 | 6 | 7 | _ + 8 => rfl
  rw [Json.dumpsFrom, htype]
  cases state with
  | zero => rfl
  | succ n =>
      rw [hstays]
      rfl

theorem dumpsFrom_append {t : Str} (ht : Utf8 t) : ∀ {s : Str} {state : Nat},
    Json.dumpsFrom state s = true → Json.dumpsFrom state (s ++ t) = true := by
  intro s
  induction s with
  | nil =>
      intro state hs
      rw [Json.dumpsFrom, beq_iff_eq] at hs
      rw [hs]
      exact ht
  | cons c s ih =>
      intro state hs
      rw [Json.dumpsFrom] at hs
      rw [List.cons_append, Json.dumpsFrom]
      split at hs
      · exact absurd hs Bool.false_ne_true
      · exact ih hs

theorem dumpsFrom_allAscii {e : Str} (he : e ≠ []) (hascii : e.all (· < 0x80) = true) (state : Nat)
    (s : Str) : Json.dumpsFrom state (e ++ s) = (state == 0 && Json.dumpsFrom 0 s) := by
  induction e generalizing state with
  | nil => exact absurd rfl he
  | cons c e ih =>
      rw [List.all_cons, Bool.and_eq_true, decide_eq_true_iff] at hascii
      rw [List.cons_append, dumpsFrom_ascii hascii.1]
      cases e with
      | nil => rfl
      | cons c' e =>
          rw [ih (List.cons_ne_nil _ _) hascii.2 0, beq_self_eq_true, Bool.true_and]

/-- An escape is in ASCII, and so is the byte it is for, unless the byte is copied. -/
theorem escape_cases (b : UInt8) :
    escape b = [b] ∨ b < 0x80 ∧ escape b ≠ [] ∧ (escape b).all (· < 0x80) = true := by
  rw [escape]
  split
  · rename_i hspecial
    rcases hspecial with rfl | rfl <;> exact Or.inr ⟨by decide, List.cons_ne_nil _ _, rfl⟩
  · split
    · rename_i letter c hfind
      have hc := List.find?_some hfind
      obtain rfl : c = b := eq_of_beq hc
      have hletters : shortEscapes.all fun e => e.1 < 0x80 && e.2 < 0x80 := rfl
      have hletter := List.all_eq_true.mp hletters _ (List.mem_of_find?_eq_some hfind)
      rw [Bool.and_eq_true, decide_eq_true_iff, decide_eq_true_iff] at hletter
      refine Or.inr ⟨hletter.2, List.cons_ne_nil _ _, ?_⟩
      simp [hletter.1, backslash]
    · split
      · rename_i hcontrol
        have hb := b.toNat_lt
        refine Or.inr ⟨Std.lt_trans hcontrol (by decide), List.cons_ne_nil _ _, ?_⟩
        simp [hexDigit_ascii (n := b.toNat / 16) (by omega),
          hexDigit_ascii (n := b.toNat % 16) (by omega), backslash]
      · exact Or.inl rfl

theorem dumpsFrom_escape (s : Str) (state : Nat) :
    Json.dumpsFrom state (s.flatMap escape) = Json.dumpsFrom state s := by
  induction s generalizing state with
  | nil => rfl
  | cons b s ih =>
      rw [List.flatMap_cons]
      rcases escape_cases b with hcopy | ⟨hb, hne, hascii⟩
      · rw [hcopy, List.singleton_append, Json.dumpsFrom, Json.dumpsFrom]
        split
        · rfl
        · exact ih _
      · rw [dumpsFrom_allAscii hne hascii, dumpsFrom_ascii hb, ih]

theorem keptByWriting_utf8 : KeptByWriting Utf8 where
  nil := rfl
  append hs ht := dumpsFrom_append ht hs
  ascii hc := by
    rw [Utf8, Json.dumps, dumpsFrom_ascii hc]
    rfl
  escape hs := by
    rw [Utf8, Json.dumps, dumpsFrom_escape]
    exact hs

theorem utf8_toString (u : UUID) : Utf8 u.toString := by
  refine keptByWriting_utf8.of_ascii (List.all_eq_true.mpr fun c hc => decide_eq_true_iff.mpr ?_)
  obtain ⟨byte, -, hc⟩ := List.mem_flatMap.mp hc
  have hbyte := byte.toNat_lt
  rcases List.mem_cons.mp hc with rfl | hc
  · exact hexDigit_ascii (by omega)
  · rw [List.mem_singleton.mp hc]
    exact hexDigit_ascii (by omega)

/-! ## What is read from a value -/

/-- One step of a reader. -/
theorem reads_then {α β : Type} {x : Option α} {f : α → Option β} {a : α} {b : β} (hx : x = some a)
    (hf : f a = some b) : x.bind f = some b := by
  rw [hx, Option.bind_some, hf]

/-- A list is read when each of its elements is. -/
theorem mapM_all {α β : Type} {f : α → Option β} {g : α → β} {xs : List α}
    (h : ∀ x ∈ xs, f x = some (g x)) : xs.mapM f = some (xs.map g) := by
  induction xs with
  | nil => rfl
  | cons x xs ih =>
      rw [List.mapM_cons, h x List.mem_cons_self,
        ih fun x' hx' => h x' (List.mem_cons_of_mem _ hx')]
      rfl

section

variable {j : Json} {key : String}

theorem stringAt_of {s : Str} (h : j.index (lit key) = some (.string s)) :
    stringAt j key = some s := by
  rw [stringAt, h]
  rfl

theorem numberAt_of {n : UInt64} (h : j.index (lit key) = some (.number n)) :
    numberAt j key = some n := by
  rw [numberAt, h]
  rfl

theorem boolAt_of {b : Bool} (h : j.index (lit key) = some (.bool b)) : boolAt j key = some b := by
  rw [boolAt, h]
  rfl

theorem uuidAt_of (drawn : UUID) {u : UUID} (h : j.index (lit key) = some (.string u.toString)) :
    uuidAt drawn j key = some u := by
  rw [uuidAt, stringAt_of h]
  exact fromString_toString drawn u

theorem numbersAt_of {ns : List UInt64} (h : j.index (lit key) = some (.array (ns.map .number))) :
    numbersAt j key = some ns := by
  rw [numbersAt, h]
  have hread : ∀ n ∈ ns, (getNumber ∘ Json.number) n = some n := fun _ _ => rfl
  show (ns.map Json.number).mapM getNumber = some ns
  rw [List.mapM_map, mapM_all hread, List.map_id']

/-- A list of strings is read as a list of what each is read as. -/
theorem eachAt_of {α : Type} {read : Str → Option α} {texts : List Str} {values : List α}
    (hread : texts.mapM read = some values)
    (h : j.index (lit key) = some (.array (texts.map .string))) :
    eachAt read j key = some values := by
  rw [eachAt, h]
  show (texts.map Json.string).mapM (fun element => element.getString.bind read) = some values
  rw [List.mapM_map]
  exact hread

theorem nestedAt_of {α : Type} {fromJson : Str → Option α} {text : Str} {a : α}
    (hread : fromJson text = some a) (h : j.index (lit key) = some (.string text)) :
    nestedAt fromJson j key = some a := by
  rw [nestedAt, stringAt_of h]
  exact hread

theorem uuidsAt_of (drawn : UUID) {uids : List UUID}
    (h : j.index (lit key) = some (uuids uids)) :
    eachAt (UUID.fromString drawn) j key = some uids := by
  have hread : ∀ uid ∈ uids, (UUID.fromString drawn ∘ UUID.toString) uid = some uid :=
    fun uid _ => fromString_toString drawn uid
  have htexts : (uids.map UUID.toString).mapM (UUID.fromString drawn) = some uids := by
    rw [List.mapM_map, mapM_all hread, List.map_id']
  refine eachAt_of htexts ?_
  rw [h, uuids, List.map_map]
  rfl

end

/-! ## What survives -/

/-- The fields can be dumped. -/
def Writes (fields : List (Str × Json)) : Prop :=
  ∀ field ∈ fields, Utf8 field.1 ∧ Writable Utf8 field.2

theorem writes_nil : Writes [] := fun _ h => absurd h List.not_mem_nil

theorem Writes.cons {key : Str} {value : Json} {fields : List (Str × Json)} (hkey : Utf8 key)
    (hvalue : Writable Utf8 value) (h : Writes fields) : Writes ((key, value) :: fields) :=
  List.forall_mem_cons.mpr ⟨⟨hkey, hvalue⟩, h⟩

theorem writable_uuids (uids : List UUID) : Writable Utf8 (uuids uids) :=
  writable_map fun uid _ => writable_string (utf8_toString uid)

theorem channel_writes (c : Channel) (h : Utf8 c.name) :
    Writes
      [(lit "uid", .string c.uid.toString), (lit "name", .string c.name),
        (lit "user_uids", uuids c.userUids),
        (lit "message_snowflakes", .array (c.messageSnowflakes.map .number))] :=
  .cons rfl (writable_string (utf8_toString c.uid)) (.cons rfl (writable_string h)
    (.cons rfl (writable_uuids c.userUids)
    (.cons rfl (writable_map fun n _ => writable_number n) writes_nil)))

/-- A text was dumped, itself in UTF-8, and is read as a value. -/
def Survives {α : Type} (json : Option Str) (fromJson : Str → Option α) (a : α) : Prop :=
  ∃ text, json = some text ∧ Utf8 text ∧ fromJson text = some a

theorem Survives.bind {α : Type} {json : Option Str} {fromJson : Str → Option α} {a : α}
    (h : Survives json fromJson a) : json.bind fromJson = some a := by
  obtain ⟨text, hjson, -, hread⟩ := h
  rw [hjson, Option.bind_some, hread]

/-- The text is read wherever it comes from. -/
theorem Survives.read {α : Type} {json : Option Str} {fromJson : Str → Option α} {a : α}
    (h : Survives json fromJson a) {text : Str} (hjson : json = some text) :
    fromJson text = some a := by
  have hread := h.bind
  rwa [hjson] at hread

theorem Survives.map {α β : Type} {json : Option Str} {fromJson : Str → Option α} {a : α}
    (h : Survives json fromJson a) (f : α → β) :
    Survives json (fun text => (fromJson text).map f) (f a) := by
  obtain ⟨text, hjson, hutf8, hread⟩ := h
  refine ⟨text, hjson, hutf8, ?_⟩
  dsimp only
  rw [hread, Option.map_some]

theorem Survives.of_map_id {α : Type} {json : Option Str} {fromJson : Str → Option (Except Str α)}
    {data : Except Str α} (h : Survives json fromJson (data.map id)) :
    Survives json fromJson data := by
  rwa [Except.map_id, id] at h

/-- What survives by itself is a field that can be written and read. -/
theorem Survives.nested {α : Type} {json : Option Str} {fromJson : Str → Option α} {a : α}
    (h : Survives json fromJson a) (key : String) :
    ∃ field, nested json = some field ∧ Writable Utf8 field ∧
      ∀ j : Json, j.index (lit key) = some field → nestedAt fromJson j key = some a := by
  obtain ⟨text, hjson, hutf8, hread⟩ := h
  refine ⟨.string text, ?_, writable_string hutf8, fun j hj => nestedAt_of hread hj⟩
  rw [SockEtOut.nested, hjson, Option.map_some]

/-- The same, behind a flag. -/
theorem Survives.flagged {α : Type} {json : Option Str} {fromJson : Str → Option α} {a : α}
    (h : Survives json fromJson a) {key : String} (hkey : Utf8 (lit key))
    (hne : lit "success" ≠ lit key) :
    ∃ fields, (SockEtOut.nested json).map (fun field => [(lit key, field)]) = some fields ∧
      Writes fields ∧ (lit "success" :: fields.map Prod.fst).Nodup ∧
      ∀ j : Json, (∀ (i : Nat) {key field}, fields[i]? = some (key, field) →
          j.index key = some field) →
        nestedAt fromJson j key = some a := by
  obtain ⟨field, hnested, hwritable, hread⟩ := h.nested key
  refine ⟨[(lit key, field)], ?_, .cons hkey hwritable writes_nil, ?_, fun j hj => ?_⟩
  · rw [hnested, Option.map_some]
  · exact List.nodup_cons.mpr ⟨fun h => hne (List.mem_singleton.mp h), List.nodup_singleton _⟩
  · exact hread j (hj 0 rfl)

section

variable [Nlohmann]

/-- What is promised of the library: it dumps what is in UTF-8, and parses what it dumped. -/
def DumpsAndParses : Prop :=
  ∀ j, Writable Utf8 j → ∃ text, dump j = some text ∧ Utf8 text ∧ parse text = some j

variable (hlib : DumpsAndParses)

include hlib

/-- An object survives where its fields can be dumped and are read as they should. -/
theorem survives_fields {α : Type} {fields : List (Str × Json)} (hfields : Writes fields)
    (hnodup : (fields.map Prod.fst).Nodup) {read : Json → Option α} {a : α}
    (hread : (∀ (i : Nat) {key value}, fields[i]? = some (key, value) →
      (Json.object (ofFields fields)).index key = some value) →
        read (.object (ofFields fields)) = some a) :
    Survives (dump (.object (ofFields fields))) (fun json => (parse json).bind read) a := by
  obtain ⟨text, hdump, hutf8, hparse⟩ := hlib _ (writable_fields hfields)
  refine ⟨text, hdump, hutf8, ?_⟩
  dsimp only
  rw [hparse, Option.bind_some, hread fun i _ _ h => index_fields hnodup (List.mem_of_getElem? h)]

theorem user_survives (drawn : UUID) (u : User) (h : u.prints = true) :
    Survives u.toJson ((User.default drawn).fromJson drawn) u.profile := by
  rw [User.prints, Bool.and_eq_true, Bool.and_eq_true] at h
  refine survives_fields hlib ?_ ?_ fun hindex => ?_
  · exact .cons rfl (writable_string (utf8_toString u.uid))
      (.cons rfl (writable_string h.1.1) (.cons rfl (writable_string h.1.2)
      (.cons rfl (writable_string h.2) writes_nil)))
  · show [lit "uid", lit "username", lit "display_name", lit "profile_pic"].Nodup
    decide
  · refine reads_then (uuidAt_of drawn (hindex 0 rfl)) ?_
    refine reads_then (stringAt_of (hindex 1 rfl)) ?_
    refine reads_then (stringAt_of (hindex 2 rfl)) ?_
    exact reads_then (stringAt_of (hindex 3 rfl)) rfl

theorem channel_survives (drawn : UUID) (c : Channel) (h : Utf8 c.name) :
    Survives c.toJson ((Channel.default drawn).fromJson drawn) c := by
  refine survives_fields hlib (channel_writes c h) ?_ fun hindex => ?_
  · show [lit "uid", lit "name", lit "user_uids", lit "message_snowflakes"].Nodup
    decide
  · refine reads_then (uuidAt_of drawn (hindex 0 rfl)) ?_
    refine reads_then (stringAt_of (hindex 1 rfl)) ?_
    refine reads_then (uuidsAt_of drawn (hindex 2 rfl)) ?_
    exact reads_then (numbersAt_of (hindex 3 rfl)) rfl

theorem message_survives (drawn : UUID) (m : Message) (h : Utf8 m.text) :
    Survives m.toJson (Message.fromJson drawn) m := by
  refine survives_fields hlib ?_ ?_ fun hindex => ?_
  · exact .cons rfl (writable_string (utf8_toString m.senderId))
      (.cons rfl (writable_string (utf8_toString m.channelId))
      (.cons rfl (writable_number m.snowflake) (.cons rfl (writable_number m.createdAt)
      (.cons rfl (writable_number m.modifiedAt) (.cons rfl (writable_string h)
      (.cons rfl (writable_uuids m.readBy) writes_nil))))))
  · show [lit "sender_id", lit "channel_id", lit "snowflake", lit "created_at",
      lit "modified_at", lit "text", lit "read_by"].Nodup
    decide
  · refine reads_then (uuidAt_of drawn (hindex 0 rfl)) ?_
    refine reads_then (uuidAt_of drawn (hindex 1 rfl)) ?_
    refine reads_then (numberAt_of (hindex 2 rfl)) ?_
    refine reads_then (numberAt_of (hindex 3 rfl)) ?_
    refine reads_then (numberAt_of (hindex 4 rfl)) ?_
    refine reads_then (stringAt_of (hindex 5 rfl)) ?_
    exact reads_then (uuidsAt_of drawn (hindex 6 rfl)) rfl

/-! ## Requests -/

theorem registerAccount_survives (m : RegisterAccountMessage) (husername : Utf8 m.username)
    (hpassword : Utf8 m.password) (hdisplayName : Utf8 m.displayName) :
    Survives m.toJson RegisterAccountMessage.fromJson m := by
  refine survives_fields hlib ?_ ?_ fun hindex => ?_
  · exact .cons rfl (writable_string husername) (.cons rfl (writable_string hpassword)
      (.cons rfl (writable_string hdisplayName) writes_nil))
  · show [lit "username", lit "password", lit "display_name"].Nodup
    decide
  · refine reads_then (stringAt_of (hindex 0 rfl)) ?_
    refine reads_then (stringAt_of (hindex 1 rfl)) ?_
    exact reads_then (stringAt_of (hindex 2 rfl)) rfl

theorem credentials_survive {username password : Str} (husername : Utf8 username)
    (hpassword : Utf8 password) :
    Survives (credentialsToJson username password) credentialsFromJson (username, password) := by
  refine survives_fields hlib ?_ ?_ fun hindex => ?_
  · exact .cons rfl (writable_string husername) (.cons rfl (writable_string hpassword) writes_nil)
  · show [lit "username", lit "password"].Nodup
    decide
  · refine reads_then (stringAt_of (hindex 0 rfl)) ?_
    exact reads_then (stringAt_of (hindex 1 rfl)) rfl

theorem listAccounts_survives (m : ListAccountsMessage) (h : Utf8 m.regex) :
    Survives m.toJson ListAccountsMessage.fromJson m := by
  refine survives_fields hlib ?_ ?_ fun hindex => ?_
  · exact .cons rfl (writable_string h) writes_nil
  · exact List.nodup_singleton _
  · exact reads_then (stringAt_of (hindex 0 rfl)) rfl

theorem createChannel_survives (drawn : UUID) (m : CreateChannelMessage) (h : Utf8 m.channelName) :
    Survives m.toJson ((CreateChannelMessage.mk [] []).fromJson drawn) m := by
  refine survives_fields hlib ?_ ?_ fun hindex => ?_
  · exact .cons rfl (writable_string h) (.cons rfl (writable_uuids m.members) writes_nil)
  · show [lit "channel_name", lit "members"].Nodup
    decide
  · refine reads_then (stringAt_of (hindex 0 rfl)) ?_
    exact reads_then (uuidsAt_of drawn (hindex 1 rfl)) rfl

theorem sendMessage_survives (drawn : UUID) (m : SendMessageMessage) (h : Utf8 m.text) :
    Survives m.toJson (SendMessageMessage.fromJson drawn) m := by
  refine survives_fields hlib ?_ ?_ fun hindex => ?_
  · exact .cons rfl (writable_string (utf8_toString m.channelUid))
      (.cons rfl (writable_string (utf8_toString m.senderUid))
      (.cons rfl (writable_string h) writes_nil))
  · show [lit "channel_uid", lit "sender_uid", lit "text"].Nodup
    decide
  · refine reads_then (uuidAt_of drawn (hindex 0 rfl)) ?_
    refine reads_then (uuidAt_of drawn (hindex 1 rfl)) ?_
    exact reads_then (stringAt_of (hindex 2 rfl)) rfl

theorem deleteMessage_survives (drawn : UUID) (m : DeleteMessageMessage) :
    Survives m.toJson (DeleteMessageMessage.fromJson drawn) m := by
  refine survives_fields hlib ?_ ?_ fun hindex => ?_
  · exact .cons rfl (writable_string (utf8_toString m.channelUid))
      (.cons rfl (writable_number m.messageSnowflake) writes_nil)
  · show [lit "channel_uid", lit "message_snowflake"].Nodup
    decide
  · refine reads_then (uuidAt_of drawn (hindex 0 rfl)) ?_
    exact reads_then (numberAt_of (hindex 1 rfl)) rfl

/-- A request of any class survives. -/
theorem request_survives (drawn : UUID) (m : RequestMessage) (h : m.prints = true) :
    Survives m.toJson (RequestMessage.fromJson drawn m.operation) m := by
  cases m with
  | registerAccount m =>
      rw [RequestMessage.prints, Bool.and_eq_true, Bool.and_eq_true] at h
      exact (registerAccount_survives hlib m h.1.1 h.1.2 h.2).map _
  | login m =>
      rw [RequestMessage.prints, Bool.and_eq_true] at h
      exact ((credentials_survive hlib h.1 h.2).map _).map _
  | listAccounts m => exact (listAccounts_survives hlib m h).map _
  | deleteAccount m =>
      rw [RequestMessage.prints, Bool.and_eq_true] at h
      exact ((credentials_survive hlib h.1 h.2).map _).map _
  | createChannel m => exact (createChannel_survives hlib drawn m h).map _
  | sendMessage m => exact (sendMessage_survives hlib drawn m h).map _
  | deleteMessage m => exact (deleteMessage_survives hlib drawn m).map _

/-! ## Responses -/

/-- A response without a flag: a key tells its two cases apart, if it is not the error's. -/
theorem keyed_survives {α : Type} {key : String} {payload : α → Option Json}
    {read : Json → Option α} {back : α → α} {data : Except Str α} (hkey : Utf8 (lit key))
    (hne : lit key ≠ lit "error")
    (hok : ∀ value, data = .ok value → ∃ field, payload value = some field ∧ Writable Utf8 field ∧
      ∀ j : Json, j.index (lit key) = some field → read j = some (back value))
    (herror : ∀ error, data = .error error → Utf8 error) :
    Survives (keyedToJson key payload data) (keyedFromJson key read) (data.map back) := by
  cases data with
  | ok value =>
      obtain ⟨field, hpayload, hwritable, hread⟩ := hok value rfl
      rw [keyedToJson, hpayload]
      have hcontains : (Json.object (ofFields [(lit key, field)])).contains (lit key) = true :=
        contains_fields (List.nodup_singleton _) (.head _)
      refine survives_fields hlib ?_ ?_ fun hindex => ?_
      · exact .cons hkey hwritable writes_nil
      · exact List.nodup_singleton _
      · rw [hcontains, if_pos rfl]
        exact reads_then (hread _ (hindex 0 rfl)) rfl
  | error error =>
      have hcontains :
          (Json.object (ofFields [(lit "error", .string error)])).contains (lit key) = false :=
        not_contains_fields fun h => hne (List.mem_singleton.mp h)
      refine survives_fields hlib ?_ ?_ fun hindex => ?_
      · exact .cons rfl (writable_string (herror error rfl)) writes_nil
      · exact List.nodup_singleton _
      · rw [hcontains, if_neg Bool.false_ne_true]
        exact reads_then (stringAt_of (hindex 0 rfl)) rfl

/-- A response with a flag: it comes first, under a key that no other field has. -/
theorem flagged_survives {α : Type} {payload : α → Option (List (Str × Json))}
    {read : Json → Option α} {back : α → α} {data : Except Str α}
    (hok : ∀ value, data = .ok value → ∃ fields, payload value = some fields ∧ Writes fields ∧
      (lit "success" :: fields.map Prod.fst).Nodup ∧
      ∀ j : Json, (∀ (i : Nat) {key field}, fields[i]? = some (key, field) →
          j.index key = some field) →
        read j = some (back value))
    (herror : ∀ error, data = .error error → Utf8 error) :
    Survives (flaggedToJson payload data) (flaggedFromJson read) (data.map back) := by
  cases data with
  | ok value =>
      obtain ⟨fields, hpayload, hwrites, hnodup, hread⟩ := hok value rfl
      rw [flaggedToJson, hpayload]
      refine survives_fields hlib ?_ ?_ fun hindex => ?_
      · exact .cons rfl (writable_bool true) hwrites
      · exact hnodup
      · refine reads_then (boolAt_of (hindex 0 rfl)) ?_
        rw [if_pos rfl]
        exact reads_then (hread _ fun i _ _ h => hindex (i + 1) h) rfl
  | error error =>
      refine survives_fields hlib ?_ ?_ fun hindex => ?_
      · exact .cons rfl (writable_bool false)
          (.cons rfl (writable_string (herror error rfl)) writes_nil)
      · show [lit "success", lit "error"].Nodup
        decide
      · refine reads_then (boolAt_of (hindex 0 rfl)) ?_
        rw [if_neg Bool.false_ne_true]
        exact reads_then (stringAt_of (hindex 1 rfl)) rfl

theorem users_survive (drawn : UUID) {users : List User} (h : ∀ u ∈ users, u.prints = true) :
    ∃ field, (users.mapM fun user => nested user.toJson).map Json.array = some field ∧
      Writable Utf8 field ∧ ∀ j : Json, j.index (lit "users") = some field →
        eachAt ((User.default drawn).fromJson drawn) j "users" = some (users.map User.profile) := by
  have htexts : ∃ texts : List Str, users.mapM (fun user => nested user.toJson) =
        some (texts.map .string) ∧
      (∀ text ∈ texts, Utf8 text) ∧
      texts.mapM ((User.default drawn).fromJson drawn) = some (users.map User.profile) := by
    induction users with
    | nil => exact ⟨[], rfl, fun _ h => absurd h List.not_mem_nil, rfl⟩
    | cons u users ih =>
        obtain ⟨text, hjson, hutf8, hread⟩ :=
          user_survives hlib drawn u (h u List.mem_cons_self)
        obtain ⟨texts, hrest, hutf8s, hreads⟩ := ih fun u' hu' => h u' (List.mem_cons_of_mem _ hu')
        refine ⟨text :: texts, ?_, List.forall_mem_cons.mpr ⟨hutf8, hutf8s⟩, ?_⟩
        · rw [List.mapM_cons, hrest, nested, hjson]
          rfl
        · rw [List.mapM_cons, hread, hreads]
          rfl
  obtain ⟨texts, hjson, hutf8, hread⟩ := htexts
  refine ⟨.array (texts.map .string), ?_, ?_, fun j hj => eachAt_of hread hj⟩
  · rw [hjson, Option.map_some]
  · exact writable_map fun text htext => writable_string (hutf8 text htext)

/-- A response of any class survives, but for the channels of its users. -/
theorem response_survives (drawn : UUID) (r : Response) (h : r.prints = true) :
    Survives r.toJson (Response.fromJson drawn r.operation) r.profiles := by
  cases r with
  | registerAccount data =>
      refine ((Survives.of_map_id ?_).map _).map _
      refine flagged_survives hlib ?_ (by rintro error rfl; exact h)
      rintro value -
      exact ⟨[], rfl, writes_nil, List.nodup_singleton _, fun _ _ => rfl⟩
  | login data =>
      refine Survives.map (Survives.map (a := data.map User.profile) ?_ _) _
      refine keyed_survives hlib rfl (by decide) ?_ (by rintro error rfl; exact h)
      rintro user rfl
      exact (user_survives hlib drawn user h).nested "user"
  | listAccounts data =>
      refine Survives.map (Survives.map (a := data.map (List.map User.profile)) ?_ _) _
      refine keyed_survives hlib rfl (by decide) ?_ (by rintro error rfl; exact h)
      rintro users rfl
      exact users_survive hlib drawn (List.all_eq_true.mp h)
  | deleteAccount data =>
      refine Survives.map (Survives.map (a := data.map User.profile) ?_ _) _
      refine flagged_survives hlib ?_ (by rintro error rfl; exact h)
      rintro user rfl
      exact (user_survives hlib drawn user h).flagged rfl (by decide)
  | createChannel data =>
      refine ((Survives.of_map_id ?_).map _).map _
      refine keyed_survives hlib rfl (by decide) ?_ (by rintro error rfl; exact h)
      rintro channel rfl
      exact (channel_survives hlib drawn channel h).nested "channel"
  | sendMessage data | deleteMessage data =>
      refine ((Survives.of_map_id ?_).map _).map _
      refine flagged_survives hlib ?_ (by rintro error rfl; exact h)
      rintro message rfl
      exact (message_survives hlib drawn message h).flagged rfl (by decide)

/--
**The JSON encoding round-trips.** Over a library that dumps and parses, a request
of any class comes back as it was, and a response comes back with everything that
is in it but the channels of its users; strings and lists are of any length.
-/
theorem json_round_trips (drawn : UUID) :
    (∀ m : RequestMessage, m.prints = true →
        m.toJson.bind (RequestMessage.fromJson drawn m.operation) = some m)
      ∧ ∀ r : Response, r.prints = true →
        r.toJson.bind (Response.fromJson drawn r.operation) = some r.profiles :=
  ⟨fun m h => (request_survives hlib drawn m h).bind,
    fun r h => (response_survives hlib drawn r h).bind⟩

end

/-! ## A library that keeps its promise -/

/-- Writing and reading as `Lib.Json` does, where the decoder accepts every string. -/
@[reducible] def plainJson : Nlohmann where
  dump j := if j.strings.all Json.dumps then some j.text else none
  parse := Json.parse

theorem plainJson_dumpsAndParses : @DumpsAndParses plainJson := by
  rintro j ⟨hwellFormed, hstrings⟩
  exact ⟨j.text, if_pos (List.all_eq_true.mpr hstrings),
    text_of_strings keptByWriting_utf8 j hstrings, parse_text hwellFormed⟩

/-- A message beyond ASCII under the largest snowflake. -/
def largest : Message :=
  ⟨0xFFFFFFFFFFFFFFFF, .ofByte 7, .ofByte 9, 5, 5, [.ofByte 7], [0x68, 0xC3, 0xA9]⟩

/-- That message, and a channel whose name needs escapes. -/
theorem json_round_trips_plain :
    (@RequestMessage.toJson plainJson
          (.createChannel ⟨lit "\"plans\"\n", [.ofByte 7, .ofByte 8]⟩)).bind
        (@RequestMessage.fromJson plainJson (.ofByte 0) .createChannel)
      = some (.createChannel ⟨lit "\"plans\"\n", [.ofByte 7, .ofByte 8]⟩)
      ∧ (@Response.toJson plainJson (.sendMessage (.ok largest))).bind
          (@Response.fromJson plainJson (.ofByte 0) .sendMessage)
        = some (.sendMessage (.ok largest)) :=
  ⟨(@json_round_trips plainJson plainJson_dumpsAndParses (.ofByte 0)).1
      (.createChannel ⟨lit "\"plans\"\n", [.ofByte 7, .ofByte 8]⟩) rfl,
    (@json_round_trips plainJson plainJson_dumpsAndParses (.ofByte 0)).2
      (.sendMessage (.ok largest)) rfl⟩

/-- A user who is in a channel. -/
def adaInChannel : User := ⟨.ofByte 1, lit "ada", lit "Ada", lit "pic", [.ofByte 9]⟩

/-- Not all of a response comes back: a user who logs in has lost her channels. -/
theorem channels_are_in_no_json :
    ¬ ∀ lib : Nlohmann, @DumpsAndParses lib → ∀ (drawn : UUID) (r : Response), r.prints = true →
      (@Response.toJson lib r).bind (@Response.fromJson lib drawn r.operation) = some r := by
  intro hall
  have hback := (@response_survives plainJson plainJson_dumpsAndParses (.ofByte 0)
    (.login (.ok adaInChannel)) rfl).bind
  rw [hall plainJson plainJson_dumpsAndParses (.ofByte 0) (.login (.ok adaInChannel)) rfl] at hback
  have huser : adaInChannel = adaInChannel.profile :=
    Except.ok.inj (Response.login.inj (Option.some.inj hback))
  exact absurd (congrArg User.channels huser) (List.cons_ne_nil _ _)

end SockEtOut.Proof
