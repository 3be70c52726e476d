import SockEtOut.Wire.Json

/-!
# When a UUID is what its string says

`UUID::from_string` starts from a UUID whose bytes are drawn and writes one byte for
every two characters, as many as the string has. Nothing compares that number with
sixteen: from a shorter string the last bytes stay as they were drawn, and a longer
one is written past the end of the array.

`parse` is the loop pass by pass, with its three ways to end; `fromString` is what
it comes to for a caller. `safe_iff` says for which strings a caller is safe.
-/

namespace SockEtOut

/-- How a call of `from_string` ends. -/
inductive Parsing where
  | throws
  | writesAt (i : Nat)
  | returns (uuid : UUID)
  deriving DecidableEq

def Parsing.toOption : Parsing → Option UUID
  | .returns uuid => some uuid
  | .throws | .writesAt _ => none

namespace UUID

/-- `uuid.value[i] = byte` -/
def set (uuid : UUID) (i : Nat) (byte : UInt8) : UUID :=
  ⟨uuid.value.set i byte, by rw [List.length_set, uuid.size_eq]⟩

/-- The loop from its pass `i` on. What a write behind the array does is not followed. -/
def parseFrom (i : Nat) (uuid : UUID) : List Str → Parsing
  | [] => .returns uuid
  | byteString :: rest =>
      match stoul byteString with
      | none => .throws
      | some n =>
          if i < 16 then parseFrom (i + 1) (uuid.set i (UInt8.ofNat n)) rest else .writesAt i

/-- `from_string`, on a UUID that has just been drawn. -/
def parse (drawn : UUID) (str : Str) : Parsing := parseFrom 0 drawn (pairs str)

/-- The bytes a string stands for, if it can be read to its end. -/
def bytesOf (str : Str) : Option (List UInt8) :=
  (pairs str).mapM fun byteString => (stoul byteString).map UInt8.ofNat

/--
A call throws, or it writes inside the array only, and returns a UUID that does not
depend on what was drawn and has all its bytes from the string.
-/
def Safe (str : Str) : Prop :=
  (∀ drawn, parse drawn str = .throws)
    ∨ ∃ uuid : UUID, bytesOf str = some uuid.value ∧ ∀ drawn, parse drawn str = .returns uuid

end UUID

namespace Proof

/-! ## The loop -/

/-- Where the loop has written, the bytes are the string's; behind that they are as before. -/
theorem parseFrom_returns {pieces : List Str} : ∀ {bytes : List UInt8} {i : Nat} {uuid : UUID},
    (pieces.mapM fun byteString => (stoul byteString).map UInt8.ofNat) = some bytes →
      i + bytes.length ≤ 16 →
      ∃ uuid' : UUID, UUID.parseFrom i uuid pieces = .returns uuid'
        ∧ uuid'.value = uuid.value.take i ++ bytes ++ uuid.value.drop (i + bytes.length) := by
  induction pieces with
  | nil =>
      intro bytes i uuid hbytes hi
      cases hbytes
      exact ⟨uuid, rfl, by simp⟩
  | cons byteString pieces ih =>
      intro bytes i uuid hbytes hi
      rw [List.mapM_cons] at hbytes
      cases hn : stoul byteString with
      | none =>
          rw [hn] at hbytes
          cases hbytes
      | some n =>
          obtain ⟨byte, hbyte, hbytes⟩ := Option.bind_eq_some_iff.mp hbytes
          obtain ⟨bytes', hrest, hpure⟩ := Option.bind_eq_some_iff.mp hbytes
          rw [hn] at hbyte
          cases hbyte
          cases hpure
          rw [List.length_cons] at hi
          obtain ⟨uuid', hparse, hvalue⟩ :=
            @ih bytes' (i + 1) (uuid.set i (UInt8.ofNat n)) hrest (by omega)
          have hlt : i < uuid.value.length := by rw [uuid.size_eq]; omega
          refine ⟨uuid', ?_, ?_⟩
          · rw [UUID.parseFrom, hn]
            dsimp only
            rw [if_pos (by omega), hparse]
          · -- the rest of the loop leaves the byte that was just written in front of it
            rw [hvalue, UUID.set]
            dsimp only
            rw [List.drop_set_of_lt (by omega), List.take_succ_eq_append_getElem (by
              rw [List.length_set]; exact hlt), List.take_set_of_le (Nat.le_refl i),
              List.getElem_set_self, List.length_cons]
            simp [Nat.add_assoc, Nat.add_comm 1]

/-- It throws at a piece that is no numeral, if it gets there. -/
theorem parseFrom_throws {pieces : List Str} : ∀ {i : Nat} {uuid : UUID}, i ≤ 16 →
    (∃ byteString ∈ pieces.take (17 - i), stoul byteString = none) →
      UUID.parseFrom i uuid pieces = .throws := by
  induction pieces with
  | nil =>
      rintro i uuid - ⟨byteString, hmem, -⟩
      rw [List.take_nil] at hmem
      exact absurd hmem List.not_mem_nil
  | cons first pieces ih =>
      rintro i uuid hi ⟨byteString, hmem, hnone⟩
      rw [UUID.parseFrom]
      cases hn : stoul first with
      | none => rfl
      | some n =>
          rw [show 17 - i = 16 - i + 1 by omega, List.take_succ_cons] at hmem
          rcases List.mem_cons.mp hmem with rfl | hmem
          · rw [hn] at hnone
            cases hnone
          · by_cases hlt : i < 16
            · dsimp only
              rw [if_pos hlt]
              rw [show 16 - i = 17 - (i + 1) by omega] at hmem
              exact ih hlt ⟨byteString, hmem, hnone⟩
            · -- the array is full, and no further piece is looked at
              rw [show 16 - i = 0 by omega, List.take_zero] at hmem
              exact absurd hmem List.not_mem_nil

/-- A seventeenth byte is written behind the array. -/
theorem parseFrom_writesAt {pieces : List Str} : ∀ {i : Nat} {uuid : UUID}, i ≤ 16 →
    17 ≤ i + pieces.length → (∀ byteString ∈ pieces.take (17 - i), stoul byteString ≠ none) →
      UUID.parseFrom i uuid pieces = .writesAt 16 := by
  induction pieces with
  | nil =>
      intro i uuid hi hlength
      rw [List.length_nil] at hlength
      omega
  | cons first pieces ih =>
      intro i uuid hi hlength hpieces
      rw [show 17 - i = 16 - i + 1 by omega, List.take_succ_cons] at hpieces
      rw [List.length_cons] at hlength
      obtain ⟨n, hn⟩ := Option.ne_none_iff_exists'.mp (hpieces first List.mem_cons_self)
      rw [UUID.parseFrom, hn]
      dsimp only
      by_cases hlt : i < 16
      · rw [if_pos hlt]
        refine ih hlt (by omega) fun byteString hmem => ?_
        rw [show 17 - (i + 1) = 16 - i by omega] at hmem
        exact hpieces byteString (List.mem_cons_of_mem _ hmem)
      · rw [if_neg hlt, show i = 16 by omega]

/-! ## What a caller sees -/

/-- Either some piece is no numeral, or every piece is read as a byte. -/
theorem mapM_cases (pieces : List Str) :
    ((∃ byteString ∈ pieces, stoul byteString = none)
        ∧ (pieces.mapM fun byteString => (stoul byteString).map UInt8.ofNat) = none)
      ∨ (∀ byteString ∈ pieces, stoul byteString ≠ none)
        ∧ ∃ bytes : List UInt8, bytes.length = pieces.length
          ∧ (pieces.mapM fun byteString => (stoul byteString).map UInt8.ofNat) = some bytes := by
  induction pieces with
  | nil => exact Or.inr ⟨fun _ hmem => absurd hmem List.not_mem_nil, [], rfl, rfl⟩
  | cons first pieces ih =>
      rw [List.mapM_cons]
      cases hn : stoul first with
      | none => exact Or.inl ⟨⟨first, List.mem_cons_self, hn⟩, rfl⟩
      | some n =>
          rcases ih with ⟨⟨byteString, hmem, hnone⟩, hmapM⟩ | ⟨hall, bytes, hlength, hmapM⟩
          · rw [hmapM]
            exact Or.inl ⟨⟨byteString, List.mem_cons_of_mem _ hmem, hnone⟩, rfl⟩
          · rw [hmapM]
            refine Or.inr ⟨?_, UInt8.ofNat n :: bytes, by simp [hlength], rfl⟩
            intro byteString hmem
            rcases List.mem_cons.mp hmem with rfl | hmem
            · rw [hn]
              exact Option.some_ne_none n
            · exact hall byteString hmem

/-- One piece for two characters. -/
theorem length_pairs : ∀ str : Str, (pairs str).length = (str.length + 1) / 2
  | [] => rfl
  | [_] => by simp [pairs]
  | _ :: _ :: str => by
      rw [pairs, List.length_cons, length_pairs str, List.length_cons, List.length_cons]
      omega

/-- What is read is written from the first byte on, over what was drawn. -/
theorem parse_returns {str : Str} {bytes : List UInt8} (h : UUID.bytesOf str = some bytes)
    (hlength : bytes.length ≤ 16) (drawn : UUID) :
    ∃ uuid : UUID, UUID.parse drawn str = .returns uuid
      ∧ uuid.value = bytes ++ drawn.value.drop bytes.length := by
  obtain ⟨uuid, hparse, hvalue⟩ := @parseFrom_returns _ _ 0 drawn h (by rwa [Nat.zero_add])
  rw [List.take_zero, List.nil_append, Nat.zero_add] at hvalue
  exact ⟨uuid, hparse, hvalue⟩

/-- `fromString` is what the loop comes to. -/
theorem toOption_parse (drawn : UUID) (str : Str) :
    (UUID.parse drawn str).toOption = UUID.fromString drawn str := by
  have hbytes : UUID.fromString drawn str = (UUID.bytesOf str).bind fun bytes =>
      if h : bytes.length ≤ 16 then some ⟨_, UUID.size_overwrite drawn h⟩ else none := rfl
  rw [hbytes]
  -- the loop writes as it reads, `fromString` reads everything first
  by_cases hthrows : ∃ byteString ∈ (pairs str).take 17, stoul byteString = none
  · have hparse : UUID.parse drawn str = .throws := parseFrom_throws (Nat.zero_le 16) hthrows
    obtain ⟨byteString, hmem, hnone⟩ := hthrows
    rcases mapM_cases (pairs str) with ⟨-, hmapM⟩ | ⟨hall, -⟩
    · rw [hparse, UUID.bytesOf, hmapM]
      rfl
    · exact absurd hnone (hall byteString (List.mem_of_mem_take hmem))
  · have hread : ∀ byteString ∈ (pairs str).take 17, stoul byteString ≠ none :=
      fun byteString hmem hnone => hthrows ⟨byteString, hmem, hnone⟩
    by_cases hlong : 17 ≤ (pairs str).length
    · have hparse : UUID.parse drawn str = .writesAt 16 :=
        parseFrom_writesAt (Nat.zero_le 16) (by rwa [Nat.zero_add]) hread
      rw [hparse]
      rcases mapM_cases (pairs str) with ⟨-, hmapM⟩ | ⟨-, bytes, hlength, hmapM⟩
      · rw [UUID.bytesOf, hmapM]
        rfl
      · rw [UUID.bytesOf, hmapM, Option.bind_some, dif_neg (by omega)]
        rfl
    · rw [List.take_of_length_le (by omega)] at hread
      rcases mapM_cases (pairs str) with ⟨⟨byteString, hmem, hnone⟩, -⟩ | ⟨-, bytes, hlength, hmapM⟩
      · exact absurd hnone (hread byteString hmem)
      · obtain ⟨uuid, hparse, hvalue⟩ := parse_returns hmapM (by omega) drawn
        rw [hparse, UUID.bytesOf, hmapM, Option.bind_some, dif_pos (by omega)]
        obtain ⟨value, hsize⟩ := uuid
        cases hvalue
        rfl

/-! ## Safety -/

/--
**A string is safe to parse** if it has two characters for each of the sixteen bytes,
the last one perhaps without its second, or if the loop comes to a piece that is no
numeral before it has filled the array and gone on.
-/
theorem fromString_safe_iff (str : Str) :
    UUID.Safe str ↔ str.length = 31 ∨ str.length = 32
      ∨ ∃ byteString ∈ (pairs str).take 17, stoul byteString = none := by
  have hpairs := length_pairs str
  by_cases hthrows : ∃ byteString ∈ (pairs str).take 17, stoul byteString = none
  · exact iff_of_true (Or.inl fun drawn => parseFrom_throws (Nat.zero_le 16) hthrows)
      (Or.inr (Or.inr hthrows))
  have hread : ∀ byteString ∈ (pairs str).take 17, stoul byteString ≠ none :=
    fun byteString hmem hnone => hthrows ⟨byteString, hmem, hnone⟩
  by_cases hlong : 17 ≤ (pairs str).length
  · have hparse : ∀ drawn, UUID.parse drawn str = .writesAt 16 := fun drawn =>
      parseFrom_writesAt (Nat.zero_le 16) (by rwa [Nat.zero_add]) hread
    refine iff_of_false ?_ ?_
    · rintro (hthrow | ⟨uuid, -, hreturn⟩)
      · cases (hparse ⟨List.replicate 16 0, rfl⟩).symm.trans (hthrow _)
      · cases (hparse uuid).symm.trans (hreturn uuid)
    · rintro (h31 | h32 | hthrow)
      · omega
      · omega
      · exact hthrows hthrow
  · rw [List.take_of_length_le (by omega)] at hread
    rcases mapM_cases (pairs str) with ⟨⟨byteString, hmem, hnone⟩, -⟩ | ⟨-, bytes, hlength, hmapM⟩
    · exact absurd hnone (hread byteString hmem)
    · -- the loop returns, and the question is what it has left of the drawn bytes
      have hreturns := parse_returns hmapM (by omega)
      by_cases hfull : bytes.length = 16
      · refine iff_of_true (Or.inr ⟨⟨bytes, hfull⟩, hmapM, fun drawn => ?_⟩) (by omega)
        obtain ⟨⟨value, hsize⟩, hparse, hvalue⟩ := hreturns drawn
        have hrest : drawn.value.drop bytes.length = [] := by
          rw [List.drop_eq_nil_iff, drawn.size_eq, hfull]
        rw [hrest, List.append_nil] at hvalue
        cases hvalue
        exact hparse
      · refine iff_of_false ?_ ?_
        · rintro (hthrow | ⟨uuid, hbytes, -⟩)
          · obtain ⟨uuid, hparse, -⟩ := hreturns ⟨List.replicate 16 0, rfl⟩
            cases hparse.symm.trans (hthrow _)
          · cases hmapM.symm.trans hbytes
            exact hfull uuid.size_eq
        · rintro (h31 | h32 | hthrow)
          · omega
          · omega
          · exact hthrows hthrow

/-- Nothing is read from no characters, and from thirty-four one byte too many. -/
theorem fromString_unsafe :
    ¬ UUID.Safe [] ∧ ¬ UUID.Safe (List.replicate 34 0x30) := by
  refine ⟨?_, ?_⟩
  · rintro (hthrow | ⟨uuid, hbytes, -⟩)
    · cases hthrow ⟨List.replicate 16 0, rfl⟩
    · have hsize := uuid.size_eq
      rw [← Option.some.inj hbytes] at hsize
      cases hsize
  · have hparse : UUID.parse ⟨List.replicate 16 0, rfl⟩ (List.replicate 34 0x30) = .writesAt 16 :=
      parseFrom_writesAt (Nat.zero_le 16) (by decide) (by decide)
    rintro (hthrow | ⟨uuid, -, hreturn⟩)
    · cases hparse.symm.trans (hthrow _)
    · cases hparse.symm.trans (hreturn _)

end Proof

end SockEtOut
