import SockEtOut.Lib.Numerals

/-!
# JSON values and their compact text

A JSON value with byte strings, numbers that are unsigned words, and objects kept
in the order of their keys, as a map keeps them. `text` writes one without
white space; only quotes, backslashes and control characters of a string are
escaped, every other byte is copied. `parse` reads such a text.

`parse_text` is the round trip, for values whose objects have their keys in order,
which is how `put` builds them. `text_of_strings` is for an encoding of characters:
what holds of the strings in a value and of ASCII holds of its text.
-/

namespace Lib

inductive Json where
  | null
  | bool (b : Bool)
  | number (n : UInt64)
  | string (s : List UInt8)
  | array (elements : List Json)
  | object (members : List (List UInt8 × Json))

namespace Json

/-! ## Objects -/

/-- Assign to a key: replace its value, or insert it where it belongs. -/
def put (key : List UInt8) (j : Json) : List (List UInt8 × Json) → List (List UInt8 × Json)
  | [] => [(key, j)]
  | (key', j') :: members =>
      if key = key' then (key, j) :: members
      else if key < key' then (key, j) :: (key', j') :: members
      else (key', j') :: put key j members

/-- The value of a key. -/
def find (key : List UInt8) : List (List UInt8 × Json) → Option Json
  | [] => none
  | (key', j) :: members => if key = key' then some j else find key members

/-- The object of some assignments, made in order. -/
def ofFields (fields : List (List UInt8 × Json)) : List (List UInt8 × Json) :=
  fields.foldl (fun members field => put field.1 field.2 members) []

/-- The keys increase. -/
def Sorted (members : List (List UInt8 × Json)) : Prop := members.Pairwise fun m m' => m.1 < m'.1

theorem mem_put {key : List UInt8} {j : Json} {members : List (List UInt8 × Json)}
    {m : List UInt8 × Json} (h : m ∈ put key j members) : m = (key, j) ∨ m ∈ members := by
  induction members with
  | nil => exact Or.inl (List.mem_singleton.mp h)
  | cons m' members ih =>
      rw [put] at h
      split at h
      · rcases List.mem_cons.mp h with h | h
        · exact Or.inl h
        · exact Or.inr (List.mem_cons_of_mem _ h)
      · split at h
        · rcases List.mem_cons.mp h with h | h
          · exact Or.inl h
          · exact Or.inr h
        · rcases List.mem_cons.mp h with h | h
          · exact Or.inr (h ▸ List.mem_cons_self)
          · rcases ih h with h | h
            · exact Or.inl h
            · exact Or.inr (List.mem_cons_of_mem _ h)

theorem sorted_put {key : List UInt8} {j : Json} {members : List (List UInt8 × Json)}
    (h : Sorted members) : Sorted (put key j members) := by
  induction members with
  | nil => exact List.pairwise_singleton _ _
  | cons m members ih =>
      obtain ⟨hfirst, hrest⟩ := List.pairwise_cons.mp h
      rw [put]
      split
      · rename_i heq
        exact List.pairwise_cons.mpr ⟨fun m' hm' => heq ▸ hfirst m' hm', hrest⟩
      · rename_i hne
        split
        · rename_i hlt
          refine List.pairwise_cons.mpr ⟨fun m' hm' => ?_, h⟩
          rcases List.mem_cons.mp hm' with hm' | hm'
          · exact hm' ▸ hlt
          · exact List.lt_trans hlt (hfirst m' hm')
        · rename_i hnlt
          refine List.pairwise_cons.mpr ⟨fun m' hm' => ?_, ih hrest⟩
          rcases mem_put hm' with hm' | hm'
          · exact hm' ▸ Std.lt_of_le_of_ne hnlt (Ne.symm hne)
          · exact hfirst m' hm'

theorem find_put (key : List UInt8) (j : Json) (members : List (List UInt8 × Json))
    (key' : List UInt8) :
    find key' (put key j members) = if key' = key then some j else find key' members := by
  induction members with
  | nil => rfl
  | cons m members ih =>
      rw [put, find]
      by_cases hhead : key = m.1
      · rw [if_pos hhead, find, ← hhead]
        by_cases h : key' = key
        · rw [if_pos h, if_pos h]
        · rw [if_neg h, if_neg h, if_neg h]
      · rw [if_neg hhead]
        by_cases hlt : key < m.1
        · rw [if_pos hlt, find, find]
        · rw [if_neg hlt, find, ih]
          by_cases h : key' = key
          · rw [if_pos h, if_neg (by rw [h]; exact hhead), if_pos h]
          · rw [if_neg h, if_neg h]

/-- A key beyond all others goes to the end. -/
theorem put_last {key : List UInt8} {j : Json} {members : List (List UInt8 × Json)}
    (h : ∀ m ∈ members, m.1 < key) : put key j members = members ++ [(key, j)] := by
  induction members with
  | nil => rfl
  | cons m members ih =>
      have hlt := h m List.mem_cons_self
      have hne : key ≠ m.1 := by
        intro heq
        rw [heq] at hlt
        exact List.lt_irrefl _ hlt
      rw [put, if_neg hne, if_neg (List.lt_asymm hlt),
        ih fun m' hm' => h m' (List.mem_cons_of_mem _ hm'), List.cons_append]

/-- Fields in order are the members. -/
theorem ofFields_sorted {members : List (List UInt8 × Json)} (h : Sorted members) :
    ofFields members = members := by
  have hgen : ∀ (done todo : List (List UInt8 × Json)), Sorted (done ++ todo) →
      todo.foldl (fun members field => put field.1 field.2 members) done = done ++ todo := by
    intro done todo
    induction todo generalizing done with
    | nil => intro _; exact (List.append_nil done).symm
    | cons m todo ih =>
        intro hsorted
        have hlast : ∀ m' ∈ done, m'.1 < m.1 := fun m' hm' =>
          (List.pairwise_append.mp hsorted).2.2 m' hm' m List.mem_cons_self
        rw [List.append_cons] at hsorted ⊢
        rw [List.foldl_cons, put_last hlast]
        exact ih _ hsorted
  exact hgen [] members h

theorem sorted_ofFields (fields : List (List UInt8 × Json)) : Sorted (ofFields fields) := by
  have hgen : ∀ (todo done : List (List UInt8 × Json)), Sorted done →
      Sorted (todo.foldl (fun members field => put field.1 field.2 members) done) := by
    intro todo
    induction todo with
    | nil => intro done h; exact h
    | cons m todo ih => intro done h; exact ih _ (sorted_put h)
  exact hgen fields [] List.Pairwise.nil

/-- A key that is not assigned to keeps what it had. -/
theorem find_foldl_put {key : List UInt8} : ∀ {fields done : List (List UInt8 × Json)},
    key ∉ fields.map Prod.fst →
    find key (fields.foldl (fun members field => put field.1 field.2 members) done)
      = find key done := by
  intro fields
  induction fields with
  | nil => intro done _; rfl
  | cons field fields ih =>
      intro done h
      rw [List.map_cons, List.mem_cons, not_or] at h
      rw [List.foldl_cons, ih h.2, find_put, if_neg h.1]

theorem find_ofFields_none {key : List UInt8} {fields : List (List UInt8 × Json)}
    (h : key ∉ fields.map Prod.fst) : find key (ofFields fields) = none :=
  find_foldl_put h

/-- A field assigned once is found. -/
theorem find_ofFields {key : List UInt8} {j : Json} {fields : List (List UInt8 × Json)}
    (hnodup : (fields.map Prod.fst).Nodup) (h : (key, j) ∈ fields) :
    find key (ofFields fields) = some j := by
  obtain ⟨before, after, rfl⟩ := List.append_of_mem h
  rw [List.map_append, List.nodup_append, List.map_cons, List.nodup_cons] at hnodup
  rw [ofFields, List.foldl_append, List.foldl_cons, find_foldl_put hnodup.2.1.1, find_put,
    if_pos rfl]

theorem mem_ofFields {fields : List (List UInt8 × Json)} {m : List UInt8 × Json}
    (h : m ∈ ofFields fields) : m ∈ fields := by
  have hgen : ∀ (todo done : List (List UInt8 × Json)),
      m ∈ todo.foldl (fun members field => put field.1 field.2 members) done →
        m ∈ todo ∨ m ∈ done := by
    intro todo
    induction todo with
    | nil => intro done hm; exact Or.inr hm
    | cons field todo ih =>
        intro done hm
        rcases ih _ hm with hm | hm
        · exact Or.inl (List.mem_cons_of_mem _ hm)
        · rcases mem_put hm with rfl | hm
          · exact Or.inl List.mem_cons_self
          · exact Or.inr hm
  rcases hgen fields [] h with hm | hm
  · exact hm
  · exact absurd hm List.not_mem_nil

/-! ## Writing -/

def quote : UInt8 := 0x22

def backslash : UInt8 := 0x5C

/-- The letter of a short escape and the control character it stands for. -/
def shortEscapes : List (UInt8 × UInt8) :=
  [(0x62, 0x08), (0x66, 0x0C), (0x6E, 0x0A), (0x72, 0x0D), (0x74, 0x09)]

/-- A byte of a string, as it is written. -/
def escape (b : UInt8) : List UInt8 :=
  if b = quote ∨ b = backslash then [backslash, b]
  else
    match shortEscapes.find? (·.2 == b) with
    | some (letter, _) => [backslash, letter]
    | none =>
        if b < 0x20 then
          [backslash, 0x75, 0x30, 0x30, hexDigit (b.toNat / 16), hexDigit (b.toNat % 16)]
        else [b]

def quoted (s : List UInt8) : List UInt8 := quote :: (s.flatMap escape ++ [quote])

mutual

/-- A value without white space. -/
def text : Json → List UInt8
  | null => [0x6E, 0x75, 0x6C, 0x6C]
  | bool true => [0x74, 0x72, 0x75, 0x65]
  | bool false => [0x66, 0x61, 0x6C, 0x73, 0x65]
  | number n => decimal n.toNat
  | string s => quoted s
  | array [] => [0x5B, 0x5D]
  | array (j :: js) => 0x5B :: (j.text ++ elementsText js)
  | object [] => [0x7B, 0x7D]
  | object ((key, j) :: members) => 0x7B :: (quoted key ++ 0x3A :: (j.text ++ membersText members))

/-- What follows an element of an array. -/
def elementsText : List Json → List UInt8
  | [] => [0x5D]
  | j :: js => 0x2C :: (j.text ++ elementsText js)

/-- What follows a member of an object. -/
def membersText : List (List UInt8 × Json) → List UInt8
  | [] => [0x7D]
  | (key, j) :: members => 0x2C :: (quoted key ++ 0x3A :: (j.text ++ membersText members))

end

/-! ## Reading -/

/-- What is behind a byte that has to be there. -/
def after (c : UInt8) : List UInt8 → Option (List UInt8)
  | [] => none
  | b :: rest => if b = c then some rest else none

/-- What is behind several. -/
def afterAll (s text : List UInt8) : Option (List UInt8) :=
  s.foldlM (fun rest c => after c rest) text

/-- What a letter stands for behind a backslash. -/
def unescape (letter : UInt8) : Option UInt8 :=
  if letter = quote ∨ letter = backslash then some letter
  else (shortEscapes.find? (·.1 == letter)).map Prod.snd

/-- A string from behind its opening quote on. -/
def readString : List UInt8 → Option (List UInt8 × List UInt8)
  | [] => none
  | b :: rest =>
      if b = quote then some ([], rest)
      else if b = backslash then
        match rest with
        | 0x75 :: 0x30 :: 0x30 :: high :: low :: rest =>
            match hexValue high, hexValue low with
            | some high, some low =>
                (readString rest).map fun p => (UInt8.ofNat (16 * high + low) :: p.1, p.2)
            | _, _ => none
        | letter :: rest =>
            match unescape letter with
            | some c => (readString rest).map fun p => (c :: p.1, p.2)
            | none => none
        | [] => none
      else if b < 0x20 then none
      else (readString rest).map fun p => (b :: p.1, p.2)

/-- A numeral without leading zeros that fits a word. -/
def readNumber (s : List UInt8) : Option (Json × List UInt8) :=
  let digits := s.takeWhile isDigit
  if decimal (ofDecimal digits) = digits ∧ ofDecimal digits < 2 ^ 64 then
    some (number (UInt64.ofNat (ofDecimal digits)), s.dropWhile isDigit)
  else none

mutual

/-- A value at the front, and what is behind it. The number bounds how much is looked at. -/
def readValue : Nat → List UInt8 → Option (Json × List UInt8)
  | 0, _ => none
  | _ + 1, [] => none
  | n + 1, c :: rest =>
      if c = quote then (readString rest).map fun p => (string p.1, p.2)
      else if c = 0x5B then
        match after 0x5D rest with
        | some rest => some (array [], rest)
        | none => do
            let (j, rest) ← readValue n rest
            let (js, rest) ← readElements n rest
            pure (array (j :: js), rest)
      else if c = 0x7B then
        match after 0x7D rest with
        | some rest => some (object [], rest)
        | none => do
            let rest ← after quote rest
            let (key, rest) ← readString rest
            let rest ← after 0x3A rest
            let (j, rest) ← readValue n rest
            let (members, rest) ← readMembers n rest
            pure (object (ofFields ((key, j) :: members)), rest)
      else if c = 0x6E then (afterAll [0x75, 0x6C, 0x6C] rest).map fun rest => (null, rest)
      else if c = 0x74 then (afterAll [0x72, 0x75, 0x65] rest).map fun rest => (bool true, rest)
      else if c = 0x66 then
        (afterAll [0x61, 0x6C, 0x73, 0x65] rest).map fun rest => (bool false, rest)
      else readNumber (c :: rest)

/-- The elements that follow one, up to the closing bracket. -/
def readElements : Nat → List UInt8 → Option (List Json × List UInt8)
  | 0, _ => none
  | n + 1, s =>
      match after 0x5D s with
      | some rest => some ([], rest)
      | none => do
          let rest ← after 0x2C s
          let (j, rest) ← readValue n rest
          let (js, rest) ← readElements n rest
          pure (j :: js, rest)

/-- The members that follow one, up to the closing brace. -/
def readMembers : Nat → List UInt8 → Option (List (List UInt8 × Json) × List UInt8)
  | 0, _ => none
  | n + 1, s =>
      match after 0x7D s with
      | some rest => some ([], rest)
      | none => do
          let rest ← after 0x2C s
          let rest ← after quote rest
          let (key, rest) ← readString rest
          let rest ← after 0x3A rest
          let (j, rest) ← readValue n rest
          let (members, rest) ← readMembers n rest
          pure ((key, j) :: members, rest)

end

/-- A text that is one value. -/
def parse (s : List UInt8) : Option Json :=
  match readValue s.length s with
  | some (j, []) => some j
  | _ => none

/-! ## The round trip -/

mutual

/-- Every object has its keys in order. -/
def WellFormed : Json → Prop
  | null | bool _ | number _ | string _ => True
  | array js => ElementsWellFormed js
  | object members => Sorted members ∧ MembersWellFormed members

def ElementsWellFormed : List Json → Prop
  | [] => True
  | j :: js => j.WellFormed ∧ ElementsWellFormed js

def MembersWellFormed : List (List UInt8 × Json) → Prop
  | [] => True
  | (_, j) :: members => j.WellFormed ∧ MembersWellFormed members

end

theorem after_cons (c : UInt8) (rest : List UInt8) : after c (c :: rest) = some rest := by
  rw [after, if_pos rfl]

theorem after_ne {b c : UInt8} (h : b ≠ c) (rest : List UInt8) : after c (b :: rest) = none := by
  rw [after, if_neg h]

/-- A short escape. -/
theorem readString_short {letter c : UInt8} (h : unescape letter = some c) (hu : letter ≠ 0x75)
    (rest : List UInt8) :
    readString (backslash :: letter :: rest) = (readString rest).map fun p => (c :: p.1, p.2) := by
  rw [readString.eq_def]
  dsimp only
  rw [if_neg (by decide), if_pos rfl]
  split
  · rename_i heq
    exact absurd (List.cons.inj heq).1 hu
  · rename_i heq
    obtain ⟨rfl, rfl⟩ := List.cons.inj heq
    rw [h]
  · rename_i heq
    exact absurd heq (List.cons_ne_nil _ _)

/-- A control character without a letter of its own. -/
theorem readString_control (b : UInt8) (rest : List UInt8) :
    readString (backslash :: 0x75 :: 0x30 :: 0x30 :: hexDigit (b.toNat / 16)
      :: hexDigit (b.toNat % 16) :: rest) = (readString rest).map fun p => (b :: p.1, p.2) := by
  have hb := b.toNat_lt
  have hword : UInt8.ofNat (16 * (b.toNat / 16) + b.toNat % 16) = b := by
    rw [Nat.div_add_mod, UInt8.ofNat_toNat]
  rw [readString.eq_def]
  dsimp only
  rw [if_neg (by decide), if_pos rfl]
  split
  · rename_i heq
    simp only [List.cons.injEq, true_and] at heq
    obtain ⟨rfl, rfl, rfl⟩ := heq
    rw [hexValue_hexDigit (by omega), hexValue_hexDigit (by omega)]
    dsimp only
    rw [hword]
  · rename_i hcontrol heq
    obtain ⟨rfl, rfl⟩ := List.cons.inj heq
    exact absurd rfl (hcontrol _ _ _ rfl)
  · rename_i heq
    exact absurd heq (List.cons_ne_nil _ _)

/-- Each byte of a string is read back from its escape. -/
theorem readString_escape (b : UInt8) (rest : List UInt8) :
    readString (escape b ++ rest) = (readString rest).map fun p => (b :: p.1, p.2) := by
  rw [escape]
  split
  · rename_i hspecial
    refine readString_short (if_pos hspecial) ?_ rest
    rcases hspecial with rfl | rfl <;> decide
  · rename_i hspecial
    split
    · rename_i letter c hfind
      have hmem := List.mem_of_find?_eq_some hfind
      have hc := List.find?_some hfind
      obtain rfl : c = b := eq_of_beq hc
      have hletters : shortEscapes.all (fun e => unescape e.1 == some e.2 && e.1 != 0x75) := rfl
      have hletter := List.all_eq_true.mp hletters _ hmem
      rw [Bool.and_eq_true, beq_iff_eq, bne_iff_ne] at hletter
      exact readString_short hletter.1 hletter.2 rest
    · split
      · exact readString_control b rest
      · rename_i hcontrol
        rw [not_or] at hspecial
        rw [List.singleton_append, readString.eq_def]
        dsimp only
        rw [if_neg hspecial.1, if_neg hspecial.2, if_neg hcontrol]

/-- A string is read up to its closing quote, whatever is in it. -/
theorem readString_quoted (s rest : List UInt8) :
    readString (s.flatMap escape ++ quote :: rest) = some (s, rest) := by
  induction s with
  | nil =>
      rw [List.flatMap_nil, List.nil_append, readString.eq_def]
      exact if_pos rfl
  | cons b s ih =>
      rw [List.flatMap_cons, List.append_assoc, readString_escape, ih]
      rfl

theorem readNumber_decimal (n : UInt64) {rest : List UInt8}
    (h : ∀ c ∈ rest.head?, isDigit c = false) :
    readNumber (decimal n.toNat ++ rest) = some (number n, rest) := by
  rw [readNumber, takeWhile_decimal _ h, dropWhile_decimal _ h, ofDecimal_decimal,
    UInt64.ofNat_toNat, if_pos ⟨rfl, n.toNat_lt⟩]

/-- No number runs on into what follows. -/
def EndsNumber (rest : List UInt8) : Prop := ∀ c ∈ rest.head?, isDigit c = false

theorem endsNumber_cons {c : UInt8} (h : isDigit c = false) (rest : List UInt8) :
    EndsNumber (c :: rest) := by
  intro c' hc'
  rw [List.head?_cons, Option.mem_some_iff] at hc'
  rw [← hc', h]

theorem endsNumber_elements (js : List Json) (rest : List UInt8) :
    EndsNumber (elementsText js ++ rest) := by
  cases js <;> exact endsNumber_cons (by decide) _

theorem endsNumber_members (members : List (List UInt8 × Json)) (rest : List UInt8) :
    EndsNumber (membersText members ++ rest) := by
  cases members <;> exact endsNumber_cons (by decide) _

/-- A value begins with a byte that does not close an array. -/
theorem text_cons (j : Json) : ∃ c t, j.text = c :: t ∧ c ≠ 0x5D := by
  cases j with
  | null => exact ⟨_, _, text.eq_1, by decide⟩
  | bool b => cases b <;> exact ⟨_, _, rfl, by decide⟩
  | number n =>
      rw [text]
      obtain ⟨c, t, hdecimal⟩ := List.exists_cons_of_ne_nil (decimal_ne_nil n.toNat)
      refine ⟨c, t, hdecimal, ?_⟩
      rintro rfl
      have hdigit := isDigit_decimal n.toNat 0x5D (by rw [hdecimal]; exact List.mem_cons_self)
      exact absurd hdigit (by decide)
  | string s => exact ⟨_, _, by rw [text, quoted], by decide⟩
  | array js => cases js <;> exact ⟨_, _, by rw [text], by decide⟩
  | object members =>
      cases members with
      | nil => exact ⟨_, _, by rw [text], by decide⟩
      | cons m members => exact ⟨_, _, by rw [text], by decide⟩

mutual

/-- A value is read off its text. -/
theorem readValue_text : ∀ (j : Json) (n : Nat) (rest : List UInt8), j.WellFormed →
    j.text.length ≤ n → EndsNumber rest → readValue n (j.text ++ rest) = some (j, rest)
  | j, 0, rest, _, hn, _ => by
      obtain ⟨c, t, htext, -⟩ := text_cons j
      rw [htext] at hn
      exact absurd hn (Nat.not_succ_le_zero _)
  | null, n + 1, rest, _, _, _ => by
      rw [text]
      rfl
  | bool b, n + 1, rest, _, _, _ => by
      cases b <;> rfl
  | number m, n + 1, rest, _, _, hrest => by
      obtain ⟨c, t, hdecimal⟩ := List.exists_cons_of_ne_nil (decimal_ne_nil m.toNat)
      have hdigit := isDigit_decimal m.toNat c (by rw [hdecimal]; exact List.mem_cons_self)
      have hread := readNumber_decimal m hrest
      have hne : ∀ c', isDigit c' = false → c ≠ c' := by
        intro c' hc' heq
        rw [heq, hc'] at hdigit
        exact absurd hdigit Bool.false_ne_true
      -- a numeral begins with none of the other characters
      rw [hdecimal, List.cons_append] at hread
      rw [text, hdecimal, List.cons_append, readValue, if_neg (hne _ (by decide)),
        if_neg (hne _ (by decide)), if_neg (hne _ (by decide)), if_neg (hne _ (by decide)),
        if_neg (hne _ (by decide)), if_neg (hne _ (by decide)), hread]
  | string s, n + 1, rest, _, _, _ => by
      rw [text, quoted, List.cons_append, List.append_assoc, readValue, if_pos rfl]
      rw [List.singleton_append, readString_quoted]
      rfl
  | array [], n + 1, rest, _, _, _ => by
      rw [text]
      rfl
  | array (j :: js), n + 1, rest, hj, hn, _ => by
      rw [text, List.length_cons, List.length_append] at hn
      have hvalue := readValue_text j n (elementsText js ++ rest) hj.1 (by omega)
        (endsNumber_elements js rest)
      have helements := readElements_text js n rest hj.2 (by omega)
      obtain ⟨c, t, htext, hc⟩ := text_cons j
      -- a value does not begin like the end of the array
      have hafter : after 0x5D (j.text ++ (elementsText js ++ rest)) = none := by
        rw [htext, List.cons_append, after_ne hc]
      rw [text, List.cons_append, List.append_assoc, readValue, if_neg (by decide), if_pos rfl,
        hafter]
      simp only [hvalue, helements, Option.bind_eq_bind, Option.bind_some]
      rfl
  | object [], n + 1, rest, _, _, _ => by
      rw [text]
      rfl
  | object ((key, j) :: members), n + 1, rest, hj, hn, _ => by
      obtain ⟨hsorted, hmember, hmembers⟩ := hj
      rw [text, List.length_cons, List.length_append, List.length_cons, List.length_append] at hn
      have hvalue := readValue_text j n (membersText members ++ rest) hmember
        (by omega) (endsNumber_members members rest)
      have hmembers := readMembers_text members n rest hmembers (by omega)
      rw [text, quoted]
      simp only [List.cons_append, List.append_assoc, List.nil_append]
      rw [readValue, if_neg (by decide), if_neg (by decide), if_pos rfl, after_ne (by decide)]
      simp only [after_cons, readString_quoted, hvalue, hmembers, Option.bind_eq_bind,
        Option.bind_some]
      rw [ofFields_sorted hsorted]
      rfl

/-- Elements are read off what follows one. -/
theorem readElements_text : ∀ (js : List Json) (n : Nat) (rest : List UInt8),
    ElementsWellFormed js → (elementsText js).length ≤ n →
      readElements n (elementsText js ++ rest) = some (js, rest)
  | [], n + 1, rest, _, _ => by
      rw [elementsText, List.singleton_append, readElements, after_cons]
  | j :: js, n + 1, rest, hj, hn => by
      rw [elementsText, List.length_cons, List.length_append] at hn
      have hvalue := readValue_text j n (elementsText js ++ rest) hj.1 (by omega)
        (endsNumber_elements js rest)
      have helements := readElements_text js n rest hj.2 (by omega)
      rw [elementsText, List.cons_append, List.append_assoc, readElements, after_ne (by decide)]
      simp only [after_cons, hvalue, helements, Option.bind_eq_bind, Option.bind_some]
      rfl

/-- Members are read off what follows one. -/
theorem readMembers_text : ∀ (members : List (List UInt8 × Json)) (n : Nat) (rest : List UInt8),
    MembersWellFormed members → (membersText members).length ≤ n →
      readMembers n (membersText members ++ rest) = some (members, rest)
  | [], n + 1, rest, _, _ => by
      rw [membersText, List.singleton_append, readMembers, after_cons]
  | (key, j) :: members, n + 1, rest, hj, hn => by
      rw [membersText, List.length_cons, List.length_append, List.length_cons,
        List.length_append] at hn
      have hvalue := readValue_text j n (membersText members ++ rest) hj.1
        (by omega) (endsNumber_members members rest)
      have hmembers := readMembers_text members n rest hj.2 (by omega)
      rw [membersText, quoted]
      simp only [List.cons_append, List.append_assoc, List.nil_append]
      rw [readMembers, after_ne (by decide)]
      simp only [after_cons, readString_quoted, hvalue, hmembers, Option.bind_eq_bind,
        Option.bind_some]
      rfl

end

/-- **A value is read back from its text.** -/
theorem parse_text {j : Json} (h : j.WellFormed) : parse j.text = some j := by
  have hread := readValue_text j _ [] h (Nat.le_refl _)
    (fun c hc => absurd hc (Option.not_mem_none c))
  rw [List.append_nil] at hread
  rw [parse, hread]

/-! ## Strings -/

mutual

/-- The strings of a value, its keys among them. -/
def strings : Json → List (List UInt8)
  | null | bool _ | number _ => []
  | string s => [s]
  | array js => elementsStrings js
  | object members => membersStrings members

def elementsStrings : List Json → List (List UInt8)
  | [] => []
  | j :: js => j.strings ++ elementsStrings js

def membersStrings : List (List UInt8 × Json) → List (List UInt8)
  | [] => []
  | (key, j) :: members => key :: (j.strings ++ membersStrings members)

end

/-- A property of bytes that writing does not destroy. -/
structure KeptByWriting (P : List UInt8 → Prop) : Prop where
  nil : P []
  append {s t : List UInt8} : P s → P t → P (s ++ t)
  ascii {c : UInt8} : c < 0x80 → P [c]
  escape {s : List UInt8} : P s → P (s.flatMap escape)

section

variable {P : List UInt8 → Prop} (hkept : KeptByWriting P)

include hkept

theorem KeptByWriting.cons {c : UInt8} (hc : c < 0x80) {s : List UInt8} (h : P s) : P (c :: s) :=
  hkept.append (hkept.ascii hc) h

theorem KeptByWriting.of_ascii {s : List UInt8} (h : s.all (· < 0x80) = true) : P s := by
  induction s with
  | nil => exact hkept.nil
  | cons c s ih =>
      rw [List.all_cons, Bool.and_eq_true, decide_eq_true_iff] at h
      exact hkept.cons h.1 (ih h.2)

theorem KeptByWriting.quoted {s : List UInt8} (h : P s) : P (quoted s) :=
  hkept.cons (by decide) (hkept.append (hkept.escape h) (hkept.ascii (by decide)))

mutual

/-- What holds of the strings holds of the text. -/
theorem text_of_strings : ∀ (j : Json), (∀ s ∈ j.strings, P s) → P j.text
  | null, _ => hkept.of_ascii rfl
  | bool true, _ => hkept.of_ascii rfl
  | bool false, _ => hkept.of_ascii rfl
  | number n, _ => by
      rw [text]
      refine hkept.of_ascii (List.all_eq_true.mpr fun c hc => decide_eq_true_iff.mpr ?_)
      have hdigit := isDigit_decimal n.toNat c hc
      rw [isDigit, Bool.and_eq_true, decide_eq_true_iff, decide_eq_true_iff] at hdigit
      exact Std.lt_of_le_of_lt hdigit.2 (by decide)
  | string s, h => by
      rw [text]
      exact hkept.quoted (h s List.mem_cons_self)
  | array [], _ => hkept.of_ascii rfl
  | array (j :: js), h => by
      rw [text]
      refine hkept.cons (by decide) (hkept.append ?_ ?_)
      · exact text_of_strings j fun s hs => h s (List.mem_append_left _ hs)
      · exact elementsText_of_strings js fun s hs => h s (List.mem_append_right _ hs)
  | object [], _ => hkept.of_ascii rfl
  | object ((key, j) :: members), h => by
      rw [text]
      refine hkept.cons (by decide) (hkept.append (hkept.quoted (h key List.mem_cons_self))
        (hkept.cons (by decide) (hkept.append ?_ ?_)))
      · exact text_of_strings j fun s hs =>
          h s (List.mem_cons_of_mem _ (List.mem_append_left _ hs))
      · exact membersText_of_strings members fun s hs =>
          h s (List.mem_cons_of_mem _ (List.mem_append_right _ hs))

theorem elementsText_of_strings : ∀ (js : List Json), (∀ s ∈ elementsStrings js, P s) →
    P (elementsText js)
  | [], _ => hkept.of_ascii rfl
  | j :: js, h => by
      rw [elementsText]
      refine hkept.cons (by decide) (hkept.append ?_ ?_)
      · exact text_of_strings j fun s hs => h s (List.mem_append_left _ hs)
      · exact elementsText_of_strings js fun s hs => h s (List.mem_append_right _ hs)

theorem membersText_of_strings : ∀ (members : List (List UInt8 × Json)),
    (∀ s ∈ membersStrings members, P s) → P (membersText members)
  | [], _ => hkept.of_ascii rfl
  | (key, j) :: members, h => by
      rw [membersText]
      refine hkept.cons (by decide) (hkept.append (hkept.quoted (h key List.mem_cons_self))
        (hkept.cons (by decide) (hkept.append ?_ ?_)))
      · exact text_of_strings j fun s hs =>
          h s (List.mem_cons_of_mem _ (List.mem_append_left _ hs))
      · exact membersText_of_strings members fun s hs =>
          h s (List.mem_cons_of_mem _ (List.mem_append_right _ hs))

end

end

/-! ## How long a text is -/

theorem length_escape (b : UInt8) : 1 ≤ (escape b).length := by
  unfold escape
  repeat' split
  all_goals exact Nat.succ_le_succ (Nat.zero_le _)

/-- At least as long as the string with its quotes. -/
theorem length_quoted (s : List UInt8) : s.length + 2 ≤ (quoted s).length := by
  have hescapes : s.length ≤ (s.flatMap escape).length := by
    induction s with
    | nil => exact Nat.zero_le _
    | cons b s ih =>
        have hb := length_escape b
        rw [List.flatMap_cons, List.length_append, List.length_cons]
        omega
  rw [quoted, List.length_cons, List.length_append, List.length_singleton]
  omega

theorem length_text (j : Json) : 1 ≤ j.text.length := by
  obtain ⟨c, t, htext, -⟩ := text_cons j
  rw [htext]
  exact Nat.succ_le_succ (Nat.zero_le _)

/-- At least as long as its elements, with its brackets. -/
theorem length_array {k : Nat} {js : List Json} (h : ∀ j ∈ js, k ≤ j.text.length) :
    k * js.length + 2 ≤ (array js).text.length := by
  have helements : ∀ {js : List Json}, (∀ j ∈ js, k ≤ j.text.length) →
      k * js.length + 1 ≤ (elementsText js).length := by
    intro js
    induction js with
    | nil => exact fun _ => Nat.le_refl 1
    | cons j js ih =>
        intro h
        have hj := h j List.mem_cons_self
        have hjs := ih fun j' hj' => h j' (List.mem_cons_of_mem _ hj')
        simp only [elementsText, List.length_cons, List.length_append, Nat.mul_succ]
        omega
  cases js with
  | nil => exact Nat.le_refl 2
  | cons j js =>
      have hj := h j List.mem_cons_self
      have hjs := helements fun j' hj' => h j' (List.mem_cons_of_mem _ hj')
      simp only [text, List.length_cons, List.length_append, Nat.mul_succ]
      omega

/-! ## Values that can be written -/

theorem elementsWellFormed_of {js : List Json} (h : ∀ j ∈ js, j.WellFormed) :
    ElementsWellFormed js := by
  induction js with
  | nil => trivial
  | cons j js ih =>
      exact ⟨h j List.mem_cons_self, ih fun j' hj' => h j' (List.mem_cons_of_mem _ hj')⟩

theorem membersWellFormed_of {members : List (List UInt8 × Json)}
    (h : ∀ m ∈ members, m.2.WellFormed) : MembersWellFormed members := by
  induction members with
  | nil => trivial
  | cons m members ih =>
      exact ⟨h m List.mem_cons_self, ih fun m' hm' => h m' (List.mem_cons_of_mem _ hm')⟩

theorem mem_elementsStrings {s : List UInt8} {js : List Json} (h : s ∈ elementsStrings js) :
    ∃ j ∈ js, s ∈ j.strings := by
  induction js with
  | nil => exact absurd h List.not_mem_nil
  | cons j js ih =>
      rcases List.mem_append.mp h with h | h
      · exact ⟨j, List.mem_cons_self, h⟩
      · obtain ⟨j', hj', hs⟩ := ih h
        exact ⟨j', List.mem_cons_of_mem _ hj', hs⟩

theorem mem_membersStrings {s : List UInt8} {members : List (List UInt8 × Json)}
    (h : s ∈ membersStrings members) : ∃ m ∈ members, s = m.1 ∨ s ∈ m.2.strings := by
  induction members with
  | nil => exact absurd h List.not_mem_nil
  | cons m members ih =>
      rcases List.mem_cons.mp h with h | h
      · exact ⟨m, List.mem_cons_self, Or.inl h⟩
      · rcases List.mem_append.mp h with h | h
        · exact ⟨m, List.mem_cons_self, Or.inr h⟩
        · obtain ⟨m', hm', hs⟩ := ih h
          exact ⟨m', List.mem_cons_of_mem _ hm', hs⟩

/-- A value in order, in strings of one kind. -/
structure Writable (P : List UInt8 → Prop) (j : Json) : Prop where
  wellFormed : j.WellFormed
  strings : ∀ s ∈ j.strings, P s

section

variable {P : List UInt8 → Prop}

theorem writable_bool (b : Bool) : Writable P (bool b) :=
  ⟨trivial, fun _ hs => absurd hs List.not_mem_nil⟩

theorem writable_number (n : UInt64) : Writable P (number n) :=
  ⟨trivial, fun _ hs => absurd hs List.not_mem_nil⟩

theorem writable_string {s : List UInt8} (h : P s) : Writable P (string s) :=
  ⟨trivial, fun _ hs => List.mem_singleton.mp hs ▸ h⟩

theorem writable_array {js : List Json} (h : ∀ j ∈ js, Writable P j) : Writable P (array js) := by
  refine ⟨elementsWellFormed_of fun j hj => (h j hj).wellFormed, fun s hs => ?_⟩
  obtain ⟨j, hj, hs⟩ := mem_elementsStrings hs
  exact (h j hj).strings s hs

theorem writable_map {α : Type} {f : α → Json} {xs : List α} (h : ∀ x ∈ xs, Writable P (f x)) :
    Writable P (array (xs.map f)) :=
  writable_array (List.forall_mem_map.mpr h)

theorem writable_fields {fields : List (List UInt8 × Json)}
    (h : ∀ field ∈ fields, P field.1 ∧ Writable P field.2) :
    Writable P (object (ofFields fields)) := by
  constructor
  · exact ⟨sorted_ofFields fields,
      membersWellFormed_of fun m hm => (h m (mem_ofFields hm)).2.wellFormed⟩
  · intro s hs
    obtain ⟨m, hm, hs⟩ := mem_membersStrings hs
    obtain ⟨hkey, hvalue⟩ := h m (mem_ofFields hm)
    rcases hs with rfl | hs
    · exact hkey
    · exact hvalue.strings s hs

end

/-! ## Access -/

/-- The value of a key, null where there is none. -/
def index (key : List UInt8) : Json → Option Json
  | null => some null
  | object members => some ((find key members).getD null)
  | _ => none

def contains (key : List UInt8) : Json → Bool
  | object members => (find key members).isSome
  | _ => false

def getString : Json → Option (List UInt8)
  | string s => some s
  | _ => none

def getNumber : Json → Option UInt64
  | number n => some n
  | _ => none

def getBool : Json → Option Bool
  | bool b => some b
  | _ => none

def getArray : Json → Option (List Json)
  | array js => some js
  | _ => none

/-- What a loop over a value visits. -/
def values : Json → List Json
  | null => []
  | array js => js
  | object members => members.map Prod.snd
  | j => [j]

theorem index_fields {key : List UInt8} {j : Json} {fields : List (List UInt8 × Json)}
    (hnodup : (fields.map Prod.fst).Nodup) (h : (key, j) ∈ fields) :
    (object (ofFields fields)).index key = some j := by
  rw [index, find_ofFields hnodup h, Option.getD_some]

theorem contains_fields {key : List UInt8} {j : Json} {fields : List (List UInt8 × Json)}
    (hnodup : (fields.map Prod.fst).Nodup) (h : (key, j) ∈ fields) :
    (object (ofFields fields)).contains key = true := by
  rw [contains, find_ofFields hnodup h, Option.isSome_some]

theorem not_contains_fields {key : List UInt8} {fields : List (List UInt8 × Json)}
    (h : key ∉ fields.map Prod.fst) : (object (ofFields fields)).contains key = false := by
  rw [contains, find_ofFields_none h, Option.isSome_none]

end Json

end Lib
