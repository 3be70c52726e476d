import Mathlib.Data.List.Induction
import Mathlib.Data.Nat.Bitwise

/-!
# Sixty-four-bit words as bytes

A word is written as eight bytes and put together again by shifting in a byte at
a time from the highest on. `shift_in` is the one step of that: what has been
put together so far is the word without its lower bytes.

`Endian` says in which order a machine keeps the bytes of a word in memory.
-/

namespace Lib

/-- The order of a word's bytes in memory. -/
inductive Endian where
  | little
  | big
  deriving DecidableEq

namespace Word

/-- The bytes of a word, the highest first. -/
def toBytes (n : UInt64) : List UInt8 :=
  [56, 48, 40, 32, 24, 16, 8, 0].map fun i : UInt64 => (n >>> i).toUInt8

/-- Shift in byte after byte. -/
def ofBytes (bs : List UInt8) : UInt64 :=
  bs.foldl (fun n b => (n <<< 8) ||| b.toUInt64) 0

theorem toNat_shift_in (n : UInt64) (b : UInt8) (h : n.toNat < 2 ^ 56) :
    ((n <<< 8) ||| b.toUInt64).toNat = n.toNat * 2 ^ 8 + b.toNat := by
  have hshift : (n <<< 8).toNat = n.toNat <<< 8 := by
    rw [UInt64.toNat_shiftLeft]
    show n.toNat <<< 8 % 2 ^ 64 = n.toNat <<< 8
    rw [Nat.shiftLeft_eq]
    omega
  rw [UInt64.toNat_or, hshift, UInt8.toNat_toUInt64, ← Nat.shiftLeft_add_eq_or_of_lt b.toNat_lt,
    Nat.shiftLeft_eq]

theorem toNat_shiftRight (n i : UInt64) (hi : i.toNat < 64) :
    (n >>> i).toNat = n.toNat / 2 ^ i.toNat := by
  rw [UInt64.toNat_shiftRight, Nat.mod_eq_of_lt hi, Nat.shiftRight_eq_div_pow]

/-- Shifting in the byte at `i` behind the bytes above it. -/
theorem shift_in (n : UInt64) {i j : UInt64} (hj : j.toNat = i.toNat + 8) (hlt : j.toNat < 64) :
    ((n >>> j) <<< 8) ||| (n >>> i).toUInt8.toUInt64 = n >>> i := by
  have hn : n.toNat < 2 ^ 64 := n.toNat_lt
  have hhigh : (n >>> j).toNat = n.toNat / 2 ^ i.toNat / 2 ^ 8 := by
    rw [toNat_shiftRight n j hlt, hj, Nat.pow_add, Nat.div_div_eq_div_mul]
  have hbound : n.toNat / 2 ^ i.toNat < 2 ^ 64 :=
    Nat.lt_of_le_of_lt (Nat.div_le_self _ _) hn
  apply UInt64.toNat_inj.mp
  rw [toNat_shift_in _ _ (by rw [hhigh]; omega), hhigh, UInt64.toNat_toUInt8,
    toNat_shiftRight n i (by omega)]
  omega

/-- The highest byte is all there is above the fifty-sixth bit. -/
theorem shift_in_first (n : UInt64) :
    ((0 : UInt64) <<< 8) ||| (n >>> 56).toUInt8.toUInt64 = n >>> 56 := by
  have hn : n.toNat < 2 ^ 64 := n.toNat_lt
  apply UInt64.toNat_inj.mp
  rw [toNat_shift_in 0 _ (by decide), UInt64.toNat_toUInt8, toNat_shiftRight n 56 (by decide)]
  show 0 * 2 ^ 8 + n.toNat / 2 ^ 56 % 2 ^ 8 = n.toNat / 2 ^ 56
  omega

/-- A word comes back from its bytes. -/
theorem ofBytes_toBytes (n : UInt64) : ofBytes (toBytes n) = n := by
  unfold ofBytes toBytes
  simp only [List.map_cons, List.map_nil, List.foldl_cons, List.foldl_nil]
  rw [shift_in_first, shift_in n (j := 56) rfl (by decide), shift_in n (j := 48) rfl (by decide),
    shift_in n (j := 40) rfl (by decide), shift_in n (j := 32) rfl (by decide),
    shift_in n (j := 24) rfl (by decide), shift_in n (j := 16) rfl (by decide),
    shift_in n (j := 8) rfl (by decide)]
  exact UInt64.shiftRight_zero

theorem length_toBytes (n : UInt64) : (toBytes n).length = 8 := rfl

/-- What has been shifted in before a byte is the word above it. -/
theorem shift_out (n : UInt64) (b : UInt8) {i j : UInt64} (h : n.toNat < 2 ^ 56)
    (hj : j.toNat = i.toNat + 8) (hlt : j.toNat < 64) :
    ((n <<< 8) ||| b.toUInt64) >>> j = n >>> i := by
  have hb := b.toNat_lt
  apply UInt64.toNat_inj.mp
  rw [toNat_shiftRight _ _ hlt, toNat_shiftRight _ _ (by omega), toNat_shift_in n b h, hj,
    Nat.add_comm i.toNat, Nat.pow_add, ← Nat.div_div_eq_div_mul]
  congr 1
  omega

/-- The byte shifted in last is the lowest. -/
theorem toUInt8_shift_in (n : UInt64) (b : UInt8) (h : n.toNat < 2 ^ 56) :
    ((n <<< 8) ||| b.toUInt64).toUInt8 = b := by
  have hb := b.toNat_lt
  apply UInt8.toNat_inj.mp
  rw [UInt64.toNat_toUInt8, toNat_shift_in n b h]
  omega

theorem ofBytes_append (bs : List UInt8) (b : UInt8) :
    ofBytes (bs ++ [b]) = (ofBytes bs <<< 8) ||| b.toUInt64 := by
  rw [ofBytes, List.foldl_append]
  rfl

theorem toNat_ofBytes_lt (bs : List UInt8) (h : bs.length ≤ 8) :
    (ofBytes bs).toNat < 2 ^ (8 * bs.length) := by
  induction bs using List.reverseRecOn with
  | nil => decide
  | append_singleton bs b ih =>
      have hb := b.toNat_lt
      rw [List.length_append, List.length_singleton] at h ⊢
      have hbs := ih (by omega)
      have h56 : (ofBytes bs).toNat < 2 ^ 56 :=
        Nat.lt_of_lt_of_le hbs (Nat.pow_le_pow_right (by decide) (by omega))
      rw [ofBytes_append, toNat_shift_in _ b h56, Nat.mul_succ, Nat.pow_add]
      omega

/-- Each byte is found as many places up as there are bytes behind it. -/
theorem toUInt8_ofBytes (before : List UInt8) (b : UInt8) (after : List UInt8) (i : UInt64)
    (h : before.length + after.length ≤ 7) (hi : i.toNat = 8 * after.length) :
    (ofBytes (before ++ b :: after) >>> i).toUInt8 = b := by
  have h56 : ∀ bs : List UInt8, bs.length < 8 → (ofBytes bs).toNat < 2 ^ 56 := by
    intro bs hbs
    exact Nat.lt_of_lt_of_le (toNat_ofBytes_lt bs (by omega))
      (Nat.pow_le_pow_right (by decide) (by omega))
  induction after using List.reverseRecOn generalizing i with
  | nil =>
      obtain rfl : i = 0 := UInt64.toNat_inj.mp hi
      rw [UInt64.shiftRight_zero, ofBytes_append]
      exact toUInt8_shift_in _ b (h56 before (Nat.lt_succ_of_le h))
  | append_singleton after c ih =>
      rw [List.length_append, List.length_singleton] at h hi
      have hlower : (i - 8).toNat = 8 * after.length := by
        have h8 : (8 : UInt64) ≤ i := UInt64.le_iff_toNat_le.mpr (by show 8 ≤ i.toNat; omega)
        rw [UInt64.toNat_sub_of_le i 8 h8]
        show i.toNat - 8 = 8 * after.length
        omega
      rw [← List.cons_append, ← List.append_assoc, ofBytes_append,
        shift_out _ c (h56 _ (by rw [List.length_append, List.length_cons]; omega)) (i := i - 8)
          (by omega) (by omega)]
      exact ih (i - 8) (by omega) hlower

/-- Eight bytes come back from the word they are shifted into. -/
theorem toBytes_ofBytes {bs : List UInt8} (h : bs.length = 8) : toBytes (ofBytes bs) = bs := by
  match bs, h with
  | [b₀, b₁, b₂, b₃, b₄, b₅, b₆, b₇], _ =>
      have h₀ := toUInt8_ofBytes [] b₀ [b₁, b₂, b₃, b₄, b₅, b₆, b₇] 56 (Nat.le_refl 7) rfl
      have h₁ := toUInt8_ofBytes [b₀] b₁ [b₂, b₃, b₄, b₅, b₆, b₇] 48 (Nat.le_refl 7) rfl
      have h₂ := toUInt8_ofBytes [b₀, b₁] b₂ [b₃, b₄, b₅, b₆, b₇] 40 (Nat.le_refl 7) rfl
      have h₃ := toUInt8_ofBytes [b₀, b₁, b₂] b₃ [b₄, b₅, b₆, b₇] 32 (Nat.le_refl 7) rfl
      have h₄ := toUInt8_ofBytes [b₀, b₁, b₂, b₃] b₄ [b₅, b₆, b₇] 24 (Nat.le_refl 7) rfl
      have h₅ := toUInt8_ofBytes [b₀, b₁, b₂, b₃, b₄] b₅ [b₆, b₇] 16 (Nat.le_refl 7) rfl
      have h₆ := toUInt8_ofBytes [b₀, b₁, b₂, b₃, b₄, b₅] b₆ [b₇] 8 (Nat.le_refl 7) rfl
      have h₇ := toUInt8_ofBytes [b₀, b₁, b₂, b₃, b₄, b₅, b₆] b₇ [] 0 (Nat.le_refl 7) rfl
      simp only [List.cons_append, List.nil_append] at h₀ h₁ h₂ h₃ h₄ h₅ h₆ h₇
      rw [toBytes]
      simp only [List.map_cons, List.map_nil, h₀, h₁, h₂, h₃, h₄, h₅, h₆, h₇]

/-- The word of the same bytes in the other order. -/
def swap (n : UInt64) : UInt64 := ofBytes (toBytes n).reverse

theorem toBytes_swap (n : UInt64) : toBytes (swap n) = (toBytes n).reverse :=
  toBytes_ofBytes (by rw [List.length_reverse, length_toBytes])

/-- A word is its own swap where its bytes are a palindrome. -/
theorem swap_eq_self_iff (n : UInt64) : swap n = n ↔ (toBytes n).reverse = toBytes n := by
  rw [← toBytes_swap]
  refine ⟨congrArg toBytes, fun h => ?_⟩
  rw [← ofBytes_toBytes (swap n), h, ofBytes_toBytes]

end Word

namespace Endian

/-- The bytes of a word from its lowest address on. -/
def bytes : Endian → UInt64 → List UInt8
  | .little, n => (Word.toBytes n).reverse
  | .big, n => Word.toBytes n

/-- The word that bytes in memory stand for. -/
def word : Endian → List UInt8 → UInt64
  | .little, bs => Word.ofBytes bs.reverse
  | .big, bs => Word.ofBytes bs

theorem length_bytes (e : Endian) (n : UInt64) : (e.bytes n).length = 8 := by
  cases e <;> rfl

/-- Memory is read as it was written, on machines of one byte order. -/
theorem word_bytes (e : Endian) (n : UInt64) : e.word (e.bytes n) = n := by
  cases e with
  | little =>
      rw [bytes, word, List.reverse_reverse]
      exact Word.ofBytes_toBytes n
  | big => exact Word.ofBytes_toBytes n

/-- Between machines of different byte order, a word is swapped. -/
theorem word_bytes_of_ne {e e' : Endian} (h : e ≠ e') (n : UInt64) :
    e'.word (e.bytes n) = Word.swap n := by
  cases e with
  | little =>
      cases e' with
      | little => exact absurd rfl h
      | big => rfl
  | big =>
      cases e' with
      | little => rfl
      | big => exact absurd rfl h

/-- Eight bytes are what the word they stand for is written as. -/
theorem bytes_word (e : Endian) {bs : List UInt8} (h : bs.length = 8) :
    e.bytes (e.word bs) = bs := by
  cases e with
  | little =>
      rw [bytes, word, Word.toBytes_ofBytes (by rw [List.length_reverse, h]), List.reverse_reverse]
  | big => exact Word.toBytes_ofBytes h

end Endian

end Lib
