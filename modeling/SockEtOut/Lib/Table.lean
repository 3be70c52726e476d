import Mathlib.Data.List.AList
import Mathlib.Logic.Function.Iterate

/-!
# Keyed tables

A finite map from keys to values, holding one entry for each key. It is Mathlib's
association list under the operations of a hash map that owns its values:
`emplace` keeps what is already there, `erase` forgets a key and `modify` updates
a value in place.

Everything above this file reads a table through `lookup`; the `lookup_*`
lemmas are the whole interface, so how the entries are laid out never matters.
The one exception is `findKey?`, a scan that returns *some* key passing a test,
whose two lemmas promise nothing about which.
-/

namespace Lib

universe u v

/-- A finite map from `κ` to `ν`. -/
structure Table (κ : Type u) (ν : Type v) where
  /-- The entries, with no key twice. -/
  toAList : AList (fun _ : κ => ν)

namespace Table

variable {κ : Type u} {ν : Type v}

/-- The table with no entries. -/
def empty : Table κ ν := ⟨∅⟩

/-- Every key of the table, once each. -/
def keys (t : Table κ ν) : List κ := t.toAList.keys

/-- Every value of the table, in the order of `keys`. -/
def values (t : Table κ ν) : List ν := t.toAList.entries.map Sigma.snd

/-- A key whose entry passes `p`: the first one met in a scan of the entries. -/
def findKey? (t : Table κ ν) (p : κ → ν → Bool) : Option κ :=
  (t.toAList.entries.find? fun e => p e.1 e.2).map Sigma.fst

/-- Every key whose entry passes `p`, in scan order. -/
def filterKeys (t : Table κ ν) (p : κ → ν → Bool) : List κ :=
  (t.toAList.entries.filter fun e => p e.1 e.2).map Sigma.fst

variable [DecidableEq κ]

/-- The value stored under `k`. -/
def lookup (t : Table κ ν) (k : κ) : Option ν := t.toAList.lookup k

/-- Store `v` under `k` unless the key is taken. -/
def emplace (t : Table κ ν) (k : κ) (v : ν) : Table κ ν :=
  match t.lookup k with
  | some _ => t
  | none => ⟨t.toAList.insert k v⟩

/-- Store `v` under `k`, in place of what was there. -/
def assign (t : Table κ ν) (k : κ) (v : ν) : Table κ ν := ⟨t.toAList.insert k v⟩

/-- Forget `k`. -/
def erase (t : Table κ ν) (k : κ) : Table κ ν := ⟨t.toAList.erase k⟩

/-- Update the value under `k`, if there is one. -/
def modify (t : Table κ ν) (k : κ) (f : ν → ν) : Table κ ν :=
  match t.lookup k with
  | some v => t.assign k (f v)
  | none => t

/-! ## Reading a table back -/

@[simp] theorem lookup_empty (k : κ) : (empty : Table κ ν).lookup k = none :=
  AList.lookup_empty k

theorem lookup_assign (t : Table κ ν) (k k' : κ) (v : ν) :
    (t.assign k v).lookup k' = if k' = k then some v else t.lookup k' := by
  unfold assign lookup
  split
  · rename_i h
    subst h
    exact AList.lookup_insert _
  · rename_i h
    exact AList.lookup_insert_ne h

/-- Emplacing under a free key stores the value there and changes nothing else. -/
theorem lookup_emplace {t : Table κ ν} {k : κ} (h : t.lookup k = none) (k' : κ) (v : ν) :
    (t.emplace k v).lookup k' = if k' = k then some v else t.lookup k' := by
  unfold emplace
  rw [h]
  exact lookup_assign t k k' v

/-- Emplacing under a taken key changes nothing at all. -/
theorem emplace_of_some {t : Table κ ν} {k : κ} {w : ν} (h : t.lookup k = some w) (v : ν) :
    t.emplace k v = t := by
  unfold emplace
  rw [h]

theorem lookup_erase (t : Table κ ν) (k k' : κ) :
    (t.erase k).lookup k' = if k' = k then none else t.lookup k' := by
  unfold erase lookup
  split
  · rename_i h
    subst h
    exact AList.lookup_erase _ _
  · rename_i h
    exact AList.lookup_erase_ne h

theorem lookup_modify (t : Table κ ν) (k k' : κ) (f : ν → ν) :
    (t.modify k f).lookup k' = if k' = k then (t.lookup k).map f else t.lookup k' := by
  unfold modify
  cases h : t.lookup k with
  | none =>
      dsimp only
      split
      · rename_i hk
        rw [hk, h]
        rfl
      · rfl
  | some v => exact lookup_assign t k k' (f v)

/-- What is found after an erasure was there before it, under another key. -/
theorem lookup_of_erase {t : Table κ ν} {k k' : κ} {w : ν} (h : (t.erase k).lookup k' = some w) :
    k' ≠ k ∧ t.lookup k' = some w := by
  rw [lookup_erase] at h
  split at h
  · exact absurd h (by simp)
  · rename_i hk
    exact ⟨hk, h⟩

/-- What is found after an emplacement was there before it, or is what was emplaced. -/
theorem lookup_of_emplace {t : Table κ ν} {k k' : κ} {v w : ν}
    (h : (t.emplace k v).lookup k' = some w) : t.lookup k' = some w ∨ k' = k ∧ w = v := by
  cases hk : t.lookup k with
  | some old =>
      rw [emplace_of_some hk] at h
      exact Or.inl h
  | none =>
      rw [lookup_emplace hk] at h
      split at h
      · rename_i heq
        exact Or.inr ⟨heq, (Option.some.inj h).symm⟩
      · exact Or.inl h

/-- An emplacement takes nothing away. -/
theorem lookup_emplace_of_some {t : Table κ ν} {k' : κ} {w : ν} (h : t.lookup k' = some w)
    (k : κ) (v : ν) : (t.emplace k v).lookup k' = some w := by
  cases hk : t.lookup k with
  | some old =>
      rw [emplace_of_some hk]
      exact h
  | none =>
      -- the key that was found is not the free one
      have hne : k' ≠ k := by
        rintro rfl
        rw [hk] at h
        exact absurd h (by simp)
      rw [lookup_emplace hk, if_neg hne]
      exact h

/-- Where a value comes from that is found after an update. -/
theorem lookup_of_modify {t : Table κ ν} {k k' : κ} {f : ν → ν} {w : ν}
    (h : (t.modify k f).lookup k' = some w) :
    ∃ v, t.lookup k' = some v ∧ (k' = k → w = f v) ∧ (k' ≠ k → w = v) := by
  rw [lookup_modify] at h
  split at h
  · rename_i hk
    subst hk
    obtain ⟨v, hv, rfl⟩ := Option.map_eq_some_iff.mp h
    exact ⟨v, hv, fun _ => rfl, fun hne => absurd rfl hne⟩
  · rename_i hk
    exact ⟨w, h, fun heq => absurd heq hk, fun _ => rfl⟩

/-- What holds of all that is found, and of a value after an update as before it, holds still. -/
theorem holds_modify {t : Table κ ν} {k : κ} {f : ν → ν} {P : κ → ν → Prop}
    (h : ∀ k v, t.lookup k = some v → P k v) {k' : κ} {w : ν}
    (hw : (t.modify k f).lookup k' = some w) (hf : ∀ k v, P k v → P k (f v)) : P k' w := by
  obtain ⟨v, hv, hsame, hother⟩ := lookup_of_modify hw
  by_cases heq : k' = k
  · rw [hsame heq]
    exact hf k' v (h k' v hv)
  · rw [hother heq]
    exact h k' v hv

/-- An update that leaves `g` of every value alone is invisible through `g`. -/
theorem map_lookup_modify {γ : Type*} (t : Table κ ν) (k k' : κ) {f : ν → ν} {g : ν → γ}
    (h : ∀ v, g (f v) = g v) :
    ((t.modify k f).lookup k').map g = (t.lookup k').map g := by
  rw [lookup_modify]
  split
  · rename_i hk
    subst hk
    cases t.lookup k' with
    | none => rfl
    | some v => exact congrArg some (h v)
  · rfl

/-- An update takes no entry away and adds none. -/
theorem isSome_lookup_modify (t : Table κ ν) (k k' : κ) (f : ν → ν) :
    ((t.modify k f).lookup k').isSome = (t.lookup k').isSome := by
  rw [lookup_modify]
  split
  · rename_i hk
    rw [hk, Option.isSome_map]
  · rfl

/-- Updating along a list of keys: a key listed `n` times is updated `n` times. -/
theorem lookup_foldl_modify (f : ν → ν) (ks : List κ) (t : Table κ ν) (k : κ) :
    (ks.foldl (fun t k' => t.modify k' f) t).lookup k = (t.lookup k).map f^[ks.count k] := by
  induction ks generalizing t with
  | nil => simp
  | cons a ks ih =>
      rw [List.foldl_cons, ih, lookup_modify]
      by_cases h : k = a
      · subst h
        rw [if_pos rfl, List.count_cons_self, Option.map_map, ← Function.iterate_succ]
      · rw [if_neg h, List.count_cons_of_ne (Ne.symm h)]

/-! ## Scans -/

theorem mem_keys_iff {t : Table κ ν} {k : κ} : k ∈ t.keys ↔ ∃ v, t.lookup k = some v := by
  unfold keys lookup
  rw [← AList.mem_keys, ← AList.lookup_isSome, Option.isSome_iff_exists]

/-- An emplacement adds its key, if it was not there. -/
theorem mem_keys_emplace {t : Table κ ν} {k k' : κ} {v : ν} :
    k' ∈ (t.emplace k v).keys ↔ k' = k ∨ k' ∈ t.keys := by
  cases hk : t.lookup k with
  | some w =>
      rw [emplace_of_some hk]
      refine ⟨Or.inr, ?_⟩
      rintro (rfl | hin)
      · exact mem_keys_iff.mpr ⟨w, hk⟩
      · exact hin
  | none =>
      rw [mem_keys_iff, mem_keys_iff, lookup_emplace hk]
      by_cases h : k' = k
      · simp [h]
      · simp [h]

theorem mem_keys_erase {t : Table κ ν} {k k' : κ} :
    k' ∈ (t.erase k).keys ↔ k' ≠ k ∧ k' ∈ t.keys := by
  rw [mem_keys_iff, mem_keys_iff, lookup_erase]
  by_cases h : k' = k
  · simp [h]
  · simp [h]

/-- An update changes no key. -/
theorem mem_keys_modify {t : Table κ ν} {k k' : κ} {f : ν → ν} :
    k' ∈ (t.modify k f).keys ↔ k' ∈ t.keys := by
  rw [mem_keys_iff, mem_keys_iff, lookup_modify]
  by_cases h : k' = k
  · simp [h]
  · simp [h]

theorem mem_keys_foldl_modify {f : ν → ν} {ks : List κ} {t : Table κ ν} {k : κ} :
    k ∈ (ks.foldl (fun t k' => t.modify k' f) t).keys ↔ k ∈ t.keys := by
  rw [mem_keys_iff, mem_keys_iff, lookup_foldl_modify]
  simp

theorem mem_values_iff {t : Table κ ν} {v : ν} : v ∈ t.values ↔ ∃ k, t.lookup k = some v := by
  unfold values lookup
  rw [List.mem_map]
  constructor
  · rintro ⟨⟨k, w⟩, he, rfl⟩
    exact ⟨k, AList.mem_lookup_iff.mpr he⟩
  · rintro ⟨k, hk⟩
    exact ⟨⟨k, v⟩, AList.mem_lookup_iff.mp hk, rfl⟩

/-- What a scan returns is stored and passes the test. -/
theorem findKey?_some {t : Table κ ν} {p : κ → ν → Bool} {k : κ} (h : t.findKey? p = some k) :
    ∃ v, t.lookup k = some v ∧ p k v = true := by
  unfold findKey? at h
  rw [Option.map_eq_some_iff] at h
  obtain ⟨e, hf, rfl⟩ := h
  have hp : p e.1 e.2 = true := by simpa using List.find?_some hf
  exact ⟨e.2, AList.mem_lookup_iff.mpr (List.mem_of_find?_eq_some hf), hp⟩

/-- A scan comes back empty only when nothing stored passes the test. -/
theorem findKey?_none {t : Table κ ν} {p : κ → ν → Bool} (h : t.findKey? p = none)
    {k : κ} {v : ν} (hk : t.lookup k = some v) : p k v = false := by
  unfold findKey? at h
  rw [Option.map_eq_none_iff, List.find?_eq_none] at h
  have := h ⟨k, v⟩ (AList.mem_lookup_iff.mp hk)
  simpa using this

theorem mem_filterKeys_iff {t : Table κ ν} {p : κ → ν → Bool} {k : κ} :
    k ∈ t.filterKeys p ↔ ∃ v, t.lookup k = some v ∧ p k v = true := by
  unfold filterKeys
  rw [List.mem_map]
  constructor
  · rintro ⟨e, he, rfl⟩
    obtain ⟨hmem, hp⟩ := List.mem_filter.mp he
    exact ⟨e.2, AList.mem_lookup_iff.mpr hmem, hp⟩
  · rintro ⟨v, hk, hp⟩
    exact ⟨⟨k, v⟩, List.mem_filter.mpr ⟨AList.mem_lookup_iff.mp hk, hp⟩, rfl⟩

omit [DecidableEq κ] in
/-- A scan meets each key once. -/
theorem nodup_filterKeys (t : Table κ ν) (p : κ → ν → Bool) : (t.filterKeys p).Nodup :=
  (List.filter_sublist.map Sigma.fst).nodup t.toAList.keys_nodup

end Table

end Lib
