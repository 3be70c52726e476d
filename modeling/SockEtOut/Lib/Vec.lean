import Mathlib.Data.List.Basic

/-!
# A growable vector and its storage

A vector is a block of cells of which the first `size` are its elements. Erasing
elements moves the survivors down and lowers `size`; the cells past the new end
keep whatever they last held. That is invisible to anyone who asks the vector
for its elements, and visible to a loop that fixed its end before the erase.

`eraseIf` is the erase–remove idiom. Its predicate is handed the storage *as it
stands* at each test, so it covers a predicate that compares with a fixed value
and one that compares with a reference into the very vector being compacted. The
two cases differ: the first is a `filter`, the second is not, because the cell
referred to can be overwritten half way through.

What holds in both is that the result is a sublist of the old elements. What
holds of a reference is that nothing but the value it denoted can disappear.
-/

namespace Lib

universe u

/-- Storage cells, the first `size` of which are elements. -/
structure Vec (α : Type u) where
  /-- The whole block, in order. -/
  cells : List α
  /-- How many of the cells are elements. -/
  size : Nat
  /-- The elements lie inside the block. -/
  size_le : size ≤ cells.length

namespace Vec

variable {α : Type u}

/-- A vector whose block is exactly full. -/
def ofList (l : List α) : Vec α := ⟨l, l.length, Nat.le_refl _⟩

/-- The elements. -/
def toList (v : Vec α) : List α := v.cells.take v.size

@[simp] theorem toList_ofList (l : List α) : (ofList l).toList = l := List.take_length

/-- The compacting loop: `n` cells still to test, reading at `r` and writing at `w`. -/
def removeIf (p : List α → α → Bool) : (n r w : Nat) → List α → List α × Nat
  | 0, _, w, cells => (cells, w)
  | n + 1, r, w, cells =>
      match cells[r]? with
      | none => (cells, w)
      | some x =>
          if p cells x then removeIf p n (r + 1) w cells
          else removeIf p n (r + 1) (w + 1) (cells.set w x)

/-! ## What the loop does to the block -/

theorem drop_succ_of_getElem? {l : List α} {r n : Nat} {x : α} (h : l[r]? = some x) :
    (l.drop r).take (n + 1) = x :: (l.drop (r + 1)).take n := by
  obtain ⟨hr, hx⟩ := List.getElem?_eq_some_iff.mp h
  rw [List.drop_eq_getElem_cons hr, List.take_succ_cons, hx]

theorem take_succ_set {l : List α} {w : Nat} (h : w < l.length) (x : α) :
    (l.set w x).take (w + 1) = l.take w ++ [x] := by
  rw [List.take_succ_eq_append_getElem (by simpa using h), List.getElem_set_self,
    List.take_set_of_le (Nat.le_refl w)]

theorem removeIf_length (p : List α → α → Bool) :
    ∀ (n r w : Nat) (cells : List α), (removeIf p n r w cells).1.length = cells.length := by
  intro n
  induction n with
  | zero => intro r w cells; rfl
  | succ n ih =>
      intro r w cells
      rw [removeIf]
      split
      · rfl
      · split
        · exact ih _ _ _
        · rw [ih, List.length_set]

/-- The write position never passes the cells that were read. -/
theorem removeIf_write_le (p : List α → α → Bool) :
    ∀ (n r w : Nat) (cells : List α), (removeIf p n r w cells).2 ≤ w + n := by
  intro n
  induction n with
  | zero => intro r w cells; exact Nat.le_refl _
  | succ n ih =>
      intro r w cells
      rw [removeIf]
      split
      · exact Nat.le_add_right _ _
      · split
        · exact Nat.le_trans (ih _ _ _) (by omega)
        · exact Nat.le_trans (ih _ _ _) (by omega)

/-- No value appears that was not somewhere in the block before. -/
theorem removeIf_mem_cells (p : List α → α → Bool) :
    ∀ (n r w : Nat) (cells : List α) (y : α),
      y ∈ (removeIf p n r w cells).1 → y ∈ cells := by
  intro n
  induction n with
  | zero => intro r w cells y hy; exact hy
  | succ n ih =>
      intro r w cells y hy
      rw [removeIf] at hy
      split at hy
      · exact hy
      · rename_i x hx
        split at hy
        · exact ih _ _ _ y hy
        · rcases List.mem_or_eq_of_mem_set (ih _ _ _ y hy) with h | h
          · exact h
          · exact h ▸ List.mem_of_getElem? hx

/-- Survivors keep their order: a cell is read before anything is written past it. -/
theorem removeIf_sublist (p : List α → α → Bool) :
    ∀ (n r w : Nat) (cells : List α), w ≤ r → r + n ≤ cells.length →
      List.Sublist ((removeIf p n r w cells).1.take (removeIf p n r w cells).2)
        (cells.take w ++ (cells.drop r).take n) := by
  intro n
  induction n with
  | zero => intro r w cells _ _; simp [removeIf]
  | succ n ih =>
      intro r w cells hw hn
      rw [removeIf]
      split
      · exact List.sublist_append_left _ _
      · rename_i x hx
        rw [drop_succ_of_getElem? hx]
        split
        · exact (ih (r + 1) w cells (by omega) (by omega)).trans
            ((List.sublist_cons_self x _).append_left _)
        · have h := ih (r + 1) (w + 1) (cells.set w x) (by omega) (by simpa using by omega)
          rwa [take_succ_set (by omega), List.drop_set_of_lt (by omega), List.append_assoc] at h

/-- Against a fixed test the loop is a filter. -/
theorem removeIf_const (q : α → Bool) :
    ∀ (n r w : Nat) (cells : List α), w ≤ r → r + n ≤ cells.length →
      (removeIf (fun _ x => q x) n r w cells).1.take (removeIf (fun _ x => q x) n r w cells).2
        = cells.take w ++ ((cells.drop r).take n).filter (fun x => !q x) := by
  intro n
  induction n with
  | zero => intro r w cells _ _; simp [removeIf]
  | succ n ih =>
      intro r w cells hw hn
      have hr : r < cells.length := by omega
      have hx : cells[r]? = some cells[r] := List.getElem?_eq_getElem hr
      rw [removeIf, hx, drop_succ_of_getElem? hx]
      dsimp only
      by_cases hq : q cells[r] = true
      · rw [if_pos hq, ih (r + 1) w cells (by omega) (by omega), List.filter_cons]
        simp [hq]
      · rw [if_neg hq,
          ih (r + 1) (w + 1) (cells.set w cells[r]) (by omega) (by simpa using by omega),
          take_succ_set (by omega), List.drop_set_of_lt (by omega), List.filter_cons]
        simp [hq]

/-! ## Comparing with a reference into the block -/

/-- Equality with whatever cell `i` holds at the time of the test. -/
def refEq [DecidableEq α] (i : Nat) (cells : List α) (x : α) : Bool := cells[i]? == some x

/--
**Only the referenced value can disappear.** Until the loop writes cell `i`, the
test compares with the value `x` found there at the start. Once it has, cell `i`
lies in the part already compacted, so whatever the test now drops has a copy
among the survivors.
-/
theorem removeIf_refEq_mem [DecidableEq α] {i : Nat} {x : α} :
    ∀ (n r w : Nat) (cells : List α), w ≤ r → r + n ≤ cells.length →
      (i < w ∨ cells[i]? = some x) →
      ∀ y, y ≠ x → y ∈ cells.take w ++ (cells.drop r).take n →
        y ∈ (removeIf (refEq i) n r w cells).1.take (removeIf (refEq i) n r w cells).2 := by
  intro n
  induction n with
  | zero => intro r w cells _ _ _ y _ hy; simpa [removeIf] using hy
  | succ n ih =>
      intro r w cells hw hn hi y hne hy
      have hr : r < cells.length := by omega
      have hz : cells[r]? = some cells[r] := List.getElem?_eq_getElem hr
      rw [drop_succ_of_getElem? hz] at hy
      rw [removeIf, hz]
      dsimp only
      split
      · rename_i href
        -- the cell just read is dropped; if it held `y`, a copy was already kept
        refine ih (r + 1) w cells (by omega) (by omega) hi y hne ?_
        rcases List.mem_append.mp hy with h | h
        · exact List.mem_append_left _ h
        · rcases List.mem_cons.mp h with h | h
          · have hcell : cells[i]? = some y := by
              rw [refEq, beq_iff_eq] at href
              rw [href, ← h]
            rcases hi with hi | hi
            · refine List.mem_append_left _ (List.mem_of_getElem? (i := i) ?_)
              rw [List.getElem?_take_of_lt hi, hcell]
            · exact absurd (Option.some.inj (hcell.symm.trans hi)) hne
          · exact List.mem_append_right _ h
      · have hi' : i < w + 1 ∨ (cells.set w cells[r])[i]? = some x := by
          rcases Nat.lt_or_ge i (w + 1) with h | h
          · exact Or.inl h
          · refine Or.inr ?_
            rw [List.getElem?_set_ne (by omega)]
            exact hi.resolve_left (by omega)
        refine ih (r + 1) (w + 1) _ (by omega) (by simpa using by omega) hi' y hne ?_
        rwa [take_succ_set (by omega), List.drop_set_of_lt (by omega), List.append_assoc]

/-- The cell the loop compares with is dropped when it is read: nothing was written to it before. -/
theorem removeIf_refEq_lt [DecidableEq α] {i : Nat} :
    ∀ (n r w : Nat) (cells : List α), w ≤ r → r ≤ i → i < r + n → r + n ≤ cells.length →
      (removeIf (refEq i) n r w cells).2 < w + n := by
  intro n
  induction n with
  | zero => intro r w cells _ _ _ _; omega
  | succ n ih =>
      intro r w cells hw hr hi hn
      have hlt : r < cells.length := by omega
      rw [removeIf, List.getElem?_eq_getElem hlt]
      dsimp only
      split
      · exact Nat.lt_of_le_of_lt (removeIf_write_le _ _ _ _ _) (by omega)
      · rename_i href
        have hne : r ≠ i := by
          rintro rfl
          exact href (by rw [refEq, List.getElem?_eq_getElem hlt, beq_self_eq_true])
        have hrest := ih (r + 1) (w + 1) (cells.set w cells[r]) (by omega) (by omega) (by omega)
          (by simpa using by omega)
        omega

/-- As long as the loop has not passed cell `i`, comparing with it is comparing with its value. -/
theorem removeIf_refEq_const [DecidableEq α] {i : Nat} {x : α} :
    ∀ (n r w : Nat) (cells : List α), w ≤ r → r + n ≤ i + 1 → cells[i]? = some x →
      removeIf (refEq i) n r w cells = removeIf (fun _ y => y == x) n r w cells := by
  intro n
  induction n with
  | zero => intro r w cells _ _ _; rfl
  | succ n ih =>
      intro r w cells hw hn hi
      rw [removeIf, removeIf]
      have hat : ∀ y, refEq i cells y = (y == x) := by
        intro y
        rw [refEq, hi, Option.some_beq_some]
        exact BEq.comm
      split
      · rfl
      · rename_i y hy
        rw [hat]
        split
        · exact ih (r + 1) w cells (by omega) (by omega) hi
        · rename_i hne
          refine ih (r + 1) (w + 1) _ (by omega) (by omega) ?_
          by_cases hwi : w = i
          · -- the last cell of all, and it was not dropped
            subst hwi
            have hwr : r = w := by omega
            subst hwr
            rw [hi] at hy
            cases hy
            exact absurd (beq_self_eq_true x) hne
          · rw [List.getElem?_set_ne hwi]
            exact hi

/-! ## The erase–remove idiom -/

/-- `erase(remove_if(begin, end, p), end)`: compact, then lower the size. -/
def eraseIf (v : Vec α) (p : List α → α → Bool) : Vec α where
  cells := (removeIf p v.size 0 0 v.cells).1
  size := (removeIf p v.size 0 0 v.cells).2
  size_le := by
    rw [removeIf_length]
    exact Nat.le_trans (removeIf_write_le p _ _ _ _) (by have := v.size_le; omega)

theorem eraseIf_mem_cells {v : Vec α} {p : List α → α → Bool} {y : α}
    (h : y ∈ (v.eraseIf p).cells) : y ∈ v.cells := removeIf_mem_cells p _ _ _ _ y h

theorem eraseIf_sublist (v : Vec α) (p : List α → α → Bool) :
    List.Sublist (v.eraseIf p).toList v.toList := by
  have h := removeIf_sublist p v.size 0 0 v.cells (Nat.le_refl _) (by have := v.size_le; omega)
  simpa [toList, eraseIf] using h

theorem eraseIf_const (v : Vec α) (q : α → Bool) :
    (v.eraseIf fun _ x => q x).toList = v.toList.filter (fun x => !q x) := by
  have h := removeIf_const q v.size 0 0 v.cells (Nat.le_refl _) (by have := v.size_le; omega)
  simpa [toList, eraseIf] using h

theorem mem_eraseIf_refEq [DecidableEq α] {v : Vec α} {i : Nat} {x y : α}
    (hx : v.cells[i]? = some x) (hy : y ∈ v.toList) (hne : y ≠ x) :
    y ∈ (v.eraseIf (refEq i)).toList := by
  refine removeIf_refEq_mem v.size 0 0 v.cells (Nat.le_refl _) (by have := v.size_le; omega)
    (Or.inr hx) y hne ?_
  simpa [toList] using hy

theorem size_eraseIf_refEq_lt [DecidableEq α] {v : Vec α} {i : Nat} (h : i < v.size) :
    (v.eraseIf (refEq i)).size < v.size := by
  have hlt := removeIf_refEq_lt (i := i) v.size 0 0 v.cells (Nat.le_refl _) (Nat.zero_le _)
    (by omega) (by have := v.size_le; omega)
  simpa [eraseIf] using hlt

theorem size_eraseIf_le (v : Vec α) (p : List α → α → Bool) : (v.eraseIf p).size ≤ v.size := by
  have hle := removeIf_write_le p v.size 0 0 v.cells
  simpa [eraseIf] using hle

/-- A reference to the last element is as good as its value. -/
theorem eraseIf_refEq_last [DecidableEq α] {v : Vec α} {i : Nat} {x : α} (hsize : v.size = i + 1)
    (hx : v.cells[i]? = some x) :
    (v.eraseIf (refEq i)).toList = v.toList.filter (fun y => !(y == x)) := by
  have hconst := removeIf_refEq_const v.size 0 0 v.cells (Nat.le_refl _) (by omega) hx
  rw [← eraseIf_const]
  show ((removeIf (refEq i) v.size 0 0 v.cells).1).take (removeIf (refEq i) v.size 0 0 v.cells).2
    = (removeIf (fun _ y => y == x) v.size 0 0 v.cells).1.take
      (removeIf (fun _ y => y == x) v.size 0 0 v.cells).2
  rw [hconst]

end Vec

end Lib
