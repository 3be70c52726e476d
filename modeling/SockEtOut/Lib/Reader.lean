import Mathlib.Data.List.TakeDrop

/-!
# Reading back what was appended

A decoder walks a buffer with an offset: a `Reader` is given both and returns a
value and the next offset, or nothing when it would read past the end.

`Reads rd e y` is the one notion proofs use: wherever the bytes `e` stand in a
buffer, `rd` at their start yields `y` and stops at their end. It composes as the
reader does, so a round trip is read off the format, field by field. A format
that reads back something *else* than was written is no special case: `y` is
whatever comes out.

Some decoders work with indices into the whole buffer instead. `byteAt` and
`slice` leave the offset at the furthest byte read so far, and `Decodes` is the
notion that fits both kinds: the bytes `e` in front of anything else come out as
`y`, and nothing behind them is read.
-/

namespace Lib

universe u v

/-- From a buffer and an offset, a value and the next offset. -/
def Reader (β : Type u) (γ : Type v) := List β → Nat → Option (γ × Nat)

namespace Reader

variable {β : Type u} {γ δ : Type v}

instance : Monad (Reader β) where
  pure y := fun _ offset => some (y, offset)
  bind rd f := fun buf offset =>
    match rd buf offset with
    | none => none
    | some (y, offset) => f y buf offset

theorem map_id (rd : Reader β γ) : id <$> rd = rd := by
  funext buf offset
  show (match rd buf offset with
    | none => none
    | some (y, offset) => some (y, offset)) = rd buf offset
  cases rd buf offset <;> rfl

/-- What comes after two readers comes after the second of them. -/
theorem assoc {ε : Type v} (rd : Reader β γ) (f : γ → Reader β δ) (g : δ → Reader β ε) :
    rd >>= f >>= g = rd >>= fun y => f y >>= g := by
  funext buf offset
  show (match (match rd buf offset with
      | none => none
      | some (y, offset) => f y buf offset) with
    | none => none
    | some (z, offset) => g z buf offset) = match rd buf offset with
    | none => none
    | some (y, offset) => match f y buf offset with
      | none => none
      | some (z, offset) => g z buf offset
  cases rd buf offset <;> rfl

instance : LawfulMonad (Reader β) := .mk' _ map_id (fun _ _ => rfl) assoc

/-- Nothing comes out. -/
def fail : Reader β γ := fun _ _ => none

/-- `buf[offset++]` -/
def next : Reader β β := fun buf offset => buf[offset]?.map fun b => (b, offset + 1)

/-- The range from `offset` to `offset + n`. -/
def range (n : Nat) : Reader β (List β) := fun buf offset =>
  if offset + n ≤ buf.length then some ((buf.drop offset).take n, offset + n) else none

/-- A loop that reads `n` values one after the other. -/
def times (rd : Reader β γ) : Nat → Reader β (List γ)
  | 0 => pure []
  | n + 1 => do
      let y ← rd
      let ys ← times rd n
      pure (y :: ys)

/-- `buf[i]` -/
def byteAt (i : Nat) : Reader β β := fun buf offset =>
  buf[i]?.map fun b => (b, max offset (i + 1))

/-- The range from `i` to `i + n`. -/
def slice (i n : Nat) : Reader β (List β) := fun buf offset =>
  if i + n ≤ buf.length then some ((buf.drop i).take n, max offset (i + n)) else none

/-- Let `rd` loose on a copy of the rest, and go on behind what `size` says it has read. -/
def embedded (rd : Reader β γ) (size : γ → Nat) : Reader β γ := fun buf offset =>
  (rd (buf.drop offset) 0).map fun r => (r.1, offset + size r.1)

/-- Where `e` stands in a buffer, `rd` reads it as `y`. -/
def Reads (rd : Reader β γ) (e : List β) (y : γ) : Prop :=
  ∀ before after, rd (before ++ e ++ after) before.length = some (y, before.length + e.length)

theorem reads_pure (y : γ) : Reads (pure y : Reader β γ) [] y := by
  intro before after
  rfl

/-- One field after another. -/
theorem Reads.bind {rd : Reader β γ} {f : γ → Reader β δ} {e e' : List β} {y : γ} {z : δ}
    (h : Reads rd e y) (h' : Reads (f y) e' z) : Reads (rd >>= f) (e ++ e') z := by
  intro before after
  have hsplit : before ++ (e ++ e') ++ after = before ++ e ++ (e' ++ after) := by
    simp only [List.append_assoc]
  have hfirst := h before (e' ++ after)
  have hsecond := h' (before ++ e) after
  rw [List.length_append, List.append_assoc (before ++ e)] at hsecond
  show (match rd (before ++ (e ++ e') ++ after) before.length with
    | none => none
    | some (y, offset) => f y (before ++ (e ++ e') ++ after) offset) = _
  rw [hsplit, hfirst]
  dsimp only
  rw [hsecond, List.length_append, Nat.add_assoc]

/-- The last field, and what is made of it. -/
theorem Reads.map {rd : Reader β γ} {e : List β} {y : γ} (h : Reads rd e y) (f : γ → δ) :
    Reads (rd >>= fun y => pure (f y)) e (f y) := by
  have hbind := h.bind (f := fun y => pure (f y)) (reads_pure (f y))
  rwa [List.append_nil] at hbind

theorem reads_next (b : β) : Reads next [b] b := by
  intro before after
  simp [next]

theorem reads_range {e : List β} {n : Nat} (h : e.length = n) : Reads (range n) e e := by
  intro before after
  rw [range, if_pos (by rw [List.length_append, List.length_append]; omega), List.append_assoc,
    List.drop_left, ← h, List.take_left]

/-- A counted section, its elements written by `enc` and read as `f` says. -/
theorem reads_times {α : Type*} {rd : Reader β γ} {enc : α → List β} {f : α → γ} {xs : List α}
    {n : Nat} (hn : xs.length = n) (h : ∀ x ∈ xs, Reads rd (enc x) (f x)) :
    Reads (times rd n) (xs.flatMap enc) (xs.map f) := by
  subst hn
  induction xs with
  | nil => exact reads_pure []
  | cons x xs ih =>
      have hxs := ih fun y hy => h y (List.mem_cons_of_mem _ hy)
      rw [List.flatMap_cons, List.map_cons, List.length_cons, times]
      exact (h x List.mem_cons_self).bind (hxs.map _)

/-- An embedded decoder whose values know their size. -/
theorem Reads.embedded {rd : Reader β γ} {size : γ → Nat} {e : List β} {y : γ}
    (h : Reads rd e y) (hsize : size y = e.length) : Reads (embedded rd size) e y := by
  intro before after
  have hrest := h [] after
  rw [List.nil_append, List.length_nil] at hrest
  rw [Reader.embedded, List.append_assoc, List.drop_left, hrest, Option.map_some, hsize]

/-! ## Decoders of a whole buffer -/

/-- From `offset` in `buf`, `rd` comes to `y` and to `offset'`. -/
def Yields (rd : Reader β γ) (buf : List β) (offset : Nat) (y : γ) (offset' : Nat) : Prop :=
  rd buf offset = some (y, offset')

/-- In front of whatever follows, `rd` takes `e` for `y`, and reads nothing behind it. -/
def Decodes (rd : Reader β γ) (e : List β) (y : γ) : Prop :=
  ∀ after, Yields rd (e ++ after) 0 y e.length

theorem Reads.decodes {rd : Reader β γ} {e : List β} {y : γ} (h : Reads rd e y) :
    Decodes rd e y := by
  intro after
  have hrd := h [] after
  rwa [List.nil_append, List.length_nil, Nat.zero_add] at hrd

/-- What comes after a reader that has come to `y`. -/
theorem Yields.bind_eq {rd : Reader β γ} {f : γ → Reader β δ} {buf : List β}
    {offset offset' : Nat} {y : γ} (h : Yields rd buf offset y offset') :
    (rd >>= f) buf offset = f y buf offset' := by
  show (match rd buf offset with
    | none => none
    | some (y, offset) => f y buf offset) = _
  rw [h]

theorem Yields.bind {rd : Reader β γ} {f : γ → Reader β δ} {buf : List β}
    {offset offset' offset'' : Nat} {y : γ} {z : δ} (h : Yields rd buf offset y offset')
    (h' : Yields (f y) buf offset' z offset'') : Yields (rd >>= f) buf offset z offset'' :=
  h.bind_eq.trans h'

theorem yields_pure {buf : List β} {offset offset' : Nat} (y : γ) (h : offset = offset') :
    Yields (pure y) buf offset y offset' := by
  subst h
  rfl

theorem Decodes.map {rd : Reader β γ} {e : List β} {y : γ} (h : Decodes rd e y) (f : γ → δ) :
    Decodes (rd >>= fun y => pure (f y)) e (f y) :=
  fun after => (h after).bind (yields_pure _ rfl)

/-- `e` stands at index `i` of a buffer. -/
def At (buf : List β) (i : Nat) (e : List β) : Prop :=
  ∃ before after, buf = before ++ (e ++ after) ∧ before.length = i

theorem at_start (e after : List β) : At (e ++ after) 0 e := ⟨[], after, rfl, rfl⟩

/-- Further back by the length of what is put in front. -/
theorem At.behind {buf e : List β} {i j : Nat} (h : At buf i e) (x : List β)
    (hj : x.length + i = j) : At (x ++ buf) j e := by
  obtain ⟨before, after, rfl, rfl⟩ := h
  exact ⟨x ++ before, after, by rw [List.append_assoc], by rw [List.length_append, hj]⟩

theorem At.head {buf e : List β} {b : β} {i : Nat} (h : At buf i (b :: e)) : At buf i [b] := by
  obtain ⟨before, after, rfl, rfl⟩ := h
  exact ⟨before, e ++ after, rfl, rfl⟩

theorem At.tail {buf e : List β} {b : β} {i : Nat} (h : At buf i (b :: e)) : At buf (i + 1) e := by
  obtain ⟨before, after, rfl, rfl⟩ := h
  exact ⟨before ++ [b], after, by simp, by simp⟩

theorem yields_byteAt {buf : List β} {b : β} {i offset : Nat} (h : At buf i [b]) :
    Yields (byteAt i) buf offset b (max offset (i + 1)) := by
  obtain ⟨before, after, rfl, rfl⟩ := h
  rw [Yields, byteAt, List.getElem?_append_right (Nat.le_refl _), Nat.sub_self]
  rfl

theorem yields_slice {buf e : List β} {i n offset : Nat} (h : At buf i e) (hn : e.length = n) :
    Yields (slice i n) buf offset e (max offset (i + n)) := by
  obtain ⟨before, after, rfl, rfl⟩ := h
  subst hn
  rw [Yields, slice, if_pos (by rw [List.length_append, List.length_append]; omega),
    List.drop_left, List.take_left]

/-! ## What a reader that succeeds has seen -/

theorem Yields.of_bind {rd : Reader β γ} {f : γ → Reader β δ} {buf : List β}
    {offset offset'' : Nat} {z : δ} (h : Yields (rd >>= f) buf offset z offset'') :
    ∃ y offset', Yields rd buf offset y offset' ∧ Yields (f y) buf offset' z offset'' := by
  have h' : (match rd buf offset with
    | none => none
    | some (y, offset) => f y buf offset) = some (z, offset'') := h
  cases hrd : rd buf offset with
  | none => rw [hrd] at h'; cases h'
  | some r =>
      rw [hrd] at h'
      exact ⟨r.1, r.2, hrd, h'⟩

theorem Yields.of_next {buf : List β} {offset offset' : Nat} {b : β}
    (h : Yields next buf offset b offset') :
    buf[offset]? = some b ∧ offset' = offset + 1 ∧ offset' ≤ buf.length := by
  obtain ⟨b', hb, heq⟩ := Option.map_eq_some_iff.mp h
  cases heq
  obtain ⟨hlt, -⟩ := List.getElem?_eq_some_iff.mp hb
  exact ⟨hb, rfl, hlt⟩

theorem Yields.of_range {buf e : List β} {n offset offset' : Nat}
    (h : Yields (range n) buf offset e offset') :
    e.length = n ∧ offset' = offset + n ∧ offset' ≤ buf.length := by
  rw [Yields, range] at h
  split at h
  · rename_i hle
    cases h
    refine ⟨?_, rfl, hle⟩
    rw [List.length_take, List.length_drop]
    omega
  · cases h

/--
A loop over embedded values advances by their sizes, and stays inside the buffer
if each value does.
-/
theorem Yields.of_times_embedded {rd : Reader β γ} {size : γ → Nat} {buf : List β}
    (hsize : ∀ {buf : List β} {y : γ} {k : Nat}, Yields rd buf 0 y k → size y ≤ buf.length) :
    ∀ {n offset offset' : Nat} {ys : List γ}, offset ≤ buf.length →
      Yields (times (embedded rd size) n) buf offset ys offset' →
      ys.length = n ∧ offset' = ys.foldl (fun k y => k + size y) offset ∧ offset' ≤ buf.length
  | 0, offset, offset', ys, hoffset, h => by
      cases h
      exact ⟨rfl, rfl, hoffset⟩
  | n + 1, offset, offset', ys, hoffset, h => by
      obtain ⟨y, offset₁, hfirst, hrest⟩ := h.of_bind
      obtain ⟨ys', offset₂, htimes, hpure⟩ := hrest.of_bind
      cases hpure
      obtain ⟨⟨y', k⟩, hrd, heq⟩ := Option.map_eq_some_iff.mp hfirst
      cases heq
      have hle := hsize hrd
      rw [List.length_drop] at hle
      have hnext : offset + size y' ≤ buf.length := by omega
      obtain ⟨hlength, hoffset', hbound⟩ := Yields.of_times_embedded hsize hnext htimes
      exact ⟨by rw [List.length_cons, hlength], hoffset', hbound⟩

/-! ## Where it has seen it -/

theorem At.length_le {buf e : List β} {i : Nat} (h : At buf i e) : i + e.length ≤ buf.length := by
  obtain ⟨before, after, rfl, rfl⟩ := h
  rw [List.length_append, List.length_append]
  omega

theorem at_nil {buf : List β} {i : Nat} (h : i ≤ buf.length) : At buf i [] :=
  ⟨buf.take i, buf.drop i, by rw [List.nil_append, List.take_append_drop],
    by rw [List.length_take, Nat.min_eq_left h]⟩

theorem at_take {buf : List β} {i n : Nat} (h : i + n ≤ buf.length) :
    At buf i ((buf.drop i).take n) :=
  ⟨buf.take i, (buf.drop i).drop n, by rw [List.take_append_drop, List.take_append_drop],
    by rw [List.length_take]; omega⟩

/-- What stands at `i` is what the buffer has from there on. -/
theorem At.eq_take {buf e : List β} {i : Nat} (h : At buf i e) :
    (buf.drop i).take e.length = e := by
  obtain ⟨before, after, rfl, rfl⟩ := h
  rw [List.drop_left, List.take_left]

/-- One field behind another. -/
theorem At.append {buf e e' : List β} {i j : Nat} (h : At buf i e) (h' : At buf j e')
    (hj : i + e.length = j) : At buf i (e ++ e') := by
  subst hj
  have hsecond := h'.eq_take
  obtain ⟨before, after, rfl, rfl⟩ := h
  rw [← List.drop_drop, List.drop_left, List.drop_left] at hsecond
  refine ⟨before, after.drop e'.length, ?_, rfl⟩
  conv_lhs => rw [← List.take_append_drop e'.length after, hsecond]
  rw [List.append_assoc]

theorem Yields.at_next {buf : List β} {offset offset' : Nat} {b : β}
    (h : Yields next buf offset b offset') : At buf offset [b] ∧ offset' = offset + 1 := by
  obtain ⟨hb, hoffset, -⟩ := h.of_next
  obtain ⟨hlt, heq⟩ := List.getElem?_eq_some_iff.mp hb
  have hat : At buf offset ((buf.drop offset).take 1) := at_take hlt
  rw [List.take_one, List.head?_drop, hb] at hat
  exact ⟨hat, hoffset⟩

theorem Yields.at_byteAt {buf : List β} {i offset offset' : Nat} {b : β}
    (h : Yields (byteAt i) buf offset b offset') :
    At buf i [b] ∧ offset' = max offset (i + 1) := by
  obtain ⟨b', hb, heq⟩ := Option.map_eq_some_iff.mp h
  cases heq
  have hnext : Yields next buf i b (i + 1) := by rw [Yields, next, hb, Option.map_some]
  exact ⟨hnext.at_next.1, rfl⟩

theorem Yields.at_range {buf e : List β} {n offset offset' : Nat}
    (h : Yields (range n) buf offset e offset') :
    At buf offset e ∧ e.length = n ∧ offset' = offset + n := by
  obtain ⟨hn, hoffset, hle⟩ := h.of_range
  rw [Yields, range, if_pos (by omega)] at h
  cases h
  exact ⟨at_take (by omega), hn, hoffset⟩

theorem Yields.at_slice {buf e : List β} {i n offset offset' : Nat}
    (h : Yields (slice i n) buf offset e offset') :
    At buf i e ∧ e.length = n ∧ offset' = max offset (i + n) := by
  rw [Yields, slice] at h
  split at h
  · rename_i hle
    cases h
    have hrange : Yields (range n) buf i ((buf.drop i).take n) (i + n) := if_pos hle
    exact ⟨hrange.at_range.1, hrange.at_range.2.1, rfl⟩
  · cases h

/-- A loop over values that stand where they were found, one behind the other. -/
theorem Yields.at_times {rd : Reader β γ} {enc : γ → List β} {buf : List β}
    (heach : ∀ {offset offset' : Nat} {y : γ}, Yields rd buf offset y offset' →
      At buf offset (enc y) ∧ offset' = offset + (enc y).length) :
    ∀ {n offset offset' : Nat} {ys : List γ}, offset ≤ buf.length →
      Yields (times rd n) buf offset ys offset' →
      At buf offset (ys.flatMap enc) ∧ ys.length = n
        ∧ offset' = offset + (ys.flatMap enc).length
  | 0, offset, offset', ys, hoffset, h => by
      cases h
      exact ⟨at_nil hoffset, rfl, rfl⟩
  | n + 1, offset, offset', ys, hoffset, h => by
      obtain ⟨y, offset₁, hfirst, hrest⟩ := h.of_bind
      obtain ⟨ys', offset₂, htimes, hpure⟩ := hrest.of_bind
      cases hpure
      obtain ⟨hat, hoffset₁⟩ := heach hfirst
      have hle := hat.length_le
      obtain ⟨hats, hlength, hoffset'⟩ := Yields.at_times heach (by omega) htimes
      rw [List.flatMap_cons, List.length_append]
      exact ⟨hat.append hats hoffset₁.symm, by rw [List.length_cons, hlength], by omega⟩

/-- A loop that comes back has done all its passes. -/
theorem Yields.length_of_times {rd : Reader β γ} {buf : List β} :
    ∀ {n offset offset' : Nat} {ys : List γ}, Yields (times rd n) buf offset ys offset' →
      ys.length = n
  | 0, offset, offset', ys, h => by
      cases h
      rfl
  | n + 1, offset, offset', ys, h => by
      obtain ⟨y, offset₁, -, hrest⟩ := h.of_bind
      obtain ⟨ys', offset₂, htimes, hpure⟩ := hrest.of_bind
      cases hpure
      rw [List.length_cons, Yields.length_of_times htimes]

/-! ## Readers that can be undone -/

/-- In a buffer without its first `i` elements, all stands that much further to the front. -/
theorem At.of_drop {buf e : List β} {i : Nat} (h : At (buf.drop i) 0 e) (hi : i ≤ buf.length) :
    At buf i e := by
  have hbehind := h.behind (buf.take i) (j := i) (by rw [List.length_take]; omega)
  rwa [List.take_append_drop] at hbehind

/-- Whatever `rd` comes to stands where it was read as `enc` writes it, and `rd` stops behind it. -/
def Repeats (rd : Reader β γ) (enc : γ → List β) : Prop :=
  ∀ ⦃buf : List β⦄ ⦃offset offset' : Nat⦄ ⦃y : γ⦄, Yields rd buf offset y offset' →
    At buf offset (enc y) ∧ offset' = offset + (enc y).length

/-- An embedded decoder of values that know their size and are never empty. -/
theorem Repeats.embedded {rd : Reader β γ} {size : γ → Nat} {enc : γ → List β}
    (h : Repeats rd enc) (hsize : ∀ y, size y = (enc y).length) (hpos : ∀ y, 0 < size y) :
    Repeats (embedded rd size) enc := by
  intro buf offset offset' y hy
  obtain ⟨⟨y', k⟩, hrd, heq⟩ := Option.map_eq_some_iff.mp hy
  cases heq
  obtain ⟨hat, -⟩ := h hrd
  have hle := hat.length_le
  have hy' := hpos y'
  rw [hsize] at hy'
  rw [List.length_drop] at hle
  exact ⟨hat.of_drop (by omega), by rw [hsize]⟩

/-- A counted section of values that stand where they were read. -/
theorem Repeats.at_times {rd : Reader β γ} {enc : γ → List β} (h : Repeats rd enc)
    {buf : List β} {n offset offset' : Nat} {ys : List γ} (hle : offset ≤ buf.length)
    (htimes : Yields (times rd n) buf offset ys offset') :
    At buf offset (ys.flatMap enc) ∧ ys.length = n
      ∧ offset' = offset + (ys.flatMap enc).length :=
  Yields.at_times (fun hy => h hy) hle htimes

/-! ## Where a reader stays inside the buffer -/

section Inside

variable {β γ δ : Type u}

/-- Where the first reader fails, nothing comes after it. -/
theorem bind_of_none {rd : Reader β γ} {f : γ → Reader β δ} {buf : List β} {offset : Nat}
    (h : rd buf offset = none) : (rd >>= f) buf offset = none := by
  show (match rd buf offset with
    | none => none
    | some (y, offset) => f y buf offset) = none
  rw [h]

/-- What comes after a reader that needs `p` and then stands at `offset'` with `y`. -/
theorem isSome_bind {rd : Reader β γ} {f : γ → Reader β δ} {buf : List β} {offset offset' : Nat}
    {y : γ} {p : Prop} [Decidable p] (h : rd buf offset = if p then some (y, offset') else none) :
    ((rd >>= f) buf offset).isSome ↔ p ∧ (f y buf offset').isSome := by
  by_cases hp : p
  · rw [Yields.bind_eq (h.trans (if_pos hp))]
    simp [hp]
  · rw [bind_of_none (h.trans (if_neg hp))]
    simp [hp]

theorem isSome_pure {y : γ} {buf : List β} {offset : Nat} :
    ((pure y : Reader β γ) buf offset).isSome = true := rfl

/-- Making something of the value reads nothing more. -/
theorem isSome_map {rd : Reader β γ} {f : γ → δ} {buf : List β} {offset : Nat} :
    ((rd >>= fun y => pure (f y)) buf offset).isSome ↔ (rd buf offset).isSome := by
  show ((match rd buf offset with
    | none => none
    | some (y, offset) => some (f y, offset)) : Option (δ × Nat)).isSome ↔ _
  cases rd buf offset with
  | none => simp
  | some r => simp

theorem getElem?_eq_ite [Inhabited β] (buf : List β) (i : Nat) :
    buf[i]? = if i < buf.length then some (buf.getD i default) else none := by
  by_cases h : i < buf.length
  · rw [if_pos h, List.getD_eq_getElem?_getD, List.getElem?_eq_getElem h, Option.getD_some]
  · rw [if_neg h, List.getElem?_eq_none (by omega)]

theorem isSome_byteAt_bind [Inhabited β] {i : Nat} {f : β → Reader β δ} {buf : List β}
    {offset : Nat} :
    ((byteAt i >>= f) buf offset).isSome
      ↔ i < buf.length ∧ (f (buf.getD i default) buf (max offset (i + 1))).isSome := by
  refine isSome_bind ?_
  rw [byteAt, getElem?_eq_ite]
  split <;> rfl

theorem isSome_next_bind [Inhabited β] {f : β → Reader β δ} {buf : List β} {offset : Nat} :
    ((next >>= f) buf offset).isSome
      ↔ offset < buf.length ∧ (f (buf.getD offset default) buf (offset + 1)).isSome := by
  refine isSome_bind ?_
  rw [next, getElem?_eq_ite]
  split <;> rfl

theorem isSome_slice_bind {i n : Nat} {f : List β → Reader β δ} {buf : List β} {offset : Nat} :
    ((slice i n >>= f) buf offset).isSome
      ↔ i + n ≤ buf.length ∧ (f ((buf.drop i).take n) buf (max offset (i + n))).isSome :=
  isSome_bind rfl

theorem isSome_range_bind {n : Nat} {f : List β → Reader β δ} {buf : List β} {offset : Nat} :
    ((range n >>= f) buf offset).isSome
      ↔ offset + n ≤ buf.length ∧ (f ((buf.drop offset).take n) buf (offset + n)).isSome :=
  isSome_bind rfl

/-- A reader of fixed width: it fails exactly where fewer than `k` elements are left. -/
def Takes (rd : Reader β γ) (k : Nat) : Prop :=
  ∀ buf offset, offset ≤ buf.length →
    (offset + k ≤ buf.length → ∃ y, rd buf offset = some (y, offset + k))
      ∧ (buf.length < offset + k → rd buf offset = none)

theorem takes_pure (y : γ) : Takes (pure y : Reader β γ) 0 := by
  intro buf offset hle
  exact ⟨fun _ => ⟨y, rfl⟩, fun h => absurd h (by omega)⟩

/-- One value of fixed width after another. -/
theorem Takes.bind {rd : Reader β γ} {f : γ → Reader β δ} {k m : Nat} (h : Takes rd k)
    (hf : ∀ y, Takes (f y) m) : Takes (rd >>= f) (k + m) := by
  intro buf offset hle
  obtain ⟨hyes, hno⟩ := h buf offset hle
  by_cases hk : offset + k ≤ buf.length
  · obtain ⟨y, hy⟩ := hyes hk
    obtain ⟨hyes', hno'⟩ := hf y buf (offset + k) hk
    rw [← Nat.add_assoc]
    refine ⟨fun hm => ?_, fun hm => ?_⟩
    · obtain ⟨z, hz⟩ := hyes' hm
      exact ⟨z, Yields.bind hy hz⟩
    · exact (Yields.bind_eq hy).trans (hno' hm)
  · exact ⟨fun h => absurd h (by omega), fun _ => bind_of_none (hno (by omega))⟩

theorem Takes.times {rd : Reader β γ} {k : Nat} (h : Takes rd k) :
    ∀ n, Takes (times rd n) (n * k)
  | 0 => by
      rw [Nat.zero_mul]
      exact takes_pure []
  | n + 1 => by
      have hrest := h.bind fun y => (h.times n).bind fun ys => takes_pure (y :: ys)
      rw [Nat.add_zero, Nat.add_comm, ← Nat.succ_mul] at hrest
      exact hrest

theorem Takes.isSome_iff {rd : Reader β γ} {k : Nat} (h : Takes rd k) {buf : List β} {offset : Nat}
    (hle : offset ≤ buf.length) : (rd buf offset).isSome ↔ offset + k ≤ buf.length := by
  obtain ⟨hyes, hno⟩ := h buf offset hle
  by_cases hk : offset + k ≤ buf.length
  · obtain ⟨y, hy⟩ := hyes hk
    simp [hy, hk]
  · simp [hno (by omega), hk]

/-- What comes after a value of fixed width, where what it needs does not depend on the value. -/
theorem Takes.isSome_bind {rd : Reader β γ} {f : γ → Reader β δ} {k : Nat} {p : Prop}
    (h : Takes rd k) {buf : List β} {offset : Nat} (hle : offset ≤ buf.length)
    (hf : offset + k ≤ buf.length → ∀ y, (f y buf (offset + k)).isSome ↔ p) :
    ((rd >>= f) buf offset).isSome ↔ offset + k ≤ buf.length ∧ p := by
  obtain ⟨hyes, hno⟩ := h buf offset hle
  by_cases hk : offset + k ≤ buf.length
  · obtain ⟨y, hy⟩ := hyes hk
    rw [Yields.bind_eq hy]
    exact (hf hk y).trans ⟨fun hp => ⟨hk, hp⟩, And.right⟩
  · rw [bind_of_none (hno (by omega))]
    simp [hk]

end Inside

end Reader

end Lib
