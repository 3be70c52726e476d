import Mathlib.Data.List.TakeDrop

/-!
# Readers of a framed stream

A stream is a concatenation of frames and arrives in pieces that know nothing of
the frames. A reader is called once for each arrival on everything received and
not yet taken. What it does in one pass is a `Poll`: nothing, take a frame, or
take some bytes and report nothing for them. That last case is what this file is
about. A reader that takes the head of a frame before it knows that the rest is
there, and gives up when it is not, loses its place in the stream.

Two readers are built from one pass: `drainAll` repeats it as long as frames
come, `once` makes a single pass. For each, `feed_drainAll_iff` and
`feed_once_iff` say exactly for which arrivals all frames come out, in order. The
converse halves count bytes: every pass takes at least what the frame it reports
is long, so a reader that has reported every frame cannot have taken anything
else.
-/

namespace Lib

universe u v

/-- What one pass over the bytes at hand does. -/
inductive Poll (β : Type u) (α : Type v) where
  /-- Nothing: too few bytes to look at. -/
  | idle
  /-- Takes bytes, reports nothing and stops. -/
  | lost (rest : List β)
  /-- Takes a frame; reports it, unless it is of no known kind. -/
  | item (a : Option α) (rest : List β)

variable {β : Type u} {α : Type v}

/-- Pass after pass, at most `n` of them: the frames reported and the bytes left. -/
def drain (poll : List β → Poll β α) : Nat → List β → List α × List β
  | 0, buf => ([], buf)
  | n + 1, buf =>
      match poll buf with
      | .idle => ([], buf)
      | .lost rest => ([], rest)
      | .item a rest => (a.toList ++ (drain poll n rest).1, (drain poll n rest).2)

/-- Pass after pass until one stops. Each takes bytes, so their number bounds the passes. -/
def drainAll (poll : List β → Poll β α) (buf : List β) : List α × List β :=
  drain poll (buf.length + 1) buf

/-- A single pass. -/
def once (poll : List β → Poll β α) (buf : List β) : List α × List β :=
  match poll buf with
  | .idle => ([], buf)
  | .lost rest => ([], rest)
  | .item a rest => (a.toList, rest)

/-- A single pass is a loop of one. -/
theorem once_eq_drain (poll : List β → Poll β α) (buf : List β) :
    once poll buf = drain poll 1 buf := by
  rw [once, drain]
  cases poll buf with
  | idle => rfl
  | lost rest => rfl
  | item a rest => simp [drain]

/-- It reports one frame at most. -/
theorem exists_once (poll : List β → Poll β α) (buf : List β) :
    ∃ a : Option α, (once poll buf).1 = a.toList := by
  rw [once]
  cases poll buf with
  | idle => exact ⟨none, rfl⟩
  | lost rest => exact ⟨none, rfl⟩
  | item a rest => exact ⟨a, rfl⟩

/-- Call a reader once for each arrival, on what it left behind followed by the arrival. -/
def feed (reader : List β → List α × List β) : List β → List (List β) → List α × List β
  | buf, [] => ([], buf)
  | buf, arrival :: arrivals =>
      let now := reader (buf ++ arrival)
      let later := feed reader now.2 arrivals
      (now.1 ++ later.1, later.2)

/-- What a frame looks like on the wire, and what one pass makes of it. -/
structure Framing (β : Type u) (α : Type v) where
  /-- The bytes of a frame. -/
  enc : α → List β
  /-- How many bytes a pass takes before it asks for the rest. -/
  head : Nat
  poll : List β → Poll β α
  head_pos : 0 < head
  head_le : ∀ a, head ≤ (enc a).length
  poll_short : ∀ buf, buf.length < head → poll buf = .idle
  poll_whole : ∀ a rest, poll (enc a ++ rest) = .item (some a) rest
  poll_cut : ∀ a buf rest, enc a = buf ++ rest → head ≤ buf.length → rest ≠ [] →
    ∃ left, poll buf = .lost left
  lost_length : ∀ buf rest, poll buf = .lost rest → rest.length < buf.length
  item_length : ∀ buf a rest, poll buf = .item (some a) rest →
    (enc a).length + rest.length ≤ buf.length
  skip_length : ∀ buf rest, poll buf = .item none rest → rest.length < buf.length

namespace Framing

variable (F : Framing β α)

/-- The bytes of a stream of frames. -/
def stream (fs : List α) : List β := fs.flatMap F.enc

/-- How many of the frames lie within the first `n` bytes of their stream. -/
def completed : List α → Nat → Nat
  | [], _ => 0
  | a :: fs, n =>
      if (F.enc a).length ≤ n then completed fs (n - (F.enc a).length) + 1 else 0

/-- How many of the first `n` bytes belong to a frame that does not end within them. -/
def residual : List α → Nat → Nat
  | [], n => n
  | a :: fs, n => if (F.enc a).length ≤ n then residual fs (n - (F.enc a).length) else n

/-- After each arrival less than a head of the frame in progress is there; `n` bytes came before. -/
def HeadsUncut (fs : List α) : Nat → List (List β) → Prop
  | _, [] => True
  | n, arrival :: arrivals =>
      F.residual fs (n + arrival.length) < F.head
        ∧ HeadsUncut fs (n + arrival.length) arrivals

/-- Each arrival completes at most one frame. -/
def AtMostOneEach (fs : List α) : Nat → List (List β) → Prop
  | _, [] => True
  | n, arrival :: arrivals =>
      F.completed fs (n + arrival.length) ≤ F.completed fs n + 1
        ∧ AtMostOneEach fs (n + arrival.length) arrivals

/-- Each arrival completes exactly one frame, or leaves less than a head of one. -/
def OneOrUncut (fs : List α) : Nat → List (List β) → Prop
  | _, [] => True
  | n, arrival :: arrivals =>
      (F.completed fs (n + arrival.length) = F.completed fs n + 1
          ∨ F.residual fs (n + arrival.length) < F.head)
        ∧ OneOrUncut fs (n + arrival.length) arrivals

/-! ## The loop -/

theorem item_shrinks {buf rest : List β} {a : Option α} (h : F.poll buf = .item a rest) :
    rest.length < buf.length := by
  cases a with
  | none => exact F.skip_length buf rest h
  | some a =>
      have := F.item_length buf a rest h
      have := F.head_le a
      have := F.head_pos
      omega

/-- More passes than bytes change nothing. -/
theorem drain_fuel : ∀ (n m : Nat) (buf : List β), buf.length < n → buf.length < m →
    drain F.poll n buf = drain F.poll m buf := by
  intro n
  induction n with
  | zero => intro m buf hn _; omega
  | succ n ih =>
      intro m buf hn hm
      cases m with
      | zero => omega
      | succ m =>
          rw [drain, drain]
          cases hp : F.poll buf with
          | idle => rfl
          | lost rest => rfl
          | item a rest =>
              have hshrink := F.item_shrinks hp
              dsimp only
              rw [ih m rest (by omega) (by omega)]

/-- The loop, as a loop: pass, and go on if a frame came. -/
theorem drainAll_eq (buf : List β) :
    drainAll F.poll buf =
      match F.poll buf with
      | .idle => ([], buf)
      | .lost rest => ([], rest)
      | .item a rest => (a.toList ++ (drainAll F.poll rest).1, (drainAll F.poll rest).2) := by
  rw [drainAll, drain]
  cases hp : F.poll buf with
  | idle => rfl
  | lost rest => rfl
  | item a rest =>
      have hshrink := F.item_shrinks hp
      dsimp only
      -- what is left is shorter, so its own length is passes enough
      rw [drainAll, F.drain_fuel buf.length (rest.length + 1) rest (by omega) (by omega)]

/-- Whole frames at the front come out, and the loop goes on behind them. -/
theorem drainAll_stream (fs : List α) (rest : List β) :
    drainAll F.poll (F.stream fs ++ rest)
      = (fs ++ (drainAll F.poll rest).1, (drainAll F.poll rest).2) := by
  induction fs with
  | nil => rfl
  | cons a fs ih =>
      rw [stream, List.flatMap_cons, List.append_assoc, F.drainAll_eq, F.poll_whole]
      dsimp only
      rw [← stream, ih]
      rfl

/-- There are no more frames than bytes. -/
theorem length_le_stream (fs : List α) : fs.length ≤ (F.stream fs).length := by
  induction fs with
  | nil => exact Nat.le_refl 0
  | cons a fs ih =>
      have hhead := F.head_le a
      have hpos := F.head_pos
      rw [stream, List.flatMap_cons, List.length_append, ← stream, List.length_cons]
      omega

/-! ## Counting bytes -/

theorem stream_append (fs gs : List α) : F.stream (fs ++ gs) = F.stream fs ++ F.stream gs :=
  List.flatMap_append

/-- The frames a reader reports are no longer than what it takes. -/
def Thrifty (reader : List β → List α × List β) : Prop :=
  ∀ buf, (F.stream (reader buf).1).length + (reader buf).2.length ≤ buf.length

theorem drain_thrifty (n : Nat) : F.Thrifty (drain F.poll n) := by
  induction n with
  | zero => intro buf; simp [drain, stream]
  | succ n ih =>
      intro buf
      rw [drain]
      cases hp : F.poll buf with
      | idle => simp [stream]
      | lost rest =>
          have := F.lost_length buf rest hp
          simp only [stream, List.flatMap_nil, List.length_nil]
          omega
      | item a rest =>
          have hrest := ih rest
          cases a with
          | none =>
              have := F.skip_length buf rest hp
              simp only [Option.toList_none, List.nil_append]
              omega
          | some a =>
              have := F.item_length buf a rest hp
              simp only [Option.toList_some, stream_append, List.length_append]
              simp only [stream, List.flatMap_cons, List.flatMap_nil, List.append_nil] at hrest ⊢
              omega

theorem drainAll_thrifty : F.Thrifty (drainAll F.poll) :=
  fun buf => F.drain_thrifty (buf.length + 1) buf

theorem once_thrifty : F.Thrifty (once F.poll) := by
  intro buf
  rw [once_eq_drain]
  exact F.drain_thrifty 1 buf

theorem feed_thrifty {reader : List β → List α × List β} (h : F.Thrifty reader) :
    ∀ (arrivals : List (List β)) (buf : List β),
      (F.stream (feed reader buf arrivals).1).length + (feed reader buf arrivals).2.length
        ≤ buf.length + arrivals.flatten.length := by
  intro arrivals
  induction arrivals with
  | nil => intro buf; simp [feed, stream]
  | cons arrival arrivals ih =>
      intro buf
      have hnow := h (buf ++ arrival)
      have hlater := ih (reader (buf ++ arrival)).2
      simp only [feed, stream_append, List.length_append, List.flatten_cons] at hnow hlater ⊢
      omega

/-- A reader that drops bytes of a stream cannot report all of it any more. -/
theorem not_all_of_lost {reader : List β → List α × List β} (h : F.Thrifty reader)
    {fs : List α} {taken : List α} {left buf : List β} {arrivals : List (List β)}
    (hlost : (F.stream taken).length + left.length < buf.length)
    (hfs : buf.length + arrivals.flatten.length = (F.stream fs).length) :
    taken ++ (feed reader left arrivals).1 ≠ fs := by
  intro heq
  have hlater := F.feed_thrifty h arrivals left
  have hlen := congrArg (fun l => (F.stream l).length) heq
  simp only [stream_append, List.length_append] at hlen
  omega

/-! ## Where in the stream a reader stands -/

/-- The whole frames at the front of what has arrived, and the rest. -/
structure Cut (todo : List α) (buf later : List β) (done todo' : List α) (buf' : List β) :
    Prop where
  frames : todo = done ++ todo'
  bytes : buf = F.stream done ++ buf'
  ahead : buf' ++ later = F.stream todo'
  /-- No whole frame is left. -/
  short : ∀ a as, todo' = a :: as → buf'.length < (F.enc a).length
  done_nil : todo' = [] → buf' = []

theorem exists_cut : ∀ (todo : List α) (buf later : List β), buf ++ later = F.stream todo →
    ∃ done todo' buf', F.Cut todo buf later done todo' buf' := by
  intro todo
  induction todo with
  | nil =>
      intro buf later h
      have hnil : buf = [] := (List.append_eq_nil_iff.mp h).1
      exact ⟨[], [], buf, rfl, rfl, h, fun a as hc => absurd hc (by simp), fun _ => hnil⟩
  | cons a todo ih =>
      intro buf later h
      -- the first frame is there as a whole, or what is there is part of it
      by_cases hlen : (F.enc a).length ≤ buf.length
      · rw [stream, List.flatMap_cons] at h
        obtain ⟨mid, rfl⟩ : F.enc a <+: buf :=
          List.prefix_of_prefix_length_le ⟨_, h.symm⟩ ⟨later, rfl⟩ hlen
        have hmid : mid ++ later = F.stream todo := by
          rw [List.append_assoc] at h
          exact List.append_cancel_left h
        obtain ⟨done, todo', buf', hframes, hbytes, hahead, hpart, hnil⟩ := ih mid later hmid
        refine ⟨a :: done, todo', buf', by rw [hframes]; rfl, ?_, hahead, hpart, hnil⟩
        rw [hbytes, stream, stream, List.flatMap_cons, List.append_assoc]
      · refine ⟨[], a :: todo, buf, rfl, rfl, h, ?_, fun hc => absurd hc (by simp)⟩
        intro b bs heq
        obtain ⟨rfl, -⟩ := List.cons.inj heq
        omega

theorem completed_zero (fs : List α) : F.completed fs 0 = 0 := by
  cases fs with
  | nil => rfl
  | cons a fs =>
      have hle := F.head_le a
      have hpos := F.head_pos
      rw [completed, if_neg (by omega)]

theorem completed_append (done fs : List α) (n : Nat) :
    F.completed (done ++ fs) ((F.stream done).length + n) = done.length + F.completed fs n := by
  induction done with
  | nil => simp [stream]
  | cons a done ih =>
      rw [List.cons_append, completed, stream, List.flatMap_cons, List.length_append, ← stream,
        if_pos (by omega), List.length_cons,
        show (F.enc a).length + (F.stream done).length + n - (F.enc a).length
          = (F.stream done).length + n by omega, ih]
      omega

theorem residual_append (done fs : List α) (n : Nat) :
    F.residual (done ++ fs) ((F.stream done).length + n) = F.residual fs n := by
  induction done with
  | nil => simp [stream]
  | cons a done ih =>
      rw [List.cons_append, residual, stream, List.flatMap_cons, List.length_append, ← stream,
        if_pos (by omega),
        show (F.enc a).length + (F.stream done).length + n - (F.enc a).length
          = (F.stream done).length + n by omega, ih]

theorem headsUncut_append (done fs : List α) : ∀ (arrivals : List (List β)) (n : Nat),
    F.HeadsUncut (done ++ fs) ((F.stream done).length + n) arrivals
      ↔ F.HeadsUncut fs n arrivals := by
  intro arrivals
  induction arrivals with
  | nil => intro n; exact Iff.rfl
  | cons arrival arrivals ih =>
      intro n
      rw [HeadsUncut, HeadsUncut, Nat.add_assoc, residual_append, ih]

theorem atMostOneEach_append (done fs : List α) : ∀ (arrivals : List (List β)) (n : Nat),
    F.AtMostOneEach (done ++ fs) ((F.stream done).length + n) arrivals
      ↔ F.AtMostOneEach fs n arrivals := by
  intro arrivals
  induction arrivals with
  | nil => intro n; exact Iff.rfl
  | cons arrival arrivals ih =>
      intro n
      rw [AtMostOneEach, AtMostOneEach, Nat.add_assoc, completed_append, completed_append, ih]
      exact and_congr_left fun _ => by omega

theorem oneOrUncut_append (done fs : List α) : ∀ (arrivals : List (List β)) (n : Nat),
    F.OneOrUncut (done ++ fs) ((F.stream done).length + n) arrivals
      ↔ F.OneOrUncut fs n arrivals := by
  intro arrivals
  induction arrivals with
  | nil => intro n; exact Iff.rfl
  | cons arrival arrivals ih =>
      intro n
      have hone : done.length + F.completed fs (n + arrival.length)
            = done.length + F.completed fs n + 1
          ↔ F.completed fs (n + arrival.length) = F.completed fs n + 1 := by omega
      rw [OneOrUncut, OneOrUncut, Nat.add_assoc, completed_append, completed_append,
        residual_append, ih, hone]

namespace Cut

variable {F} {todo done todo' : List α} {buf later buf' : List β}

/-- Nothing is complete in what is left. -/
theorem completed_eq (h : F.Cut todo buf later done todo' buf') :
    F.completed todo' buf'.length = 0 := by
  cases htodo : todo' with
  | nil => rfl
  | cons a as =>
      have hlt := h.short a as htodo
      rw [completed, if_neg (by omega)]

theorem residual_eq (h : F.Cut todo buf later done todo' buf') :
    F.residual todo' buf'.length = buf'.length := by
  cases htodo : todo' with
  | nil => rfl
  | cons a as =>
      have hlt := h.short a as htodo
      rw [residual, if_neg (by omega)]

/-- With a head but not all of a frame at hand, a pass loses the head. -/
theorem poll_lost (h : F.Cut todo buf later done todo' buf') (hlen : F.head ≤ buf'.length) :
    ∃ left, F.poll buf' = .lost left ∧ left.length < buf'.length := by
  have hpos := F.head_pos
  cases htodo : todo' with
  | nil =>
      rw [h.done_nil htodo, List.length_nil] at hlen
      omega
  | cons a as =>
      have hlt := h.short a as htodo
      have hahead := h.ahead
      rw [htodo, stream, List.flatMap_cons] at hahead
      obtain ⟨rest, hrest⟩ : buf' <+: F.enc a :=
        List.prefix_of_prefix_length_le ⟨later, hahead⟩ ⟨_, rfl⟩ (by omega)
      have hne : rest ≠ [] := by
        rintro rfl
        rw [List.append_nil] at hrest
        rw [hrest] at hlt
        omega
      obtain ⟨left, hleft⟩ := F.poll_cut a buf' rest hrest.symm hlen hne
      exact ⟨left, hleft, F.lost_length buf' left hleft⟩

end Cut

/-- All that has arrived when nothing more will is whole frames, none of which is complete. -/
theorem eq_nil_of_completed {todo : List α} {buf : List β} (h : buf = F.stream todo)
    (hnone : F.completed todo buf.length = 0) : todo = [] := by
  cases todo with
  | nil => rfl
  | cons a as =>
      rw [h, stream, List.flatMap_cons, List.length_append, completed, if_pos (by omega)] at hnone
      omega

/-! ## Arrivals that end within a head -/

/-- Whole frames and less than a head: the loop takes the frames and leaves the rest. -/
theorem drainAll_whole (fs : List α) {rest : List β} (h : rest.length < F.head) :
    drainAll F.poll (F.stream fs ++ rest) = (fs, rest) := by
  rw [drainAll_stream, drainAll_eq, F.poll_short rest h]
  dsimp only
  rw [List.append_nil]

/-- A single pass takes the one frame there is. -/
theorem once_whole (a : Option α) {rest : List β} (h : rest.length < F.head) :
    once F.poll (F.stream a.toList ++ rest) = (a.toList, rest) := by
  cases a with
  | none =>
      show once F.poll rest = ([], rest)
      rw [once, F.poll_short rest h]
  | some a =>
      show once F.poll (F.enc a ++ [] ++ rest) = ([a], rest)
      rw [List.append_nil, once, F.poll_whole]
      rfl

/-- What is at hand of a stream, if it ends within a head, are the stream's first frames. -/
theorem split_stream {todo fs : List α} {rest later : List β} (h : rest.length < F.head)
    (hbytes : F.stream fs ++ rest ++ later = F.stream todo) :
    ∃ todo', todo = fs ++ todo' ∧ rest ++ later = F.stream todo' := by
  obtain ⟨done, todo', buf', hcut⟩ := F.exists_cut todo _ _ hbytes
  have hread := F.drainAll_whole fs h
  by_cases hshort : buf'.length < F.head
  · -- the loop reads both descriptions of the same bytes
    rw [hcut.bytes, F.drainAll_whole done hshort] at hread
    obtain ⟨rfl, rfl⟩ := Prod.mk.inj hread
    exact ⟨todo', hcut.frames, hcut.ahead⟩
  · obtain ⟨left, hpoll, hleft⟩ := hcut.poll_lost (by omega)
    rw [hcut.bytes, drainAll_stream, drainAll_eq, hpoll] at hread
    dsimp only at hread
    rw [List.append_nil] at hread
    obtain ⟨rfl, rfl⟩ := Prod.mk.inj hread
    have hlength := congrArg List.length hcut.bytes
    rw [List.length_append, List.length_append] at hlength
    omega

/-! ## When every frame comes out -/

/-- What a lossy pass over the remainder of a cut does to the whole run. -/
theorem Cut.not_all {reader : List β → List α × List β} (h : F.Thrifty reader)
    {todo done todo' : List α} {buf buf' left : List β} {arrivals : List (List β)}
    (hcut : F.Cut todo buf arrivals.flatten done todo' buf') (hleft : left.length < buf'.length) :
    done ++ (feed reader left arrivals).1 ≠ done ++ todo' := by
  rw [← hcut.frames]
  have hfs : buf.length + arrivals.flatten.length = (F.stream todo).length := by
    rw [hcut.frames, stream_append, List.length_append, ← hcut.ahead, hcut.bytes,
      List.length_append, List.length_append, Nat.add_assoc]
  refine F.not_all_of_lost h ?_ hfs
  rw [hcut.bytes, List.length_append]
  omega

/--
**A draining reader reports all frames exactly when no arrival ends inside a
frame behind its head.**
-/
theorem feed_drainAll_iff : ∀ (arrivals : List (List β)) (todo : List α) (buf : List β),
    buf ++ arrivals.flatten = F.stream todo → F.completed todo buf.length = 0 →
    ((feed (drainAll F.poll) buf arrivals).1 = todo ↔ F.HeadsUncut todo buf.length arrivals) := by
  intro arrivals
  induction arrivals with
  | nil =>
      intro todo buf hbytes hnone
      rw [List.flatten_nil, List.append_nil] at hbytes
      rw [F.eq_nil_of_completed hbytes hnone]
      exact ⟨fun _ => trivial, fun _ => rfl⟩
  | cons arrival arrivals ih =>
      intro todo buf hbytes hnone
      rw [List.flatten_cons, ← List.append_assoc] at hbytes
      obtain ⟨done, todo', buf', hcut⟩ := F.exists_cut todo _ _ hbytes
      have hlen : buf.length + arrival.length = (F.stream done).length + buf'.length := by
        rw [← List.length_append, hcut.bytes, List.length_append]
      rw [feed, hcut.bytes, drainAll_stream, HeadsUncut, hlen, hcut.frames, residual_append,
        hcut.residual_eq, headsUncut_append]
      dsimp only
      -- the whole frames are out; what decides is how much of the next one is there
      by_cases hshort : buf'.length < F.head
      · rw [F.drainAll_eq buf', F.poll_short buf' hshort]
        dsimp only
        rw [List.append_nil, List.append_cancel_left_eq, ih todo' buf' hcut.ahead hcut.completed_eq]
        exact ⟨fun h => ⟨hshort, h⟩, fun h => h.2⟩
      · -- the head is gone, and with it the chance to report everything
        obtain ⟨left, hpoll, hleft⟩ := hcut.poll_lost (by omega)
        rw [F.drainAll_eq buf', hpoll]
        dsimp only
        rw [List.append_nil]
        exact ⟨fun h => absurd h (hcut.not_all F F.drainAll_thrifty hleft),
          fun h => absurd h.1 hshort⟩

/--
**A single-pass reader to which each arrival brings at most one frame reports all
frames exactly when each arrival brings one or ends within a head.**
-/
theorem feed_once_iff : ∀ (arrivals : List (List β)) (todo : List α) (buf : List β),
    buf ++ arrivals.flatten = F.stream todo → F.completed todo buf.length = 0 →
    F.AtMostOneEach todo buf.length arrivals →
    ((feed (once F.poll) buf arrivals).1 = todo ↔ F.OneOrUncut todo buf.length arrivals) := by
  intro arrivals
  induction arrivals with
  | nil =>
      intro todo buf hbytes hnone _
      rw [List.flatten_nil, List.append_nil] at hbytes
      rw [F.eq_nil_of_completed hbytes hnone]
      exact ⟨fun _ => trivial, fun _ => rfl⟩
  | cons arrival arrivals ih =>
      intro todo buf hbytes hnone hmost
      rw [List.flatten_cons, ← List.append_assoc] at hbytes
      obtain ⟨done, todo', buf', hcut⟩ := F.exists_cut todo _ _ hbytes
      have hlen : buf.length + arrival.length = (F.stream done).length + buf'.length := by
        rw [← List.length_append, hcut.bytes, List.length_append]
      rw [AtMostOneEach, hnone, hlen, hcut.frames, completed_append, hcut.completed_eq,
        atMostOneEach_append] at hmost
      rw [feed, hcut.bytes, OneOrUncut, hnone, hlen, hcut.frames, completed_append,
        hcut.completed_eq, residual_append, hcut.residual_eq, oneOrUncut_append]
      have hih := ih todo' buf' hcut.ahead hcut.completed_eq hmost.2
      cases done with
      | nil =>
          -- no frame is complete, so the pass either waits or loses a head
          rw [stream, List.flatMap_nil, List.nil_append, List.nil_append, List.length_nil, once]
          by_cases hshort : buf'.length < F.head
          · rw [F.poll_short buf' hshort]
            dsimp only
            rw [List.nil_append, hih]
            exact ⟨fun h => ⟨Or.inr hshort, h⟩, fun h => h.2⟩
          · obtain ⟨left, hpoll, hleft⟩ := hcut.poll_lost (by omega)
            rw [hpoll]
            dsimp only
            exact ⟨fun h => absurd h (hcut.not_all F F.once_thrifty hleft),
              fun h => absurd h.1 (by omega)⟩
      | cons a done =>
          -- one frame, since there is at most one
          have hnil : done = [] := by
            cases done with
            | nil => rfl
            | cons b done => exact absurd hmost.1 (by simp)
          subst hnil
          rw [stream, List.flatMap_cons, List.flatMap_nil, List.append_nil, once, F.poll_whole]
          dsimp only
          rw [Option.toList_some, List.append_cancel_left_eq, hih]
          exact ⟨fun h => ⟨Or.inl rfl, h⟩, fun h => h.2⟩

/-- On arrivals of whole frames a single-pass reader reports one frame for each arrival. -/
theorem feed_once_groups : ∀ (groups : List (List α)) (pending : List α),
    (∀ g ∈ groups, g ≠ []) →
    feed (once F.poll) (F.stream pending) (groups.map F.stream)
      = ((pending ++ groups.flatten).take groups.length,
          F.stream ((pending ++ groups.flatten).drop groups.length)) := by
  intro groups
  induction groups with
  | nil => intro pending _; simp [feed]
  | cons g groups ih =>
      intro pending hne
      rw [List.map_cons, feed, ← stream_append, List.flatten_cons, List.length_cons]
      cases hpg : pending ++ g with
      | nil => exact absurd (List.append_eq_nil_iff.mp hpg).2 (hne g List.mem_cons_self)
      | cons a rest =>
          -- one frame goes, the others wait for the arrivals to come
          rw [stream, List.flatMap_cons, ← stream, once, F.poll_whole]
          dsimp only
          rw [ih rest fun g' hg' => hne g' (List.mem_cons_of_mem _ hg'), ← List.append_assoc, hpg]
          rfl

/-- Nonempty groups are no more than what is in them, and as many only if each is a single. -/
theorem length_le_flatten : ∀ {groups : List (List α)}, (∀ g ∈ groups, g ≠ []) →
    groups.length ≤ groups.flatten.length
      ∧ (groups.flatten.length ≤ groups.length ↔ ∀ g ∈ groups, g.length = 1) := by
  intro groups
  induction groups with
  | nil => intro _; simp
  | cons g groups ih =>
      intro hne
      obtain ⟨hle, hiff⟩ := ih fun g' hg' => hne g' (List.mem_cons_of_mem _ hg')
      have hpos : 0 < g.length := List.length_pos_iff.mpr (hne g List.mem_cons_self)
      rw [List.flatten_cons, List.length_append, List.length_cons, List.forall_mem_cons, ← hiff]
      omega

/--
**On arrivals of whole frames a single-pass reader reports them all exactly when
each arrival is one frame.**
-/
theorem feed_once_groups_iff {groups : List (List α)} (hne : ∀ g ∈ groups, g ≠ []) :
    (feed (once F.poll) [] (groups.map F.stream)).1 = groups.flatten
      ↔ ∀ g ∈ groups, g.length = 1 := by
  have hfeed := F.feed_once_groups groups [] hne
  rw [stream, List.flatMap_nil, List.nil_append] at hfeed
  rw [hfeed, List.take_eq_self_iff, (length_le_flatten hne).2]

end Framing

end Lib
