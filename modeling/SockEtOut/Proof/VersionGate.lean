import Mathlib.Logic.Relation
import SockEtOut.Client.Reader
import SockEtOut.Proof.JsonRoundTrips
import SockEtOut.Server.Reader

/-!
# The version gate

A reader that finds another version in a header returns. It has taken the four
bytes of the header by then and not the payload, so the next pass starts inside
that payload and may find there what looks like a header of its own version.

Where the passes start depends on the bytes of the stream and on how many of them
have arrived at each call, and `nextPass` says how: four bytes on when there is no
whole frame of the reader's version to take, behind the frame when there is one.
Nothing is dispatched exactly when no pass starts at such a frame whose operation
has a case.
-/

namespace SockEtOut.Proof

open Lib

/-- The operation has a case in the readers' switches. -/
def hasCase (operation : UInt8) : Bool := (Operation.ofCode operation).any Operation.handled

/-- The header of a whole frame of the reader's own version at the front of the bytes at hand. -/
def ownFrame (b : Build) (buf : List UInt8) : Option Header :=
  (Header.deserialize buf).filter fun h =>
    h.version = b.protocolVersion ∧ Header.size + h.packetLength.toNat ≤ buf.length

/-- The bytes at hand for a pass that starts at `p` when `t` bytes of the stream have arrived. -/
def unread (stream : List UInt8) (p t : Nat) : List UInt8 := (stream.take t).drop p

/-- How many bytes have arrived at each call, `t` being there before. -/
def ends : Nat → List (List UInt8) → List Nat
  | _, [] => []
  | t, arrival :: arrivals => (t + arrival.length) :: ends (t + arrival.length) arrivals

/--
Where the pass after one at `p` starts, and the calls it can belong to. One that
takes a frame is followed by another in the same call if the reader loops.
-/
def nextPass (b : Build) (loops : Bool) (stream : List UInt8) (p t : Nat) (ts : List Nat) :
    Nat × List Nat :=
  if t < p + Header.size then (p, ts)
  else
    match ownFrame b (unread stream p t) with
    | none => (p + Header.size, ts)
    | some h =>
        (p + (Header.size + h.packetLength.toNat), if loops = true then t :: ts else ts)

/-- From pass to pass. -/
def Goes (b : Build) (loops : Bool) (stream : List UInt8) (c c' : Nat × List Nat) : Prop :=
  ∃ p t ts, c = (p, t :: ts) ∧ c' = nextPass b loops stream p t ts

/-- From `c` on, no pass starts at a whole frame of the reader's version with a case. -/
def Unmet (b : Build) (loops : Bool) (stream : List UInt8) (c : Nat × List Nat) : Prop :=
  ∀ p t ts h, Relation.ReflTransGen (Goes b loops stream) c (p, t :: ts) →
    ownFrame b (unread stream p t) = some h → hasCase h.operation = false

/-! ## One pass -/

theorem dispatch_eq_none_iff {operation : UInt8} {msg : List UInt8} (hlen : msg.length < 2 ^ 16) :
    dispatch operation msg = none ↔ hasCase operation = false := by
  rw [dispatch, hasCase]
  cases Operation.ofCode operation with
  | none => exact iff_of_true rfl rfl
  | some op =>
      dsimp only
      rw [Option.any_some]
      by_cases h : op.handled = true
      · rw [dif_pos ⟨h, hlen⟩]
        exact iff_of_false (by simp) (by simp [h])
      · rw [dif_neg fun hboth => h hboth.1]
        simpa using h

theorem deserialize_eq_none_iff {buf : List UInt8} :
    Header.deserialize buf = none ↔ buf.length < Header.size := by
  rw [Header.deserialize.eq_def]
  split
  · simp only [List.length_cons, Header.size, reduceCtorEq, false_iff]
    omega
  · rename_i hshort
    refine iff_of_true rfl ?_
    match buf, hshort with
    | [], _ | [_], _ | [_, _], _ | [_, _, _], _ => simp [Header.size]
    | b₀ :: b₁ :: b₂ :: b₃ :: rest, hshort => exact absurd rfl (hshort b₀ b₁ b₂ b₃ rest)

theorem ownFrame_short {b : Build} {buf : List UInt8} (h : buf.length < Header.size) :
    ownFrame b buf = none := by
  rw [ownFrame, deserialize_eq_none_iff.mpr h, Option.filter_none]

/-- A header depends on the first four bytes. -/
theorem deserialize_take {buf : List UInt8} {n : Nat} (h : Header.size ≤ n) :
    Header.deserialize (buf.take n) = Header.deserialize buf := by
  obtain ⟨m, rfl⟩ := Nat.exists_eq_add_of_le' h
  match buf with
  | [] | [_] | [_, _] | [_, _, _] => simp [Header.deserialize, Header.size]
  | b₀ :: b₁ :: b₂ :: b₃ :: rest => simp [Header.deserialize, Header.size]

/-- What a pass does, in terms of the frame at the front. -/
theorem readFrame_eq (b : Build) (buf : List UInt8) :
    readFrame b buf =
      if buf.length < Header.size then .idle
      else
        match ownFrame b buf with
        | none => .lost (buf.drop Header.size)
        | some h =>
            .item (dispatch h.operation ((buf.drop Header.size).take h.packetLength.toNat))
              (buf.drop (Header.size + h.packetLength.toNat)) := by
  by_cases hshort : buf.length < Header.size
  · rw [readFrame_short b hshort, if_pos hshort]
  · have hrest : (buf.drop Header.size).length = buf.length - Header.size := List.length_drop
    rw [readFrame, if_neg hshort, if_neg hshort, ownFrame, deserialize_take (Nat.le_refl _)]
    cases hh : Header.deserialize buf with
    | none => exact absurd (deserialize_eq_none_iff.mp hh) hshort
    | some h =>
        dsimp only
        by_cases hv : h.version = b.protocolVersion
        · rw [if_neg (not_not_intro hv), awaitPayload_eq]
          by_cases hwhole : Header.size + h.packetLength.toNat ≤ buf.length
          · rw [Option.filter_some_pos (by simp [hv, hwhole]), if_neg (by simp; omega),
              List.drop_drop]
          · rw [Option.filter_some_neg (by simp [hwhole]), if_pos (by simp; omega)]
        · rw [if_pos hv, Option.filter_some_neg (by simp [hv])]

/-! ## From pass to pass -/

variable {b : Build} {loops : Bool} {stream : List UInt8}

/-- The first pass and what follows it. -/
theorem unmet_cons {p t : Nat} {ts : List Nat} :
    Unmet b loops stream (p, t :: ts)
      ↔ (∀ h, ownFrame b (unread stream p t) = some h → hasCase h.operation = false)
        ∧ Unmet b loops stream (nextPass b loops stream p t ts) := by
  constructor
  · intro h
    refine ⟨fun header hown => h p t ts header .refl hown, ?_⟩
    intro q t' ts' header hreach hown
    exact h q t' ts' header (hreach.head ⟨p, t, ts, rfl, rfl⟩) hown
  · rintro ⟨hfirst, hlater⟩ q t' ts' header hreach hown
    rcases hreach.cases_head with heq | ⟨c, ⟨p', t₀, ts₀, hc, rfl⟩, hrest⟩
    · cases heq
      exact hfirst header hown
    · cases hc
      exact hlater q t' ts' header hrest hown

theorem unmet_nil (p : Nat) : Unmet b loops stream (p, []) := by
  intro q t ts header hreach
  rcases hreach.cases_head with heq | ⟨c, ⟨p', t₀, ts₀, hc, -⟩, -⟩
  · cases heq
  · cases hc

theorem unmet_short {p t : Nat} {ts : List Nat} (ht : t ≤ stream.length)
    (h : t < p + Header.size) :
    Unmet b loops stream (p, t :: ts) ↔ Unmet b loops stream (p, ts) := by
  have hnone : ownFrame b (unread stream p t) = none := by
    have hpos : 0 < Header.size := by decide
    refine ownFrame_short ?_
    rw [unread, List.length_drop, List.length_take]
    omega
  rw [unmet_cons, nextPass, if_pos h, hnone]
  exact and_iff_right fun header hown => absurd hown (by simp)

theorem unmet_none {p t : Nat} {ts : List Nat} (h : ¬ t < p + Header.size)
    (hnone : ownFrame b (unread stream p t) = none) :
    Unmet b loops stream (p, t :: ts) ↔ Unmet b loops stream (p + Header.size, ts) := by
  rw [unmet_cons, nextPass, if_neg h, hnone]
  exact and_iff_right fun header hown => absurd hown (by simp)

theorem unmet_some {p t : Nat} {ts : List Nat} {header : Header} (h : ¬ t < p + Header.size)
    (hsome : ownFrame b (unread stream p t) = some header) :
    Unmet b loops stream (p, t :: ts)
      ↔ hasCase header.operation = false
        ∧ Unmet b loops stream
          (p + (Header.size + header.packetLength.toNat),
            if loops = true then t :: ts else ts) := by
  rw [unmet_cons, nextPass, if_neg h, hsome]
  refine and_congr_left fun _ => ⟨fun hall => hall header rfl, fun hcase other hother => ?_⟩
  cases hother
  exact hcase

/-! ## The bytes at hand -/

theorem length_unread {p t : Nat} (ht : t ≤ stream.length) :
    (unread stream p t).length = t - p := by
  rw [unread, List.length_drop, List.length_take, Nat.min_eq_left ht]

theorem drop_unread (p t n : Nat) : (unread stream p t).drop n = unread stream (p + n) t := by
  rw [unread, List.drop_drop, unread]

/-- An arrival is added to what was left. -/
theorem unread_append {p t : Nat} {arrival later : List UInt8} (hp : p ≤ t)
    (ht : t ≤ stream.length) (h : stream.drop t = arrival ++ later) :
    unread stream p t ++ arrival = unread stream p (t + arrival.length) := by
  rw [unread, unread, List.take_add, h, List.take_left, List.drop_append_of_le_length]
  rw [List.length_take]
  omega

/-- Neither does the payload of a frame that is there exceed what a length can say. -/
theorem length_payload (buf : List UInt8) (header : Header) :
    (buf.take header.packetLength.toNat).length < 2 ^ 16 := by
  have hlt : header.packetLength.toNat < 2 ^ 16 := header.packetLength.toNat_lt
  rw [List.length_take]
  omega

theorem size_le_of_ownFrame {buf : List UInt8} {header : Header}
    (h : ownFrame b buf = some header) :
    Header.size + header.packetLength.toNat ≤ buf.length := by
  rw [ownFrame, Option.filter_eq_some_iff] at h
  exact (of_decide_eq_true h.2).2

/-- The stream from byte `t` on is what arrives after it. -/
structure Arriving (stream : List UInt8) (t : Nat) (arrivals : List (List UInt8)) : Prop where
  le : t ≤ stream.length
  rest : stream.drop t = arrivals.flatten

theorem Arriving.tail {t : Nat} {arrival : List UInt8} {arrivals : List (List UInt8)}
    (h : Arriving stream t (arrival :: arrivals)) :
    Arriving stream (t + arrival.length) arrivals := by
  have hrest := h.rest
  rw [List.flatten_cons] at hrest
  have hlen := congrArg List.length hrest
  rw [List.length_drop, List.length_append] at hlen
  refine ⟨by have := h.le; omega, ?_⟩
  rw [← List.drop_drop, hrest, List.drop_left]

/-! ## A single pass, and a loop -/

theorem once_quiet_iff : ∀ {arrivals : List (List UInt8)} {p t : Nat}, p ≤ t →
    Arriving stream t arrivals →
    ((feed (once (readFrame b)) (unread stream p t) arrivals).1 = []
      ↔ Unmet b false stream (p, ends t arrivals)) := by
  intro arrivals
  induction arrivals with
  | nil => intro p t _ _; exact iff_of_true rfl (unmet_nil p)
  | cons arrival arrivals ih =>
      intro p t hp harriving
      have hlater := harriving.tail
      have hlen : (unread stream p (t + arrival.length)).length = t + arrival.length - p :=
        length_unread hlater.le
      rw [feed, unread_append hp harriving.le harriving.rest, ends, List.append_eq_nil_iff,
        once, readFrame_eq, hlen]
      by_cases hshort : t + arrival.length < p + Header.size
      · rw [if_pos (by omega), unmet_short hlater.le hshort, ← ih (by omega) hlater]
        exact and_iff_right rfl
      · rw [if_neg (by omega)]
        cases hown : ownFrame b (unread stream p (t + arrival.length)) with
        | none =>
            rw [unmet_none hshort hown, ← ih (by omega) hlater, drop_unread]
            exact and_iff_right rfl
        | some header =>
            have hsize := size_le_of_ownFrame hown
            rw [hlen] at hsize
            rw [unmet_some hshort hown, if_neg (by simp), ← ih (by omega) hlater,
              ← dispatch_eq_none_iff (length_payload _ header), ← Option.toList_eq_nil_iff]
            dsimp only
            rw [drop_unread p _ (Header.size + header.packetLength.toNat)]

/-- The loop, as a loop. -/
theorem loop_eq (buf : List UInt8) :
    drainAll (readFrame b) buf =
      match readFrame b buf with
      | .idle => ([], buf)
      | .lost rest => ([], rest)
      | .item f rest =>
          (f.toList ++ (drainAll (readFrame b) rest).1, (drainAll (readFrame b) rest).2) := by
  have heq := (framing b).drainAll_eq buf
  rw [show (framing b).poll = readFrame b from rfl] at heq
  rw [heq]
  cases readFrame b buf <;> rfl

/-- One call of the loop, if what it leaves is as `ih` says. -/
theorem loop_call_iff {arrivals : List (List UInt8)} {t : Nat} (ht : t ≤ stream.length)
    (ih : ∀ p, p ≤ t → ((feed (drainAll (readFrame b)) (unread stream p t) arrivals).1 = []
      ↔ Unmet b true stream (p, ends t arrivals))) :
    ∀ (n p : Nat), p ≤ t → t - p ≤ n →
      ((drainAll (readFrame b) (unread stream p t)).1 = []
          ∧ (feed (drainAll (readFrame b)) (drainAll (readFrame b) (unread stream p t)).2
            arrivals).1 = []
        ↔ Unmet b true stream (p, t :: ends t arrivals)) := by
  intro n
  have hpos : 0 < Header.size := by decide
  induction n with
  | zero =>
      intro p hp hn
      have hlen := length_unread (p := p) ht
      rw [loop_eq, readFrame_short b (by omega), unmet_short ht (by omega), ← ih p hp]
      exact and_iff_right rfl
  | succ n ihn =>
      intro p hp hn
      have hlen := length_unread (p := p) ht
      rw [loop_eq, readFrame_eq, hlen]
      by_cases hshort : t < p + Header.size
      · rw [if_pos (by omega), unmet_short ht hshort, ← ih p hp]
        exact and_iff_right rfl
      · rw [if_neg (by omega)]
        cases hown : ownFrame b (unread stream p t) with
        | none =>
            rw [unmet_none hshort hown, ← ih _ (by omega), drop_unread]
            exact and_iff_right rfl
        | some header =>
            have hsize := size_le_of_ownFrame hown
            rw [hlen] at hsize
            rw [unmet_some hshort hown, if_pos rfl, ← ihn _ (by omega) (by omega),
              ← dispatch_eq_none_iff (length_payload _ header), ← Option.toList_eq_nil_iff]
            dsimp only
            rw [drop_unread p _ (Header.size + header.packetLength.toNat), List.append_eq_nil_iff,
              and_assoc]

theorem loop_quiet_iff : ∀ {arrivals : List (List UInt8)} {p t : Nat}, p ≤ t →
    Arriving stream t arrivals →
    ((feed (drainAll (readFrame b)) (unread stream p t) arrivals).1 = []
      ↔ Unmet b true stream (p, ends t arrivals)) := by
  intro arrivals
  induction arrivals with
  | nil => intro p t _ _; exact iff_of_true rfl (unmet_nil p)
  | cons arrival arrivals ih =>
      intro p t hp harriving
      have hlater := harriving.tail
      rw [feed, unread_append hp harriving.le harriving.rest, ends, List.append_eq_nil_iff]
      exact loop_call_iff hlater.le (fun q hq => ih hq hlater) _ p (by omega) (Nat.le_refl _)

/-! ## Streams of another version -/

/-- A frame of another version, of whatever operation. -/
structure ForeignFrame (b : Build) where
  /-- The version's four bits, and four that no reader looks at. -/
  first : UInt8
  operation : UInt8
  payload : List UInt8
  foreign : first >>> 4 ≠ b.protocolVersion
  length_lt : payload.length < 2 ^ 16

/-- The bytes of such a frame, the length high byte first. -/
def ForeignFrame.bytes (f : ForeignFrame b) : List UInt8 :=
  [f.first, f.operation, (UInt16.ofNat f.payload.length >>> 8).toUInt8,
    (UInt16.ofNat f.payload.length &&& 0xFF).toUInt8] ++ f.payload

/-- Each group of frames arrives in one piece. -/
def arrivalsOf {ι : Type} (groups : List (ι × List (ForeignFrame b))) : List (ι × List UInt8) :=
  groups.map fun group => (group.1, group.2.flatMap ForeignFrame.bytes)

/-- The pieces without what they find. -/
def piecesOf {ι : Type} (groups : List (ι × List (ForeignFrame b))) : List (List UInt8) :=
  (arrivalsOf groups).map Prod.snd

/--
**The version gate.** To a stream of frames of another version, in whatever
pieces, a reader dispatches nothing exactly when none of its passes starts where
some payload has a whole frame of the reader's version with a case.
-/
theorem version_gate_iff [Nlohmann] [External] (e : Endian) (conn : Nat)
    (groups : List (ClientHandler.Found × List (ForeignFrame b)))
    (groups' : List (TcpClient.Found × List (ForeignFrame b))) :
    ((serve (ClientHandler.reads b e conn) (arrivalsOf groups)).1 = []
        ↔ Unmet b false (piecesOf groups).flatten (0, ends 0 (piecesOf groups)))
      ∧ ((serve (TcpClient.reads b e) (arrivalsOf groups')).1 = []
        ↔ Unmet b true (piecesOf groups').flatten (0, ends 0 (piecesOf groups'))) := by
  refine ⟨?_, ?_⟩
  · rw [serve, ClientHandler.reads_eq, Framing.feedWith_nil_iff]
    exact once_quiet_iff (Nat.le_refl 0) ⟨Nat.zero_le _, List.drop_zero⟩
  · rw [serve, TcpClient.reads_eq, Framing.feedWith_nil_iff]
    exact loop_quiet_iff (Nat.le_refl 0) ⟨Nat.zero_le _, List.drop_zero⟩

/-- An arrival has room for a header. -/
theorem size_le_arrival {ι : Type} {groups : List (ι × List (ForeignFrame b))}
    (hne : ∀ g ∈ groups, g.2 ≠ []) : ∀ arrival ∈ piecesOf groups, Header.size ≤ arrival.length := by
  intro arrival hin
  rw [piecesOf, arrivalsOf, List.map_map] at hin
  obtain ⟨group, hgroup, rfl⟩ := List.mem_map.mp hin
  have hgroup' := hne group hgroup
  rw [Function.comp_apply]
  cases hfs : group.2 with
  | nil => exact absurd hfs hgroup'
  | cons f fs =>
      rw [List.flatMap_cons, ForeignFrame.bytes, List.length_append, List.length_append]
      exact Nat.le_trans (Nat.le_refl 4) (by simp; omega)

/-- No pass meets anything if the first word of each call's bytes is of another version. -/
theorem unmet_of_words : ∀ {arrivals : List (List UInt8)} {p t : Nat}, p ≤ t →
    Arriving stream t arrivals → (∀ arrival ∈ arrivals, Header.size ≤ arrival.length) →
    (∀ k < arrivals.length, ∀ h, Header.deserialize (stream.drop (p + Header.size * k)) = some h →
      h.version ≠ b.protocolVersion) →
    Unmet b loops stream (p, ends t arrivals) := by
  intro arrivals
  induction arrivals with
  | nil => intro p t _ _ _ _; exact unmet_nil p
  | cons arrival arrivals ih =>
      intro p t hp harriving hsize hwords
      have hroom := hsize arrival List.mem_cons_self
      have hnone : ownFrame b (unread stream p (t + arrival.length)) = none := by
        rw [ownFrame, Option.filter_eq_none_iff]
        intro h hh
        rw [unread, List.drop_take, deserialize_take (by omega)] at hh
        have hforeign := hwords 0 (Nat.succ_pos _) h (by rw [Nat.mul_zero, Nat.add_zero]; exact hh)
        simp [hforeign]
      rw [ends, unmet_none (by omega) hnone]
      refine ih (by omega) harriving.tail (fun a ha => hsize a (List.mem_cons_of_mem _ ha)) ?_
      intro k hk h hh
      refine hwords (k + 1) (by rw [List.length_cons]; omega) h ?_
      rw [Nat.mul_succ, Nat.add_comm (Header.size * k), ← Nat.add_assoc]
      exact hh

/--
**The gate holds on words.** If none of the stream's first words, one for each
arrival, is a header of the reader's version, nothing is dispatched.
-/
theorem version_gate_of_words {ι : Type} {groups : List (ι × List (ForeignFrame b))}
    (hne : ∀ g ∈ groups, g.2 ≠ [])
    (hwords : ∀ k < groups.length, ∀ h,
      Header.deserialize ((piecesOf groups).flatten.drop (Header.size * k)) = some h →
        h.version ≠ b.protocolVersion) :
    Unmet b loops (piecesOf groups).flatten (0, ends 0 (piecesOf groups)) := by
  refine unmet_of_words (Nat.le_refl 0) ⟨Nat.zero_le _, List.drop_zero⟩ (size_le_arrival hne) ?_
  intro k hk
  rw [Nat.zero_add]
  exact hwords k (by rwa [piecesOf, arrivalsOf, List.length_map, List.length_map] at hk)

/-- A login of the other build's version whose payload is a whole frame of this one's. -/
def smuggled : ForeignFrame .custom where
  first := 0x24
  operation := 1
  payload := [0x14, 0, 0, 6, 1, 97, 1, 97, 1, 97]
  foreign := by decide
  length_lt := by decide

/-- A frame of the other version without a payload. -/
def bare : ForeignFrame .custom where
  first := 0x24
  operation := 1
  payload := []
  foreign := by decide
  length_lt := by decide

/-- What is in `smuggled`. -/
def smuggledFrame : Frame where
  operation := .registerAccount
  payload := [1, 97, 1, 97, 1, 97]
  handled := rfl
  length_lt := by decide

/--
Frames of another version are dispatched by either reader: the second call starts
inside the first frame's payload.
-/
theorem version_gate_open :
    (¬ ∀ groups : List (ClientHandler.Found × List (ForeignFrame .custom)),
        (∀ g ∈ groups, g.2 ≠ []) →
        (serve (@ClientHandler.reads plainJson .sample .custom .little 0) (arrivalsOf groups)).1
          = [])
      ∧ ¬ ∀ groups : List (TcpClient.Found × List (ForeignFrame .custom)),
        (∀ g ∈ groups, g.2 ≠ []) →
        (serve (@TcpClient.reads plainJson .custom .little) (arrivalsOf groups)).1 = [] := by
  refine ⟨fun h => ?_, fun h => ?_⟩
  · have hserver : (serve (@ClientHandler.reads plainJson .sample .custom .little 0)
        (arrivalsOf [(.new, [smuggled]), (.new, [bare])])).1 = [smuggledFrame] := by decide
    rw [h _ (by simp)] at hserver
    cases hserver
  · have hclient : (serve (@TcpClient.reads plainJson .custom .little)
        (arrivalsOf [(.new, [smuggled]), (.new, [bare])])).1 = [smuggledFrame] := by decide
    rw [h _ (by simp)] at hclient
    cases hclient

end SockEtOut.Proof
