import Mathlib.Data.Nat.Bitwise
import Mathlib.Logic.Function.Basic
import SockEtOut.Lib.Run
import SockEtOut.Models.Basic

/-!
# The snowflake generator

A message's key packs a millisecond timestamp, a machine id, a process id and a
sequence number into sixty-four bits. The clock is not under the program's
control: `nextId` is given the readings it makes, the first on entry and the
others inside its wait loop, in order.

The bits of the timestamp above the forty-first are shifted out. That is the one
place where an id depends on how far the clock is from the epoch, and
`pack_toNat` says exactly how.
-/

namespace SockEtOut

/-- Milliseconds from the Unix epoch to the generator's own. -/
def epoch : Int := 1738022400000

def machineIdBits : Nat := 10

def processIdBits : Nat := 5

def sequenceBits : Nat := 8

def maxMachineId : Nat := 2 ^ machineIdBits - 1

def maxProcessId : Nat := 2 ^ processIdBits - 1

def maxSequence : Nat := 2 ^ sequenceBits - 1

/-- A generator, whose ids its constructor has checked and whose sequence is masked. -/
structure SnowflakeIDGenerator where
  machineId : Nat
  processId : Nat
  lastTimestamp : Int
  sequence : Nat
  machineId_le : machineId ≤ maxMachineId
  processId_le : processId ≤ maxProcessId
  sequence_le : sequence ≤ maxSequence

namespace SnowflakeIDGenerator

/-- The constructor: both ids must be in range. -/
def new (machineId processId : Int) : Except Exn SnowflakeIDGenerator :=
  if hm : machineId > maxMachineId ∨ machineId < 0 then
    .error (.runtimeError (lit "Machine ID out of range"))
  else if hp : processId > maxProcessId ∨ processId < 0 then
    .error (.runtimeError (lit "Process ID out of range"))
  else
    .ok
      { machineId := machineId.toNat
        processId := processId.toNat
        lastTimestamp := -1
        sequence := 0
        machineId_le := by omega
        processId_le := by omega
        sequence_le := Nat.zero_le _ }

/-- `get_instance()`: the one generator of the server process, built as `(1, 1)`. -/
def instance₀ : SnowflakeIDGenerator where
  machineId := 1
  processId := 1
  lastTimestamp := -1
  sequence := 0
  machineId_le := by decide
  processId_le := by decide
  sequence_le := by decide

example : (new 1 1).toOption = some instance₀ := rfl

/-- The value `nextId` returns, as the sixty-four bits of an `int64_t`. -/
def pack (g : SnowflakeIDGenerator) (timestamp : Int) (sequence : Nat) : BitVec 64 :=
  (BitVec.ofInt 64 (timestamp - epoch) <<< (machineIdBits + processIdBits + sequenceBits)) |||
    (BitVec.ofNat 64 g.machineId <<< (processIdBits + sequenceBits)) |||
    (BitVec.ofNat 64 g.processId <<< sequenceBits) ||| BitVec.ofNat 64 sequence

/-- `while (timestamp <= lastTimestamp) timestamp = currentTimestamp();` -/
def waitPast (lastTimestamp : Int) : List Int → Option Int
  | [] => none
  | timestamp :: readings =>
      if timestamp ≤ lastTimestamp then waitPast lastTimestamp readings else some timestamp

/-- `(sequence + 1) & maxSequence` -/
def nextSequence (g : SnowflakeIDGenerator) : Nat := (g.sequence + 1) &&& maxSequence

theorem nextSequence_le (g : SnowflakeIDGenerator) : g.nextSequence ≤ maxSequence :=
  Nat.and_le_right

/-- The generator once it has issued an id. -/
def issued (g : SnowflakeIDGenerator) (timestamp : Int) (sequence : Nat)
    (h : sequence ≤ maxSequence) : SnowflakeIDGenerator :=
  { g with lastTimestamp := timestamp, sequence := sequence, sequence_le := h }

/-- Draw the next id, given the clock readings the call makes. -/
def nextId (g : SnowflakeIDGenerator) :
    List Int → Outcome (BitVec 64) × SnowflakeIDGenerator
  | [] => (.waiting, g)
  | timestamp :: readings =>
      if timestamp < g.lastTimestamp then
        (.raised (.runtimeError (lit "Clock moved backwards")), g)
      else if timestamp = g.lastTimestamp then
        let g' := g.issued g.lastTimestamp g.nextSequence g.nextSequence_le
        if g.nextSequence = 0 then
          -- the numbers of this millisecond are used up
          match waitPast g.lastTimestamp readings with
          | none => (.waiting, g')
          | some timestamp =>
              (.returned (g.pack timestamp g.nextSequence),
                g.issued timestamp g.nextSequence g.nextSequence_le)
        else (.returned (g.pack timestamp g.nextSequence), g')
      else (.returned (g.pack timestamp 0), g.issued timestamp 0 (Nat.zero_le _))

/-! ## What an id is, as a number -/

theorem nextSequence_eq (g : SnowflakeIDGenerator) :
    g.nextSequence = if g.sequence = maxSequence then 0 else g.sequence + 1 := by
  have hle : g.sequence ≤ 255 := g.sequence_le
  have hmod : g.nextSequence = (g.sequence + 1) % 2 ^ sequenceBits :=
    Nat.and_two_pow_sub_one_eq_mod _ _
  rw [hmod, show sequenceBits = 8 from rfl, show maxSequence = 255 from rfl]
  split <;> omega

theorem or_field {a b i : Nat} (h : b < 2 ^ i) : a <<< i ||| b = a * 2 ^ i + b := by
  rw [← Nat.shiftLeft_add_eq_or_of_lt h, Nat.shiftLeft_eq]

/--
**What an id is.** Four fields side by side, the timestamp being the distance
from the epoch modulo `2 ^ 41`.
-/
theorem pack_toNat (g : SnowflakeIDGenerator) (timestamp : Int) {sequence : Nat}
    (hs : sequence ≤ maxSequence) :
    (g.pack timestamp sequence).toNat
      = ((timestamp - epoch) % 2 ^ 41).toNat * 2 ^ 23
        + (g.machineId * 2 ^ 13 + (g.processId * 2 ^ 8 + sequence)) := by
  have hm := g.machineId_le
  have hp := g.processId_le
  simp only [maxMachineId, machineIdBits, maxProcessId, processIdBits, maxSequence,
    sequenceBits] at hm hp hs
  have hseq : (BitVec.ofNat 64 sequence).toNat = sequence := by
    rw [BitVec.toNat_ofNat]; exact Nat.mod_eq_of_lt (by omega)
  have hproc : (BitVec.ofNat 64 g.processId <<< 8).toNat = g.processId <<< 8 := by
    rw [BitVec.toNat_shiftLeft, BitVec.toNat_ofNat,
      Nat.mod_eq_of_lt (by omega : g.processId < 2 ^ 64), Nat.shiftLeft_eq]
    exact Nat.mod_eq_of_lt (by omega)
  have hmach : (BitVec.ofNat 64 g.machineId <<< 13).toNat = g.machineId <<< 13 := by
    rw [BitVec.toNat_shiftLeft, BitVec.toNat_ofNat,
      Nat.mod_eq_of_lt (by omega : g.machineId < 2 ^ 64), Nat.shiftLeft_eq]
    exact Nat.mod_eq_of_lt (by omega)
  -- the one field that can lose bits to the shift
  have htime : (BitVec.ofInt 64 (timestamp - epoch) <<< 23).toNat
      = ((timestamp - epoch) % 2 ^ 41).toNat <<< 23 := by
    rw [BitVec.toNat_shiftLeft, BitVec.toNat_ofInt, Nat.shiftLeft_eq, Nat.shiftLeft_eq]
    omega
  show (BitVec.ofInt 64 (timestamp - epoch) <<< 23 ||| BitVec.ofNat 64 g.machineId <<< 13 |||
    BitVec.ofNat 64 g.processId <<< 8 ||| BitVec.ofNat 64 sequence).toNat = _
  rw [BitVec.toNat_or, BitVec.toNat_or, BitVec.toNat_or, hseq, hproc, hmach, htime,
    Nat.or_assoc, Nat.or_assoc, or_field (by omega : sequence < 2 ^ 8),
    or_field (by omega : g.processId * 2 ^ 8 + sequence < 2 ^ 13),
    or_field (by omega : g.machineId * 2 ^ 13 + (g.processId * 2 ^ 8 + sequence) < 2 ^ 23)]

/-! ## What a call can do -/

theorem waitPast_some {last t : Int} :
    ∀ {readings : List Int}, waitPast last readings = some t → t ∈ readings ∧ last < t
  | [], h => by exact absurd h (by simp [waitPast])
  | r :: rs, h => by
      rw [waitPast] at h
      split at h
      · obtain ⟨hm, hl⟩ := waitPast_some h
        exact ⟨List.mem_cons_of_mem _ hm, hl⟩
      · rename_i hr
        have hrt : r = t := Option.some.inj h
        subst hrt
        exact ⟨List.mem_cons_self, Int.not_le.mp hr⟩

/--
**What a returning call does.** It packs one of its readings with a sequence
number, and that pair is later than the last one issued: a later millisecond, or
the same one with a larger number.
-/
theorem nextId_returned {g g' : SnowflakeIDGenerator} {readings : List Int} {id : BitVec 64}
    (h : g.nextId readings = (.returned id, g')) :
    ∃ (t : Int) (q : Nat) (hq : q ≤ maxSequence),
      t ∈ readings ∧ id = g.pack t q ∧ g' = g.issued t q hq
        ∧ (g.lastTimestamp < t ∨ t = g.lastTimestamp ∧ g.sequence < q) := by
  cases readings with
  | nil => exact absurd h (by simp [nextId])
  | cons t rs =>
      rw [nextId] at h
      split at h
      · exact absurd h (by simp)
      · rename_i hlt
        split at h
        · rename_i heq
          dsimp only at h
          split at h
          · split at h
            · exact absurd h (by simp)
            · -- the numbers have run out, and the clock has moved on
              rename_i t' hw
              obtain ⟨hm, hl⟩ := waitPast_some hw
              injection h with h1 h2
              exact ⟨t', _, g.nextSequence_le, List.mem_cons_of_mem _ hm,
                (Outcome.returned.inj h1).symm, h2.symm, Or.inl hl⟩
          · -- the next number of the same millisecond
            rename_i hne
            injection h with h1 h2
            refine ⟨t, _, g.nextSequence_le, List.mem_cons_self, (Outcome.returned.inj h1).symm,
              by rw [heq]; exact h2.symm, Or.inr ⟨heq, ?_⟩⟩
            rw [nextSequence_eq] at hne ⊢
            split
            · rename_i hmax
              exact absurd (if_pos hmax) hne
            · exact Nat.lt_succ_self _
        · -- a later millisecond
          injection h with h1 h2
          exact ⟨t, 0, Nat.zero_le _, List.mem_cons_self, (Outcome.returned.inj h1).symm,
            h2.symm, Or.inl (by omega)⟩

/-- A call that throws leaves the generator as it was. -/
theorem nextId_raised {g g' : SnowflakeIDGenerator} {readings : List Int} {e : Exn}
    (h : g.nextId readings = (.raised e, g')) : g' = g := by
  cases readings with
  | nil => exact absurd h (by simp [nextId])
  | cons t rs =>
      rw [nextId] at h
      split at h
      · exact (Prod.mk.inj h).2.symm
      · split at h
        · dsimp only at h
          split at h
          · split at h
            · exact absurd h (by simp)
            · exact absurd h (by simp)
          · exact absurd h (by simp)
        · exact absurd h (by simp)

end SnowflakeIDGenerator

/-! ## Several generators -/

/-- The generators of several processes, and the ids they have returned, in order. -/
structure Generators (ι : Type*) where
  generator : ι → SnowflakeIDGenerator
  returned : List (ι × BitVec 64)

namespace Generators

variable {ι : Type*} [DecidableEq ι]

/-- The ids one generator has returned, in order. -/
def idsOf (s : Generators ι) (i : ι) : List (BitVec 64) :=
  (s.returned.filter fun p => p.1 = i).map Prod.snd

/--
A call of one generator's `nextId`, from its first clock reading to its last. It
holds that generator's mutex throughout, so the calls between its readings are of
other generators. One that is still waiting has not ended.
-/
def step (s : Generators ι) : ι × List Int → Option (Generators ι)
  | (i, readings) =>
      match (s.generator i).nextId readings with
      | (.returned id, g) => some ⟨Function.update s.generator i g, s.returned ++ [(i, id)]⟩
      | (.raised _, g) => some { s with generator := Function.update s.generator i g }
      | (.waiting, _) => none

/-- Any interleaving of calls of the generators, from where they start. -/
def system (start : ι → SnowflakeIDGenerator) : Lib.System (Generators ι) (ι × List Int) where
  init := ⟨start, []⟩
  step := step

end Generators

end SockEtOut
