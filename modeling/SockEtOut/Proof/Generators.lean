import SockEtOut.Proof.History

/-!
# Ids of several generators

While the clock stays within `2 ^ 40` milliseconds of the epoch an id is, as a
signed number, its four fields side by side (`pack_toInt`): no shift loses a bit,
a clock before the epoch included. Different fields then give different ids, and
later stamps larger ones.

`IssuedInv` is the invariant: every returned id was packed by its generator from a
stamp no later than that generator's last. A new stamp is later than the last, so
the id is larger than the ones the same generator returned; and the ids of other
generators differ in the machine or the process field, whatever their stamps.
-/

namespace SockEtOut.Proof

open Lib System SnowflakeIDGenerator

/-- A clock reading whose distance from the epoch fits into forty bits. -/
def NearEpoch (t : Int) : Prop := (t - epoch).natAbs < 2 ^ 40

instance (t : Int) : Decidable (NearEpoch t) :=
  inferInstanceAs (Decidable ((t - epoch).natAbs < 2 ^ 40))

/-- The shifts of `nextId` lose nothing: each gives the product it stands for. -/
def ShiftsExact (g : SnowflakeIDGenerator) (t : Int) : Prop :=
  (BitVec.ofInt 64 (t - epoch) <<< (machineIdBits + processIdBits + sequenceBits)).toInt
      = (t - epoch) * 2 ^ 23
    ∧ (BitVec.ofNat 64 g.machineId <<< (processIdBits + sequenceBits)).toInt
      = g.machineId * 2 ^ 13
    ∧ (BitVec.ofNat 64 g.processId <<< sequenceBits).toInt = g.processId * 2 ^ 8

/-! ## Ids as signed numbers -/

theorem shiftsExact {g : SnowflakeIDGenerator} {t : Int} (ht : NearEpoch t) :
    ShiftsExact g t := by
  have hm : g.machineId ≤ 1023 := g.machineId_le
  have hp : g.processId ≤ 31 := g.processId_le
  unfold NearEpoch at ht
  refine ⟨?_, ?_, ?_⟩
  · show (BitVec.ofInt 64 (t - epoch) <<< 23).toInt = _
    rw [BitVec.toInt_shiftLeft, BitVec.toNat_ofInt, Nat.shiftLeft_eq, Int.bmod_def]
    push_cast
    omega
  · show (BitVec.ofNat 64 g.machineId <<< 13).toInt = _
    rw [BitVec.toInt_shiftLeft, BitVec.toNat_ofNat, Nat.shiftLeft_eq, Int.bmod_def]
    push_cast
    omega
  · show (BitVec.ofNat 64 g.processId <<< 8).toInt = _
    rw [BitVec.toInt_shiftLeft, BitVec.toNat_ofNat, Nat.shiftLeft_eq, Int.bmod_def]
    push_cast
    omega

/-- **What an id is, signed.** The fields side by side, with no modulus left. -/
theorem pack_toInt (g : SnowflakeIDGenerator) {t : Int} {q : Nat} (ht : NearEpoch t)
    (hq : q ≤ maxSequence) :
    (g.pack t q).toInt
      = (t - epoch) * 2 ^ 23 + (g.machineId * 2 ^ 13 + (g.processId * 2 ^ 8 + q)) := by
  have hm : g.machineId ≤ 1023 := g.machineId_le
  have hp : g.processId ≤ 31 := g.processId_le
  have hq' : q ≤ 255 := hq
  unfold NearEpoch at ht
  rw [BitVec.toInt_eq_toNat_cond, pack_toNat g t hq]
  push_cast
  split <;> omega

/-- Equal ids have equal fields, whichever generators packed them. -/
theorem pack_fields {g g' : SnowflakeIDGenerator} {t t' : Int} {q q' : Nat} (ht : NearEpoch t)
    (ht' : NearEpoch t') (hq : q ≤ maxSequence) (hq' : q' ≤ maxSequence)
    (h : g.pack t q = g'.pack t' q') :
    g.machineId = g'.machineId ∧ g.processId = g'.processId := by
  have hint := congrArg BitVec.toInt h
  rw [pack_toInt g ht hq, pack_toInt g' ht' hq'] at hint
  have hp : g.processId ≤ 31 := g.processId_le
  have hp' : g'.processId ≤ 31 := g'.processId_le
  have hlow := lowBits_lt g hq
  have hlow' := lowBits_lt g' hq'
  have hq₁ : q ≤ 255 := hq
  have hq₂ : q' ≤ 255 := hq'
  omega

/-- Later stamps give larger ids, as signed numbers. -/
theorem pack_toInt_lt (g : SnowflakeIDGenerator) {t t' : Int} {q q' : Nat} (ht : NearEpoch t)
    (ht' : NearEpoch t') (hq : q ≤ maxSequence) (hq' : q' ≤ maxSequence)
    (h : t < t' ∨ t = t' ∧ q < q') : (g.pack t q).toInt < (g.pack t' q').toInt := by
  rw [pack_toInt g ht hq, pack_toInt g ht' hq']
  have hlow := lowBits_lt g hq
  rcases h with hlt | ⟨rfl, hlt⟩ <;> omega

/-- What the constructor checks and stores. -/
theorem new_ok {machineId processId : Int} {g : SnowflakeIDGenerator}
    (h : SnowflakeIDGenerator.new machineId processId = .ok g) :
    (g.machineId : Int) = machineId ∧ (g.processId : Int) = processId := by
  unfold SnowflakeIDGenerator.new at h
  split at h
  · cases h
  · split at h
    · cases h
    · cases h
      exact ⟨Int.toNat_of_nonneg (by omega), Int.toNat_of_nonneg (by omega)⟩

/-! ## The ids returned in a run -/

variable {ι : Type*} [DecidableEq ι] {start : ι → SnowflakeIDGenerator}

/-- The clock readings of a call are all near the epoch. -/
def ReadingsNear (_ : Generators ι) (call : ι × List Int) : Prop :=
  ∀ t ∈ call.2, NearEpoch t

instance (s : Generators ι) (call : ι × List Int) : Decidable (ReadingsNear s call) :=
  inferInstanceAs (Decidable (∀ t ∈ call.2, NearEpoch t))

/-- Where a returned id comes from, and how the ids of one generator stand to each other. -/
structure IssuedInv (start : ι → SnowflakeIDGenerator) (s : Generators ι) : Prop where
  /-- No call changes what tells the generators apart. -/
  ids : ∀ i, (s.generator i).machineId = (start i).machineId
    ∧ (s.generator i).processId = (start i).processId
  /-- A returned id was packed from a stamp no later than the last of its generator. -/
  stamped : ∀ p ∈ s.returned, ∃ (t : Int) (q : Nat), NearEpoch t ∧ q ≤ maxSequence
    ∧ p.2 = (start p.1).pack t q
    ∧ (t < (s.generator p.1).lastTimestamp
        ∨ t = (s.generator p.1).lastTimestamp ∧ q ≤ (s.generator p.1).sequence)
  ordered : ∀ i, (s.idsOf i).Pairwise fun a b => a.toInt < b.toInt
  distinct : (s.returned.map Prod.snd).Nodup

theorem issuedInv_init : IssuedInv start (Generators.system start).init where
  ids _ := ⟨rfl, rfl⟩
  stamped _ hp := absurd hp List.not_mem_nil
  ordered _ := List.Pairwise.nil
  distinct := List.nodup_nil

/-- Ids depend on a generator through its two ids only. -/
theorem pack_congr {g g' : SnowflakeIDGenerator} (hm : g.machineId = g'.machineId)
    (hp : g.processId = g'.processId) (t : Int) (q : Nat) : g.pack t q = g'.pack t q := by
  unfold SnowflakeIDGenerator.pack
  rw [hm, hp]

/-- A call that ends is one that throws and changes nothing, or one that returns a later stamp. -/
theorem generators_step_cases {s s' : Generators ι} {i : ι} {readings : List Int}
    (hs : s.step (i, readings) = some s') :
    s' = s ∨ ∃ (t : Int) (q : Nat) (hq : q ≤ maxSequence), t ∈ readings
      ∧ s' = ⟨Function.update s.generator i ((s.generator i).issued t q hq),
          s.returned ++ [(i, (s.generator i).pack t q)]⟩
      ∧ ((s.generator i).lastTimestamp < t
          ∨ t = (s.generator i).lastTimestamp ∧ (s.generator i).sequence < q) := by
  rw [Generators.step] at hs
  cases hcall : (s.generator i).nextId readings with
  | mk outcome g =>
      rw [hcall] at hs
      cases outcome with
      | returned id =>
          obtain ⟨t, q, hq, hmem, rfl, rfl, hafter⟩ := nextId_returned hcall
          exact Or.inr ⟨t, q, hq, hmem, (Option.some.inj hs).symm, hafter⟩
      | raised e =>
          refine Or.inl ?_
          rw [← Option.some.inj hs, nextId_raised hcall, Function.update_eq_self]
      | waiting => exact absurd hs (by simp)

@[simp] theorem idsOf_append (s : Generators ι) (generator : ι → SnowflakeIDGenerator) (i j : ι)
    (id : BitVec 64) :
    Generators.idsOf ⟨generator, s.returned ++ [(i, id)]⟩ j
      = s.idsOf j ++ if i = j then [id] else [] := by
  unfold Generators.idsOf
  rw [List.filter_append, List.map_append]
  by_cases h : i = j <;> simp [h]

theorem issuedInv_step (hdist : ∀ i j, i ≠ j →
      (start i).machineId ≠ (start j).machineId ∨ (start i).processId ≠ (start j).processId)
    {s s' : Generators ι} {call : ι × List Int} (h : IssuedInv start s)
    (hnear : ReadingsNear s call) (hs : s.step call = some s') : IssuedInv start s' := by
  obtain ⟨i, readings⟩ := call
  rcases generators_step_cases hs with rfl | ⟨t, q, hq, hmem, rfl, hafter⟩
  · exact h
  have ht : NearEpoch t := hnear t hmem
  have hpack : (s.generator i).pack t q = (start i).pack t q :=
    pack_congr (h.ids i).1 (h.ids i).2 t q
  -- the new id is above those of its own generator and unlike those of the others
  have habove : ∀ p ∈ s.returned, p.1 = i → p.2.toInt < ((start i).pack t q).toInt := by
    rintro ⟨j, id⟩ hp rfl
    obtain ⟨t₀, q₀, ht₀, hq₀, hid, hlast⟩ := h.stamped _ hp
    dsimp only at hid hlast hafter ⊢
    rw [hid]
    exact pack_toInt_lt _ ht₀ ht hq₀ hq (by omega)
  have hnew : ∀ p ∈ s.returned, p.2 ≠ (start i).pack t q := by
    intro p hp heq
    by_cases hi : p.1 = i
    · have hlt := habove p hp hi
      rw [heq] at hlt
      exact absurd hlt (Int.lt_irrefl _)
    · obtain ⟨t₀, q₀, ht₀, hq₀, hid, -⟩ := h.stamped p hp
      obtain ⟨hm, hp'⟩ := pack_fields ht₀ ht hq₀ hq (hid.symm.trans heq)
      rcases hdist p.1 i hi with hne | hne
      · exact hne hm
      · exact hne hp'
  rw [hpack]
  refine ⟨?_, ?_, ?_, ?_⟩
  · intro j
    dsimp only
    by_cases hj : j = i
    · subst hj
      rw [Function.update_self]
      exact h.ids j
    · rw [Function.update_of_ne hj]
      exact h.ids j
  · intro p hp
    rcases List.mem_append.mp hp with hold | hlast
    · obtain ⟨t₀, q₀, ht₀, hq₀, hid, hle⟩ := h.stamped p hold
      refine ⟨t₀, q₀, ht₀, hq₀, hid, ?_⟩
      dsimp only
      by_cases hj : p.1 = i
      · rw [hj, Function.update_self]
        rw [hj] at hle
        show t₀ < t ∨ t₀ = t ∧ q₀ ≤ q
        omega
      · rw [Function.update_of_ne hj]
        exact hle
    · rw [List.mem_singleton] at hlast
      subst hlast
      refine ⟨t, q, ht, hq, rfl, ?_⟩
      dsimp only
      rw [Function.update_self]
      exact Or.inr ⟨rfl, Nat.le_refl q⟩
  · intro j
    rw [idsOf_append]
    by_cases hj : i = j
    · subst hj
      rw [if_pos rfl, List.pairwise_append]
      refine ⟨h.ordered i, List.pairwise_singleton _ _, ?_⟩
      intro a ha b hb
      rw [List.mem_singleton] at hb
      subst hb
      obtain ⟨p, hp, rfl⟩ := List.mem_map.mp ha
      rw [List.mem_filter, decide_eq_true_eq] at hp
      exact habove p hp.1 hp.2
    · rw [if_neg hj, List.append_nil]
      exact h.ordered j
  · dsimp only
    rw [List.map_append, List.nodup_append]
    refine ⟨h.distinct, List.nodup_singleton _, ?_⟩
    intro a ha b hb
    obtain ⟨p, hp, rfl⟩ := List.mem_map.mp ha
    rw [List.map_singleton, List.mem_singleton] at hb
    subst hb
    exact hnew p hp

/--
**Snowflakes are unique and ordered.** The generators may be any that the
constructor accepts under distinct pairs of ids, and the calls come in any order,
with any readings near the epoch: all ids are distinct, those of one generator are
increasing, every shift behind an id was exact, and a call that throws leaves its
generator's state alone.
-/
theorem snowflakes_unique_ordered {ids : ι → Int × Int}
    (hnew : ∀ i, SnowflakeIDGenerator.new (ids i).1 (ids i).2 = .ok (start i))
    (hids : Function.Injective ids) {s : Generators ι}
    (hr : (Generators.system start).Reachable ReadingsNear s) :
    (s.returned.map Prod.snd).Nodup
      ∧ (∀ i, (s.idsOf i).Pairwise fun a b => a.toInt < b.toInt)
      ∧ (∀ p ∈ s.returned, ∃ (t : Int) (q : Nat), q ≤ maxSequence
          ∧ p.2 = (start p.1).pack t q ∧ ShiftsExact (start p.1) t
          ∧ p.2.toInt = (t - epoch) * 2 ^ 23
              + ((start p.1).machineId * 2 ^ 13 + ((start p.1).processId * 2 ^ 8 + q)))
      ∧ ∀ i readings e g, (s.generator i).nextId readings = (.raised e, g) →
          g.lastTimestamp = (s.generator i).lastTimestamp
            ∧ g.sequence = (s.generator i).sequence := by
  have hdist : ∀ i j, i ≠ j →
      (start i).machineId ≠ (start j).machineId ∨ (start i).processId ≠ (start j).processId := by
    intro i j hij
    obtain ⟨hm, hp⟩ := new_ok (hnew i)
    obtain ⟨hm', hp'⟩ := new_ok (hnew j)
    by_contra hsame
    push Not at hsame
    refine hij (hids (Prod.ext ?_ ?_))
    · rw [← hm, ← hm', hsame.1]
    · rw [← hp, ← hp', hsame.2]
  have h : IssuedInv start s :=
    hr.invariant issuedInv_init fun _ _ _ _ h hnear hs => issuedInv_step hdist h hnear hs
  refine ⟨h.distinct, h.ordered, ?_, ?_⟩
  · intro p hp
    obtain ⟨t, q, ht, hq, hid, -⟩ := h.stamped p hp
    exact ⟨t, q, hq, hid, shiftsExact ht, by rw [hid, pack_toInt _ ht hq]⟩
  · intro i readings e g hraised
    rw [nextId_raised hraised]
    exact ⟨rfl, rfl⟩

/-! ## Two processes of one machine -/

theorem two_le_maxProcessId : 2 ≤ maxProcessId := by decide

/-- The server's generator, and that of a second process on its machine. -/
def twoProcesses : Bool → SnowflakeIDGenerator
  | false => .instance₀
  | true =>
      { SnowflakeIDGenerator.instance₀ with
        processId := 2
        processId_le := two_le_maxProcessId }

/-- Both draw in one millisecond before the epoch, one twice; then its clock goes back. -/
def twoProcesses_calls : List (Bool × List Int) :=
  [(false, [epoch - 5]), (true, [epoch - 5]), (false, [epoch - 5]), (false, [epoch - 9])]

theorem twoProcesses_runs :
    ((Generators.system twoProcesses).exec ReadingsNear (Generators.system twoProcesses).init
      twoProcesses_calls).isSome := by decide

theorem snowflakes_unique_ordered_twoProcesses :
    ((((Generators.system twoProcesses).exec ReadingsNear
        (Generators.system twoProcesses).init twoProcesses_calls).get
          twoProcesses_runs).returned.map fun p => (p.1, p.2.toInt))
        = [(false, -41934592), (true, -41934336), (false, -41934591)]
      ∧ ((((Generators.system twoProcesses).exec ReadingsNear
        (Generators.system twoProcesses).init twoProcesses_calls).get
          twoProcesses_runs).returned.map Prod.snd).Nodup :=
  ⟨by decide,
    (@snowflakes_unique_ordered Bool _ twoProcesses (fun b => (1, if b then 2 else 1))
      (fun b => by cases b <;> rfl) (by intro a b; cases a <;> cases b <;> simp) _
      (Reachable.exec_get twoProcesses_runs)).1⟩

end SockEtOut.Proof
