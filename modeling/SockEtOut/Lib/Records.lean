import SockEtOut.Lib.Run

/-!
# Runs with a record

A run forgets how it came to its last state. Here each step tells something, or nothing,
and what has been told is kept beside the state in order: what was asked so far, or
written, or heard. The state need know nothing of it any more. What is told may be the
steps themselves: then every other record of the run can be read off this one.
-/

namespace Lib.System

universe u v w

variable {σ : Type u} {α : Type v} {β : Type w}
variable {M : System σ α} {G : σ → α → Prop} {tells : σ → α → List β} {told : List β} {s s' : σ}

/-- The states that guarded runs reach, each with what was told on the way there. -/
inductive Records (M : System σ α) (G : σ → α → Prop) (tells : σ → α → List β) :
    List β → σ → Prop where
  | init : Records M G tells [] M.init
  | tail {told : List β} {s s' : σ} {a : α} :
      Records M G tells told s → G s a → M.step s a = some s' →
      Records M G tells (told ++ tells s a) s'

theorem Records.reachable (h : M.Records G tells told s) : M.Reachable G s := by
  induction h with
  | init => exact .init
  | tail _ hg hs ih => exact ih.tail hg hs

/-- **The invariant rule**, for what holds between the record and the state. -/
theorem Records.invariant {P : List β → σ → Prop} (hinit : P [] M.init)
    (hstep : ∀ told s a s', M.Reachable G s → P told s → G s a → M.step s a = some s' →
      P (told ++ tells s a) s')
    (h : M.Records G tells told s) : P told s := by
  induction h with
  | init => exact hinit
  | tail hr hg hs ih => exact hstep _ _ _ _ hr.reachable ih hg hs

/-! ## The run itself -/

/-- A step told as it is, with the state it is taken in. Then the record is the run. -/
def steps (s : σ) (a : α) : List (σ × α) := [(s, a)]

/-- What the steps of a run tell, one after another. -/
def toldBy (tells : σ → α → List β) (past : List (σ × α)) : List β :=
  past.flatMap fun p => tells p.1 p.2

theorem toldBy_step (tells : σ → α → List β) (past : List (σ × α)) (s : σ) (a : α) :
    toldBy tells (past ++ steps s a) = toldBy tells past ++ tells s a := by
  simp [toldBy, steps]

theorem mem_toldBy {past : List (σ × α)} {b : β} (h : b ∈ toldBy tells past) :
    ∃ s a, (s, a) ∈ past ∧ b ∈ tells s a := by
  obtain ⟨⟨s, a⟩, hp, hb⟩ := List.mem_flatMap.mp h
  exact ⟨s, a, hp, hb⟩

/-- A step of the run has been taken, under its guard. -/
theorem Records.taken {past : List (σ × α)} {s₀ : σ} {a : α} (h : M.Records G steps past s)
    (hp : (s₀, a) ∈ past) : G s₀ a ∧ ∃ s₁, M.step s₀ a = some s₁ := by
  refine h.invariant
    (P := fun past _ => (s₀, a) ∈ past → G s₀ a ∧ ∃ s₁, M.step s₀ a = some s₁)
    (fun hp => absurd hp List.not_mem_nil) ?_ hp
  intro told s b s' _ ih hg hs hp
  rcases List.mem_append.mp hp with hold | hnew
  · exact ih hold
  · cases List.mem_singleton.mp hnew
    exact ⟨hg, s', hs⟩

/-! ## Runs given by their labels -/

/-- What a list of labels tells, done in order. -/
def record (M : System σ α) (tells : σ → α → List β) : σ → List α → List β
  | _, [] => []
  | s, a :: as =>
      match M.step s a with
      | some s' => tells s a ++ record M tells s' as
      | none => []

/-- A list of labels that can be done has its record. -/
theorem Records.of_exec [∀ s a, Decidable (G s a)] : ∀ {as : List α} {told : List β} {s s' : σ},
    M.Records G tells told s → M.exec G s as = some s' →
    M.Records G tells (told ++ M.record tells s as) s'
  | [], told, s, s', hr, h => by
      rw [exec, Option.some.injEq] at h
      rw [record, List.append_nil]
      exact h ▸ hr
  | a :: as, told, s, s', hr, h => by
      rw [exec] at h
      split at h
      · rename_i hg
        split at h
        · rename_i s₁ hs
          rw [record, hs]
          dsimp only
          rw [← List.append_assoc]
          exact Records.of_exec (hr.tail hg hs) h
        · cases h
      · cases h

/-- A list of labels that can be done from the start. -/
theorem Records.exec_get [∀ s a, Decidable (G s a)] {as : List α}
    (h : (M.exec G M.init as).isSome) :
    M.Records G tells (M.record tells M.init as) ((M.exec G M.init as).get h) :=
  Records.of_exec .init (Option.some_get h).symm

end Lib.System
