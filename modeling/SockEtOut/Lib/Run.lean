import Mathlib.Logic.Basic

/-!
# Runs of a labelled system

A system is an initial state and a labelled step. The step is a partial function:
whatever the environment chooses (which party moves, what a random draw gives) is
part of the label, so nondeterminism is the choice of labels. `Reachable G` is
reachability by steps whose label and pre-state satisfy a guard `G`: with the
trivial guard it is ordinary reachability, and a stronger guard describes the
runs of an environment that keeps a promise, or the runs that stay clear of a
defect.

An induction over runs is done once, in `Reachable.invariant`. `Reachable.exec_get`
goes the other way: a list of labels is a run, and the kernel can follow it.
-/

namespace Lib

universe u v

/-- A labelled transition system with a distinguished initial state. -/
structure System (σ : Type u) (α : Type v) where
  /-- Where every run starts. -/
  init : σ
  /-- Where doing a label leads, when it can be done at all. -/
  step : σ → α → Option σ

namespace System

variable {σ : Type u} {α : Type v}

/-- The states reached by runs whose every step satisfies the guard `G`. -/
inductive Reachable (M : System σ α) (G : σ → α → Prop) : σ → Prop where
  | init : Reachable M G M.init
  | tail {s s' : σ} {a : α} :
      Reachable M G s → G s a → M.step s a = some s' → Reachable M G s'

/-- The guard every step satisfies. -/
def Always (_ : σ) (_ : α) : Prop := True

instance (s : σ) (a : α) : Decidable (Always s a) := .isTrue trivial

/--
**The invariant rule.** What holds at the start and survives every guarded step
from a reachable state holds of every state a guarded run reaches.
-/
theorem Reachable.invariant {M : System σ α} {G : σ → α → Prop} {P : σ → Prop}
    (hinit : P M.init)
    (hstep : ∀ s a s', M.Reachable G s → P s → G s a → M.step s a = some s' → P s')
    {s : σ} (h : M.Reachable G s) : P s := by
  induction h with
  | init => exact hinit
  | tail hr hg hs ih => exact hstep _ _ _ hr ih hg hs

/-- The system from another state on. -/
def resume (M : System σ α) (s : σ) : System σ α where
  init := s
  step := M.step

/-- A run goes on where another has ended. -/
theorem Reachable.resumed {M : System σ α} {G : σ → α → Prop} {s s' : σ} (h : M.Reachable G s)
    (h' : (M.resume s).Reachable G s') : M.Reachable G s' := by
  induction h' with
  | init => exact h
  | tail _ hg hs ih => exact ih.tail hg hs

/-- Do a list of labels in order, as long as the guard allows each. -/
def exec (M : System σ α) (G : σ → α → Prop) [∀ s a, Decidable (G s a)] :
    σ → List α → Option σ
  | s, [] => some s
  | s, a :: as =>
      if G s a then
        match M.step s a with
        | some s' => exec M G s' as
        | none => none
      else none

/-- Where a list of labels leads is reachable. -/
theorem Reachable.of_exec {M : System σ α} {G : σ → α → Prop} [∀ s a, Decidable (G s a)] :
    ∀ {as : List α} {s s' : σ}, M.Reachable G s → M.exec G s as = some s' → M.Reachable G s'
  | [], s, s', hr, h => by
      rw [exec, Option.some.injEq] at h
      exact h ▸ hr
  | a :: as, s, s', hr, h => by
      rw [exec] at h
      split at h
      · rename_i hg
        split at h
        · rename_i s₁ hs
          exact Reachable.of_exec (hr.tail hg hs) h
        · exact absurd h (by simp)
      · exact absurd h (by simp)

/-- A list of labels that can be done from the start ends in a reachable state. -/
theorem Reachable.exec_get {M : System σ α} {G : σ → α → Prop} [∀ s a, Decidable (G s a)]
    {as : List α} (h : (M.exec G M.init as).isSome) :
    M.Reachable G ((M.exec G M.init as).get h) :=
  Reachable.of_exec .init (Option.some_get h).symm

end System

end Lib
