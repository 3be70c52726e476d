import Mathlib.Order.WellFounded
import SockEtOut.Lib.Run

/-!
# Systems that come to rest

Some steps of a system only use up what is there. If every such step does, by a measure
that cannot fall for ever, a run of them ends, whichever is taken when. Where it ends is
another question: no step is possible there, and what that means is for the system to say.
-/

namespace Lib

namespace System

universe u v w

variable {σ : Type u} {α : Type v} {M : System σ α} {G : σ → α → Prop} {s : σ}

/-- Every guarded run from here ends. -/
def Rests (M : System σ α) (G : σ → α → Prop) (s : σ) : Prop :=
  Acc (fun s' s => ∃ a, G s a ∧ M.step s a = some s') s

/--
**The measure rule.** Guarded runs end where each of their steps keeps `P` and brings
the measure down.
-/
theorem rests_of_measure {β : Type w} {r : β → β → Prop} (hr : WellFounded r) {P : σ → Prop}
    {μ : σ → β} (hstep : ∀ {s a s'}, P s → G s a → M.step s a = some s' → P s' ∧ r (μ s') (μ s))
    (h : P s) : M.Rests G s := by
  have hall : ∀ m s, μ s = m → P s → M.Rests G s := by
    intro m
    induction m using hr.induction with
    | _ m ih =>
        rintro s rfl hp
        refine ⟨s, ?_⟩
        rintro s' ⟨a, hg, hs⟩
        obtain ⟨hp', hless⟩ := hstep hp hg hs
        exact ih (μ s') hless s' rfl hp'
  exact hall (μ s) s rfl h

/-- A sequence of states that starts here is no run from some point on. -/
theorem Rests.not_forever (h : M.Rests G s) (run : Nat → σ) (hstart : run 0 = s) :
    ∃ n, ∀ a, G (run n) a → M.step (run n) a ≠ some (run (n + 1)) := by
  by_contra hforever
  push Not at hforever
  exact (acc_iff_isEmpty_descending_chain.mp h).false ⟨run, hstart, hforever⟩

/-- There is a run to where no step is possible. -/
theorem Rests.exists_end (h : M.Rests G s) :
    ∃ s', (M.resume s).Reachable G s' ∧ ∀ a, G s' a → M.step s' a = none := by
  induction h with
  | intro s _ ih =>
      by_cases hend : ∀ a, G s a → M.step s a = none
      · exact ⟨s, .init, hend⟩
      · push Not at hend
        obtain ⟨a, hg, hs⟩ := hend
        obtain ⟨s', hs'⟩ := Option.ne_none_iff_exists'.mp hs
        obtain ⟨t, ht, hnone⟩ := ih s' ⟨a, hg, hs'⟩
        have hfirst : (M.resume s).Reachable G s' := .tail .init hg hs'
        exact ⟨t, hfirst.resumed ht, hnone⟩

end System

end Lib
