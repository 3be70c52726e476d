import SockEtOut.Lib.Run

/-!
# Simulations between systems

Two systems, each under a guard, and a relation between their states. The relation
is a simulation if it holds at the start and every guarded step of the first can be
followed by guarded steps of the second, as many as it takes, none included. Then
whatever is true of all states of the second is true of the first, as far as the
relation carries it.

Simulations compose, so a system can be related to a much coarser one by way of
those between them.
-/

namespace Lib.System

universe u v

variable {σ τ υ : Type u} {α β γ : Type v}
variable {C : System σ α} {A : System τ β} {B : System υ γ}
variable {G : σ → α → Prop} {H : τ → β → Prop} {K : υ → γ → Prop}

/-- `R` relates every step of `C` to steps of `A`. -/
structure Simulates (C : System σ α) (G : σ → α → Prop) (A : System τ β) (H : τ → β → Prop)
    (R : σ → τ → Prop) : Prop where
  init : R C.init A.init
  step : ∀ {s s' : σ} {a : α} {t : τ}, C.Reachable G s → A.Reachable H t → R s t → G s a →
    C.step s a = some s' → ∃ t', (A.resume t).Reachable H t' ∧ R s' t'

/-- No step at all. -/
theorem Reachable.stay {t : τ} : (A.resume t).Reachable H t := .init

/-- A single step. -/
theorem Reachable.one {t t' : τ} {b : β} (hg : H t b) (hs : A.step t b = some t') :
    (A.resume t).Reachable H t' := .tail .init hg hs

/-- **What is reached is related to something that is reached.** -/
theorem Simulates.reachable {R : σ → τ → Prop} (h : Simulates C G A H R) {s : σ}
    (hs : C.Reachable G s) : ∃ t, A.Reachable H t ∧ R s t := by
  refine hs.invariant (P := fun s => ∃ t, A.Reachable H t ∧ R s t) ⟨A.init, .init, h.init⟩ ?_
  intro s a s' hreach hrel hg hstep
  obtain ⟨t, ht, hr⟩ := hrel
  obtain ⟨t', htt', hr'⟩ := h.step hreach ht hr hg hstep
  exact ⟨t', ht.resumed htt', hr'⟩

/-- An invariant of the second system, carried over to the first. -/
theorem Simulates.invariant {R : σ → τ → Prop} (h : Simulates C G A H R) {P : τ → Prop}
    {Q : σ → Prop} (hP : ∀ t, A.Reachable H t → P t) (hQ : ∀ s t, R s t → P t → Q s) {s : σ}
    (hs : C.Reachable G s) : Q s := by
  obtain ⟨t, ht, hr⟩ := h.reachable hs
  exact hQ s t hr (hP t ht)

/-- A run of the second system, followed in the third from a related state. -/
theorem Simulates.follow {R : τ → υ → Prop} (h : Simulates A H B K R) {t t' : τ} {r : υ}
    (ht : A.Reachable H t) (hr : B.Reachable K r) (hrel : R t r)
    (htt' : (A.resume t).Reachable H t') : ∃ r', (B.resume r).Reachable K r' ∧ R t' r' := by
  induction htt' with
  | init => exact ⟨r, .stay, hrel⟩
  | tail hreach hg hstep ih =>
      obtain ⟨r₁, hr₁, hrel₁⟩ := ih
      obtain ⟨r₂, hr₂, hrel₂⟩ := h.step (ht.resumed hreach) (hr.resumed hr₁) hrel₁ hg hstep
      exact ⟨r₂, hr₁.resumed hr₂, hrel₂⟩

/-- **Simulations compose.** -/
theorem Simulates.trans {R : σ → τ → Prop} {R' : τ → υ → Prop} (h : Simulates C G A H R)
    (h' : Simulates A H B K R') :
    Simulates C G B K fun s r => ∃ t, A.Reachable H t ∧ R s t ∧ R' t r where
  init := ⟨A.init, .init, h.init, h'.init⟩
  step := by
    intro s s' a r hs hr hrel hg hstep
    obtain ⟨t, ht, hst, htr⟩ := hrel
    obtain ⟨t', htt', hst'⟩ := h.step hs ht hst hg hstep
    obtain ⟨r', hrr', htr'⟩ := h'.follow ht hr htr htt'
    exact ⟨r', hrr', t', ht.resumed htt', hst', htr'⟩

/-- A weaker guard reaches at least as much. -/
theorem Reachable.mono {G' : σ → α → Prop} (hG : ∀ s a, G s a → G' s a) {s : σ}
    (h : C.Reachable G s) : C.Reachable G' s := by
  induction h with
  | init => exact .init
  | tail _ hg hstep ih => exact ih.tail (hG _ _ hg) hstep

end Lib.System
