import Mathlib.Logic.Basic

/-!
# Receivers with a queue

A receiver, and the messages on their way to it in the order they were sent. What
an inbox will come to once its queue has been worked off is its *settled* state.
Delivery does not change it and sending only adds to it, so a statement about
settled states is a statement about senders alone: when a message is delivered
makes no difference.

A receiver that has failed stays failed.
-/

namespace Lib

universe u

/-- A receiver of `ρ`s with state `σ`, and what is still in flight, oldest first. -/
structure Inbox (ε σ ρ : Type u) where
  state : Except ε σ
  queue : List ρ

namespace Inbox

variable {ε σ ρ : Type u} (receive : σ → ρ → Except ε σ)

/-- The state once the queue has been worked off. -/
def settled (b : Inbox ε σ ρ) : Except ε σ :=
  b.state >>= fun s => b.queue.foldlM receive s

/-- Put messages in flight. -/
def send (b : Inbox ε σ ρ) (rs : List ρ) : Inbox ε σ ρ :=
  { b with queue := b.queue ++ rs }

/-- Deliver the oldest message, if there is one. -/
def deliver (b : Inbox ε σ ρ) : Option (Inbox ε σ ρ) :=
  match b.queue with
  | [] => none
  | r :: rs => some ⟨b.state >>= fun s => receive s r, rs⟩

/-- The oldest message, received. -/
theorem deliver_cons {b : Inbox ε σ ρ} {r : ρ} {rs : List ρ} (h : b.queue = r :: rs) :
    b.deliver receive = some ⟨b.state >>= fun s => receive s r, rs⟩ := by
  unfold deliver
  rw [h]

theorem deliver_cases {b b' : Inbox ε σ ρ} (h : b.deliver receive = some b') :
    ∃ r rs, b.queue = r :: rs ∧ b' = ⟨b.state >>= fun s => receive s r, rs⟩ := by
  unfold deliver at h
  split at h
  · cases h
  · rename_i r rs hqueue
    exact ⟨r, rs, hqueue, (Option.some.inj h).symm⟩

theorem settled_of_queue_nil {b : Inbox ε σ ρ} (h : b.queue = []) :
    b.settled receive = b.state := by
  unfold settled
  rw [h]
  exact bind_pure b.state

/-- What is sent is received after everything that is already in flight. -/
theorem settled_send (b : Inbox ε σ ρ) (rs : List ρ) :
    (b.send rs).settled receive = b.settled receive >>= fun s => rs.foldlM receive s := by
  unfold settled send
  rw [bind_assoc]
  exact congrArg (b.state >>= ·) (funext fun s => List.foldlM_append)

/-- **Delivery does not change what the inbox will come to.** -/
theorem settled_deliver {b b' : Inbox ε σ ρ} (h : b.deliver receive = some b') :
    b'.settled receive = b.settled receive := by
  unfold deliver at h
  cases hq : b.queue with
  | nil =>
      rw [hq] at h
      exact absurd h (by simp)
  | cons r rs =>
      rw [hq] at h
      cases h
      unfold settled
      rw [hq, bind_assoc]
      rfl

end Inbox

end Lib
