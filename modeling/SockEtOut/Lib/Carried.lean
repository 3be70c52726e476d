import Mathlib.Data.List.Forall2
import SockEtOut.Lib.Framing

/-!
# Messages on a framed stream

A stream carries a list of messages if it is made of one frame for each, in order,
where a relation says which frames stand for a message. What is written goes to the
end of both, and what a reader takes off the front of a stream, if it stops within a
head, are the frames of the first messages.
-/

namespace Lib.Framing

universe u v

variable {β : Type u} {α μ : Type v} (F : Framing β α) {R : α → μ → Prop}

/-- One frame for each message. -/
def Carries (R : α → μ → Prop) (bytes : List β) (ms : List μ) : Prop :=
  ∃ fs, bytes = F.stream fs ∧ List.Forall₂ R fs ms

namespace Carries

variable {F} {bytes bytes' : List β} {ms ms' : List μ}

theorem nil : F.Carries R [] [] := ⟨[], rfl, .nil⟩

theorem one {a : α} {m : μ} (h : R a m) : F.Carries R (F.enc a) [m] :=
  ⟨[a], (List.append_nil _).symm, .cons h .nil⟩

/-- What is written behind a stream is carried behind what it carries. -/
theorem append (h : F.Carries R bytes ms) (h' : F.Carries R bytes' ms') :
    F.Carries R (bytes ++ bytes') (ms ++ ms') := by
  obtain ⟨fs, rfl, hfs⟩ := h
  obtain ⟨fs', rfl, hfs'⟩ := h'
  exact ⟨fs ++ fs', (F.stream_append fs fs').symm, List.rel_append hfs hfs'⟩

/-- The frames a reader takes are those of the first messages, and the rest carries the others. -/
theorem split {fs : List α} {rest later : List β} (hrest : rest.length < F.head)
    (h : F.Carries R (F.stream fs ++ rest ++ later) ms) :
    ∃ taken left, ms = taken ++ left ∧ List.Forall₂ R fs taken
      ∧ F.Carries R (rest ++ later) left := by
  obtain ⟨todo, hbytes, htodo⟩ := h
  obtain ⟨todo', rfl, hlater⟩ := F.split_stream hrest hbytes
  have htaken := List.forall₂_take fs.length htodo
  have hleft := List.forall₂_drop fs.length htodo
  rw [List.take_left] at htaken
  rw [List.drop_left] at hleft
  exact ⟨_, _, (List.take_append_drop fs.length ms).symm, htaken, todo', hlater, hleft⟩

/-- Nothing is carried by no bytes, and by none only. -/
theorem eq_nil_iff (h : F.Carries R bytes ms) : bytes = [] ↔ ms = [] := by
  obtain ⟨fs, rfl, hfs⟩ := h
  cases hfs with
  | nil => exact iff_of_true rfl rfl
  | @cons a m fs ms hr hfs =>
      refine iff_of_false (fun hnil => ?_) (List.cons_ne_nil m ms)
      have hlength := congrArg List.length hnil
      have hhead := F.head_le a
      have hpos := F.head_pos
      rw [stream, List.flatMap_cons, List.length_append, List.length_nil] at hlength
      omega

end Carries

end Lib.Framing
