import Mathlib.Data.List.Induction

/-!
# Histories

A history is a row of events.  That something has held since an event means that the event happened
and that no later one undid it; whether an event is of that kind may depend on what came before.
Two rows of events that happen independently make one history in any order that keeps each of them
in its own order.
-/

namespace ChipEight

namespace History

variable {ε : Type}

def Since (happens : List ε → ε → Prop) (undoes : ε → Bool) (history : List ε) : Prop :=
  ∃ before event later, history = before ++ event :: later ∧ happens before event ∧
    ∀ other ∈ later, undoes other = false

section Since

variable {happens : List ε → ε → Prop} {undoes : ε → Bool}

theorem not_since_nil : ¬ Since happens undoes [] := by
  rintro ⟨before, event, later, hhistory, -⟩
  simp at hhistory

theorem since_concat (history : List ε) (event : ε) :
    Since happens undoes (history ++ [event]) ↔
      happens history event ∨ Since happens undoes history ∧ undoes event = false := by
  constructor
  · rintro ⟨before, found, later, hhistory, hhappens, hkept⟩
    rcases List.eq_nil_or_concat later with rfl | ⟨middle, last, rfl⟩
    · obtain ⟨rfl, rfl⟩ := List.append_singleton_inj.mp hhistory
      exact Or.inl hhappens
    · rw [List.concat_eq_append] at hhistory hkept
      rw [← List.cons_append, ← List.append_assoc] at hhistory
      obtain ⟨rfl, rfl⟩ := List.append_singleton_inj.mp hhistory
      right
      refine ⟨⟨before, found, middle, rfl, hhappens, ?_⟩, hkept event (by simp)⟩
      intro other hother
      exact hkept other (by simp [hother])
  · rintro (hhappens | ⟨⟨before, found, later, rfl, hhappens, hkept⟩, hevent⟩)
    · exact ⟨history, event, [], rfl, hhappens, nofun⟩
    · refine ⟨before, found, later ++ [event], by simp, hhappens, ?_⟩
      intro other hother
      rcases List.mem_append.mp hother with hlater | hlast
      · exact hkept other hlater
      · rw [List.mem_singleton.mp hlast]
        exact hevent

/-- What is false at the start, and after an event true if the event makes it so or if it was true
and the event does not undo it, is true since such an event. -/
theorem iff_since (holds : List ε → Prop) (hnil : ¬ holds [])
    (hconcat : ∀ history event, holds (history ++ [event]) ↔
      happens history event ∨ holds history ∧ undoes event = false) (history : List ε) :
    holds history ↔ Since happens undoes history := by
  induction history using List.reverseRecOn with
  | nil => exact iff_of_false hnil not_since_nil
  | append_singleton history event ih => rw [hconcat, since_concat, ih]

end Since

/-- A history made of two rows of events, each in its own order. -/
inductive Interleaves : List ε → List ε → List ε → Prop where
  | nil : Interleaves [] [] []
  | left {one other history : List ε} (event : ε) (hrest : Interleaves one other history) :
      Interleaves (event :: one) other (event :: history)
  | right {one other history : List ε} (event : ε) (hrest : Interleaves one other history) :
      Interleaves one (event :: other) (event :: history)

section Interleaves

variable {one other history : List ε}

theorem interleaves_alone (history : List ε) : Interleaves history [] history := by
  induction history with
  | nil => exact .nil
  | cons event rest ih => exact .left event ih

theorem Interleaves.filter (keeps : ε → Bool) (hmixed : Interleaves one other history) :
    Interleaves (one.filter keeps) (other.filter keeps) (history.filter keeps) := by
  induction hmixed with
  | nil => exact .nil
  | left event _ ih =>
      by_cases hkeeps : keeps event = true
      · rw [List.filter_cons_of_pos hkeeps, List.filter_cons_of_pos hkeeps]
        exact .left event ih
      · rwa [List.filter_cons_of_neg hkeeps, List.filter_cons_of_neg hkeeps]
  | right event _ ih =>
      by_cases hkeeps : keeps event = true
      · rw [List.filter_cons_of_pos hkeeps, List.filter_cons_of_pos hkeeps]
        exact .right event ih
      · rwa [List.filter_cons_of_neg hkeeps, List.filter_cons_of_neg hkeeps]

end Interleaves

end History

end ChipEight
