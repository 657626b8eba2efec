import Mathlib

/-! Instants of which the one at place `i` is not before `start + i * period`: no deadline is reached by
more of them than there are periods before it. -/

namespace SentinelLab.Library.Pacing

def Paced (start period : Int) (instants : List Int) : Prop :=
  ∀ i (inside : i < instants.length), start + i * period ≤ instants[i]

def reached (deadline : Int) (instants : List Int) : Nat := instants.countP fun instant => instant ≤ deadline

variable {start period : Int} {instants : List Int}

theorem Paced.nil : Paced start period [] := fun _ inside => absurd inside (Nat.not_lt_zero _)

theorem Paced.append (paced : Paced start period instants) {instant : Int}
    (late : start + instants.length * period ≤ instant) : Paced start period (instants ++ [instant]) := by
  intro i inside
  rw [List.length_append, List.length_singleton] at inside
  by_cases before : i < instants.length
  · rw [List.getElem_append_left before]
    exact paced i before
  · obtain rfl : i = instants.length := by omega
    rw [List.getElem_append_right le_rfl]
    simpa using late

theorem Paced.of_append {later : List Int} (paced : Paced start period (instants ++ later)) :
    Paced start period instants := by
  intro i inside
  have entry := paced i (by rw [List.length_append]; omega)
  rwa [List.getElem_append_left inside] at entry

/-- The last of the instants that reach the deadline is at or behind its own place. -/
theorem Paced.reached_le (paced : Paced start period instants) (nonneg : 0 ≤ period) {deadline : Int}
    (some_reached : 0 < reached deadline instants) :
    start + ((reached deadline instants : Int) - 1) * period ≤ deadline := by
  induction instants using List.reverseRecOn with
  | nil => exact absurd some_reached (Nat.lt_irrefl 0)
  | append_singleton instants instant ih =>
    have earlier : reached deadline instants ≤ instants.length := List.countP_le_length
    unfold reached at *
    rw [List.countP_append, List.countP_singleton] at some_reached ⊢
    by_cases before : instant ≤ deadline
    · have place := paced instants.length (by simp)
      rw [List.getElem_append_right le_rfl] at place
      have fewer : ((instants.countP fun instant => decide (instant ≤ deadline) : Nat) : Int) * period ≤
          instants.length * period := by
        apply Int.mul_le_mul_of_nonneg_right _ nonneg
        exact_mod_cast earlier
      simp only [before, decide_true, if_true]
      push_cast
      rw [add_sub_cancel_right]
      simp only [Nat.sub_self, List.getElem_singleton] at place
      omega
    · simp only [before, decide_false, Bool.false_eq_true, if_false, Nat.add_zero] at some_reached ⊢
      exact ih paced.of_append some_reached

end SentinelLab.Library.Pacing
