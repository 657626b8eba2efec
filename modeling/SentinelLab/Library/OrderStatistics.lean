import Mathlib

/-! Order statistics of a list with ties: what the `k`-th smallest value is, by counting, and that sorting
finds it. -/

namespace SentinelLab.Library.OrderStatistics

variable {α : Type} [LinearOrder α] {values sorted : List α} {k l : Nat} {x y : α}

/-- At least `k + 1` values are up to `x`, and all but `k` are from `x` on. -/
structure IsOrderStatistic (values : List α) (k : Nat) (x : α) : Prop where
  inside : k < values.length
  member : x ∈ values
  upTo : k + 1 ≤ values.countP (· ≤ x)
  fromOn : values.length - k ≤ values.countP (x ≤ ·)

theorem countP_apart (apart : y < x) : values.countP (· ≤ y) + values.countP (x ≤ ·) ≤ values.length := by
  calc values.countP (· ≤ y) + values.countP (x ≤ ·)
      ≤ values.countP (· ≤ y) + values.countP (y < ·) := by
        apply Nat.add_le_add_left
        apply List.countP_mono_left
        intro value _ above
        exact decide_eq_true (apart.trans_le (of_decide_eq_true above))
    _ = values.length := by
        rw [List.length_eq_countP_add_countP (fun value => decide (value ≤ y))]
        simp

theorem IsOrderStatistic.mono (first : IsOrderStatistic values k x) (second : IsOrderStatistic values l y)
    (le : k ≤ l) : x ≤ y := by
  by_contra below
  have counted : values.countP (· ≤ y) + values.countP (x ≤ ·) ≤ values.length := countP_apart (not_le.mp below)
  have upTo := second.upTo
  have fromOn := first.fromOn
  have inside := first.inside
  omega

theorem IsOrderStatistic.unique (first : IsOrderStatistic values k x) (second : IsOrderStatistic values k y) :
    x = y := le_antisymm (first.mono second le_rfl) (second.mono first le_rfl)

theorem IsOrderStatistic.perm (statistic : IsOrderStatistic values k x) (perm : values.Perm sorted) :
    IsOrderStatistic sorted k x := by
  obtain ⟨inside, member, upTo, fromOn⟩ := statistic
  refine ⟨perm.length_eq ▸ inside, perm.mem_iff.mp member, ?_, ?_⟩
  · rwa [← perm.countP_eq]
  · rwa [← perm.countP_eq, ← perm.length_eq]

/-- In a sorted list the values up to an entry are those before it, and the others are from it on. -/
theorem isOrderStatistic_getElem (ordered : sorted.Pairwise (· ≤ ·)) (inside : k < sorted.length) :
    IsOrderStatistic sorted k sorted[k] := by
  have before : ∀ value ∈ sorted.take (k + 1), decide (value ≤ sorted[k]) = true := by
    intro value member
    obtain ⟨i, earlier, rfl⟩ := List.mem_take_iff_getElem.mp member
    rw [decide_eq_true_eq]
    rcases Nat.lt_or_eq_of_le (Nat.le_of_lt_succ (lt_of_lt_of_le earlier (min_le_left _ _))) with less | rfl
    · exact List.pairwise_iff_getElem.mp ordered i k _ inside less
    · exact le_rfl
  have after : ∀ value ∈ sorted.drop k, decide (sorted[k] ≤ value) = true := by
    intro value member
    obtain ⟨i, later, rfl⟩ := List.mem_drop_iff_getElem.mp member
    rw [decide_eq_true_eq]
    rcases Nat.eq_zero_or_pos i with rfl | positive
    · exact le_rfl
    · exact List.pairwise_iff_getElem.mp ordered k (k + i) inside _ (by omega)
  refine ⟨inside, List.getElem_mem inside, ?_, ?_⟩
  · have taken : k + 1 = (sorted.take (k + 1)).countP (· ≤ sorted[k]) := by
      rw [List.countP_eq_length.mpr before, List.length_take, min_eq_left inside]
    exact taken.trans_le (List.take_sublist _ _).countP_le
  · have dropped : sorted.length - k = (sorted.drop k).countP (sorted[k] ≤ ·) := by
      rw [List.countP_eq_length.mpr after, List.length_drop]
    exact dropped.trans_le (List.drop_sublist _ _).countP_le

theorem mergeSort_eq_of_perm {values other : List α} (perm : values.Perm other) :
    (values.mergeSort fun a b => a ≤ b) = other.mergeSort fun a b => a ≤ b := by
  have sorts : (values.mergeSort fun a b => a ≤ b).Perm (other.mergeSort fun a b => a ≤ b) :=
    (List.mergeSort_perm values _).trans (perm.trans (List.mergeSort_perm other _).symm)
  exact sorts.eq_of_pairwise (fun _ _ _ _ => le_antisymm) (List.pairwise_mergeSort' (· ≤ ·) values)
    (List.pairwise_mergeSort' (· ≤ ·) other)

theorem isOrderStatistic_mergeSort (values : List α) (inside : k < values.length) (default : α) :
    IsOrderStatistic values k ((values.mergeSort fun a b => a ≤ b).getD k default) := by
  have within : k < (values.mergeSort fun a b => a ≤ b).length := by rwa [List.length_mergeSort]
  rw [List.getD_eq_getElem _ _ within]
  exact (isOrderStatistic_getElem (List.pairwise_mergeSort' (· ≤ ·) values) within).perm (List.mergeSort_perm values _)

/-! ## The first, the last and the mean -/

theorem IsOrderStatistic.isLeast (statistic : IsOrderStatistic values 0 x) : IsLeast {value | value ∈ values} x := by
  refine ⟨statistic.member, ?_⟩
  have all : values.countP (x ≤ ·) = values.length := le_antisymm List.countP_le_length statistic.fromOn
  intro value member
  exact of_decide_eq_true (List.countP_eq_length.mp all value member)

theorem IsOrderStatistic.isGreatest (statistic : IsOrderStatistic values (values.length - 1) x) :
    IsGreatest {value | value ∈ values} x := by
  refine ⟨statistic.member, ?_⟩
  have inside := statistic.inside
  have upTo := statistic.upTo
  have all : values.countP (· ≤ x) = values.length := le_antisymm List.countP_le_length (by omega)
  intro value member
  exact of_decide_eq_true (List.countP_eq_length.mp all value member)

theorem mean_between {F : Type} [Field F] [LinearOrder F] [IsStrictOrderedRing F] {values : List F} {low high : F}
    (some_value : values ≠ []) (least : ∀ value ∈ values, low ≤ value) (greatest : ∀ value ∈ values, value ≤ high) :
    low ≤ values.sum / values.length ∧ values.sum / values.length ≤ high := by
  have count : (0 : F) < values.length := by exact_mod_cast List.length_pos_iff.mpr some_value
  have below := List.card_nsmul_le_sum values low least
  have above := List.sum_le_card_nsmul values high greatest
  rw [nsmul_eq_mul] at below above
  constructor
  · rwa [le_div_iff₀ count, mul_comm]
  · rwa [div_le_iff₀ count, mul_comm]

end SentinelLab.Library.OrderStatistics
