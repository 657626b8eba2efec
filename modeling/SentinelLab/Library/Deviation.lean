import Mathlib

/-! Sample mean and standard deviation of a list of reals, and how far a single entry can be from
the mean. -/

namespace SentinelLab.Library.Deviation

noncomputable def mean (values : List ℝ) : ℝ := values.sum / values.length

noncomputable def columnMeans (width : Nat) (rows : List (List ℝ)) : List ℝ :=
  (List.range width).map fun column => mean (rows.map fun row => row.getD column 0)

noncomputable def squares (values : List ℝ) : ℝ := (values.map fun value => (value - mean values) ^ 2).sum

/-- The sample variance: one degree of freedom is spent on the mean. -/
noncomputable def variance (values : List ℝ) : ℝ := squares values / (values.length - 1)

noncomputable def covariance (x y : List ℝ) : ℝ :=
  (List.zipWith (· * ·) (x.map (· - mean x)) (y.map (· - mean y))).sum / ((x.length : ℝ) - 1)

noncomputable def deviation (values : List ℝ) : ℝ := Real.sqrt (variance values)

/-- How many deviations an entry of `count` values can be above their mean. -/
noncomputable def reach (count : Nat) : ℝ := (count - 1) / Real.sqrt count

theorem mean_perm {first second : List ℝ} (perm : first.Perm second) : mean first = mean second := by
  rw [mean, mean, perm.sum_eq, perm.length_eq]

theorem squares_perm {first second : List ℝ} (perm : first.Perm second) : squares first = squares second := by
  rw [squares, squares, mean_perm perm, (perm.map _).sum_eq]

theorem sq_sum_le (values : List ℝ) : values.sum ^ 2 ≤ values.length * (values.map (· ^ 2)).sum := by
  have bound := sq_sum_le_card_mul_sum_sq (s := Finset.univ) (f := fun index : Fin values.length => values[index.val])
  rwa [Fin.sum_univ_fun_getElem values fun value => value ^ 2, Finset.card_univ, Fintype.card_fin,
    Fin.sum_univ_fun_getElem values fun value => value, List.map_id'] at bound

theorem sum_sub_mean {values : List ℝ} (nonempty : values ≠ []) : (values.map fun value => value - mean values).sum = 0 := by
  have count : (values.length : ℝ) ≠ 0 := by simpa using nonempty
  simp only [sub_eq_add_neg, List.sum_map_add, List.map_id', List.map_const', List.sum_replicate, nsmul_eq_mul, mean]
  rw [mul_neg, mul_div_cancel₀ _ count, add_neg_cancel]

/-- The deviations sum to 0, so a far entry pulls the others to the other side. -/
theorem sq_sub_mean_le {values : List ℝ} {value : ℝ} (member : value ∈ values) :
    values.length * (value - mean values) ^ 2 ≤ (values.length - 1) * squares values := by
  obtain ⟨before, after, rfl⟩ := List.append_of_mem member
  have perm : (before ++ value :: after).Perm (value :: (before ++ after)) := List.perm_middle
  rw [squares_perm perm, mean_perm perm, perm.length_eq]
  set rest := before ++ after
  set m := mean (value :: rest)
  have balanced : value - m = -(rest.map fun other => other - m).sum := by
    have zero := sum_sub_mean (List.cons_ne_nil value rest)
    rw [List.map_cons, List.sum_cons] at zero
    linarith
  have pulled : (value - m) ^ 2 ≤ rest.length * ((rest.map fun other => other - m).map (· ^ 2)).sum := by
    have bound := sq_sum_le (rest.map fun other => other - m)
    rwa [List.length_map, ← neg_sq, ← balanced] at bound
  have split : squares (value :: rest) = (value - m) ^ 2 + ((rest.map fun other => other - m).map (· ^ 2)).sum := by
    rw [squares, List.map_cons, List.sum_cons, List.map_map]
    rfl
  rw [split, List.length_cons]
  push_cast
  linarith

theorem deviation_nonneg (values : List ℝ) : 0 ≤ deviation values := Real.sqrt_nonneg _

/-- No entry is farther above the mean than the reach of its count. -/
theorem le_mean_add_reach {values : List ℝ} {value : ℝ} (several : 2 ≤ values.length) (member : value ∈ values) :
    value ≤ mean values + reach values.length * deviation values := by
  have count : (2 : ℝ) ≤ values.length := by exact_mod_cast several
  have positive : (0 : ℝ) < values.length := by linarith
  have freedom : (0 : ℝ) < values.length - 1 := by linarith
  have squared : (value - mean values) ^ 2 ≤ (reach values.length * deviation values) ^ 2 := by
    have scaled : variance values * (values.length - 1) = squares values := div_mul_cancel₀ _ freedom.ne'
    have far := sq_sub_mean_le member
    have nonneg : 0 ≤ variance values := by
      apply div_nonneg _ freedom.le
      apply List.sum_nonneg
      intro entry in_squares
      obtain ⟨other, _, rfl⟩ := List.mem_map.mp in_squares
      exact sq_nonneg _
    rw [mul_pow, deviation, Real.sq_sqrt nonneg, reach, div_pow, Real.sq_sqrt positive.le, div_mul_eq_mul_div,
      le_div_iff₀ positive]
    calc
      (value - mean values) ^ 2 * values.length = values.length * (value - mean values) ^ 2 := mul_comm _ _
      _ ≤ (values.length - 1) * squares values := far
      _ = ((values.length : ℝ) - 1) ^ 2 * variance values := by
        rw [← scaled]
        ring
  have reach_nonneg : 0 ≤ reach values.length * deviation values :=
    mul_nonneg (div_nonneg freedom.le (Real.sqrt_nonneg _)) (deviation_nonneg values)
  have absolute := abs_le_of_sq_le_sq squared reach_nonneg
  linarith [le_of_abs_le absolute]

/-! ## Another unit and origin -/

theorem mean_affine {values : List ℝ} (nonempty : values ≠ []) (factor offset : ℝ) :
    mean (values.map fun value => factor * value + offset) = factor * mean values + offset := by
  have count : (values.length : ℝ) ≠ 0 := by simpa using nonempty
  rw [mean, mean, List.sum_map_add, List.sum_map_mul_left, List.map_id', List.map_const', List.sum_replicate,
    List.length_map, nsmul_eq_mul, add_div, mul_div_assoc, mul_div_cancel_left₀ _ count]

theorem deviation_affine {values : List ℝ} (nonempty : values ≠ []) {factor : ℝ} (nonneg : 0 ≤ factor) (offset : ℝ) :
    deviation (values.map fun value => factor * value + offset) = factor * deviation values := by
  have spread : squares (values.map fun value => factor * value + offset) = factor ^ 2 * squares values := by
    rw [squares, mean_affine nonempty, List.map_map, squares, ← List.sum_map_mul_left]
    congr 1
    apply List.map_congr_left
    intro value _
    change (factor * value + offset - (factor * mean values + offset)) ^ 2 = factor ^ 2 * (value - mean values) ^ 2
    ring
  rw [deviation, variance, spread, List.length_map, mul_div_assoc, Real.sqrt_mul (sq_nonneg factor),
    Real.sqrt_sq nonneg]
  rfl

/-! ## A single spike -/

def spike (count : Nat) : List ℝ := 1 :: List.replicate (count - 1) 0

theorem length_spike {count : Nat} (positive : 0 < count) : (spike count).length = count := by
  rw [spike, List.length_cons, List.length_replicate]
  omega

theorem mean_spike {count : Nat} (positive : 0 < count) : mean (spike count) = 1 / count := by
  rw [mean, length_spike positive, spike, List.sum_cons, List.sum_replicate, smul_zero, add_zero]

theorem deviation_spike {count : Nat} (several : 2 ≤ count) : deviation (spike count) = 1 / Real.sqrt count := by
  have positive : (0 : ℝ) < count := by exact_mod_cast (show 0 < count by omega)
  have freedom : (count : ℝ) - 1 ≠ 0 := by
    have two : (2 : ℝ) ≤ count := by exact_mod_cast several
    linarith
  have rest : ((count - 1 : Nat) : ℝ) = count - 1 := by
    rw [Nat.cast_sub (by omega), Nat.cast_one]
  have squared : variance (spike count) = 1 / count := by
    rw [variance, squares, mean_spike (by omega), length_spike (by omega), spike, List.map_cons, List.sum_cons,
      List.map_replicate, List.sum_replicate, nsmul_eq_mul, rest]
    field_simp
    ring
  rw [deviation, squared, Real.sqrt_div zero_le_one, Real.sqrt_one]

end SentinelLab.Library.Deviation
