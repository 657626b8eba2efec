import Mathlib

/-! Difference quotients of sampled functions. -/

namespace SentinelLab.Library.Gradient

section
variable {F : Type*} [Field F]

/-- The slope at the middle one of three points of the parabola through them; `before` and `behind` are
the distances between them. -/
def parabolaSlope (before behind : F) (left middle right : F) : F :=
  -behind / (before * (before + behind)) * left + (behind - before) / (before * behind) * middle +
    before / (behind * (before + behind)) * right

/-- The slopes of values at positions: one-sided at the ends, of a parabola between them. -/
def gradient (values positions : List F) : List F :=
  (List.range values.length).map fun i =>
    let value (j : Nat) := values.getD j 0
    let step (j : Nat) := positions.getD (j + 1) 0 - positions.getD j 0
    if i = 0 then (value 1 - value 0) / step 0
    else if i + 1 = values.length then (value i - value (i - 1)) / step (i - 1)
    else parabolaSlope (step (i - 1)) (step i) (value (i - 1)) (value i) (value (i + 1))

theorem length_gradient (values positions : List F) : (gradient values positions).length = values.length := by
  rw [gradient, List.length_map, List.length_range]

theorem parabolaSlope_same [CharZero F] {step : F} (apart : step ≠ 0) (left middle right : F) :
    parabolaSlope step step left middle right = (right - left) / (step + step) := by
  have double : step + step ≠ 0 := by
    rw [← two_mul]
    exact mul_ne_zero two_ne_zero apart
  unfold parabolaSlope
  field_simp
  ring

/-- The slopes of a function at `count` points of one distance. -/
def sampleSlope (f : F → F) (distance : F) (count i : Nat) : F :=
  if i = 0 then (f distance - f 0) / distance
  else if i + 1 = count then (f (i * distance) - f (i * distance - distance)) / distance
  else (f (i * distance + distance) - f (i * distance - distance)) / (distance + distance)

theorem getD_samples {count j : Nat} (inside : j < count) (sample : Nat → F) :
    ((List.range count).map sample).getD j 0 = sample j := by
  rw [List.getD_eq_getElem?_getD, List.getElem?_map, List.getElem?_range inside]
  rfl

theorem gradient_equidistant [CharZero F] (f : F → F) {distance : F} (apart : distance ≠ 0) {count : Nat}
    (enough : 2 ≤ count) :
    gradient ((List.range count).map fun i : Nat => f (i * distance)) ((List.range count).map fun i : Nat => i * distance) =
      (List.range count).map (sampleSlope f distance count) := by
  rw [gradient, List.length_map, List.length_range]
  apply List.map_congr_left
  intro i member
  have inside := List.mem_range.mp member
  cases i with
  | zero =>
    rw [sampleSlope, if_pos rfl]
    dsimp only
    rw [if_pos rfl, getD_samples (by omega), getD_samples (by omega), getD_samples (by omega),
      getD_samples (by omega)]
    simp only [zero_add, Nat.cast_zero, Nat.cast_one, zero_mul, one_mul, sub_zero]
  | succ k =>
    have before : (k : F) * distance = ((k + 1 : Nat) : F) * distance - distance := by
      push_cast
      ring
    have step : ((k + 1 : Nat) : F) * distance - (k : F) * distance = distance := by
      rw [before, sub_sub_cancel]
    rw [sampleSlope, if_neg k.succ_ne_zero]
    dsimp only
    rw [if_neg k.succ_ne_zero, Nat.add_sub_cancel]
    split
    next last =>
      rw [getD_samples inside, getD_samples (by omega), getD_samples inside, getD_samples (by omega), step, before]
    next inner =>
      have behind : ((k + 1 + 1 : Nat) : F) * distance = ((k + 1 : Nat) : F) * distance + distance := by
        push_cast
        ring
      have step' : ((k + 1 + 1 : Nat) : F) * distance - ((k + 1 : Nat) : F) * distance = distance := by
        rw [behind, add_sub_cancel_left]
      rw [getD_samples inside, getD_samples (by omega), getD_samples (by omega), getD_samples (by omega),
        getD_samples inside, getD_samples (by omega), step, step', parabolaSlope_same apart, before, behind]

end

/-! ## The exponential function -/

theorem exp_le_chord {x bound : ℝ} (positive : 0 < bound) (above : 0 ≤ x) (below : x ≤ bound) :
    Real.exp x ≤ 1 + x * ((Real.exp bound - 1) / bound) := by
  have share : 0 ≤ x / bound := div_nonneg above positive.le
  have rest : 0 ≤ 1 - x / bound := sub_nonneg.mpr (div_le_one_of_le₀ below positive.le)
  have chord := convexOn_exp.2 (Set.mem_univ 0) (Set.mem_univ bound) rest share (sub_add_cancel 1 (x / bound))
  simp only [smul_eq_mul, mul_zero, zero_add, Real.exp_zero, mul_one] at chord
  rw [div_mul_cancel₀ x positive.ne'] at chord
  calc Real.exp x ≤ 1 - x / bound + x / bound * Real.exp bound := chord
    _ = 1 + x * ((Real.exp bound - 1) / bound) := by ring

end SentinelLab.Library.Gradient
