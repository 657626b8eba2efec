import SentinelLab.CbfVerifier
import SentinelLab.Numpy

/-! `CbfReachabilityEvaluator`, the script next to `CbfVerifier`: it takes the derivative of a sampled
trajectory numerically. Numpy is a parameter, the numbers are exact. -/

namespace SentinelLab.ReachabilityHarness
open CbfVerifier Library.FloatingPoint Library.Gradient

/-! ## The script -/

structure CbfReachabilityEvaluator where
  maxTempC : ℝ := (120 : Nat)
  alphaGain : ℝ := (1 : Nat) / (2 : Nat)

structure Assessment where
  minH : ℝ
  minCbfVal : ℝ
  isInvariant : Bool

/-- `85.0 + amplitude * (1.0 - np.exp(-0.3 * t))` -/
noncomputable def temperature (np : Numpy) (amplitude t : ℝ) : ℝ :=
  (85 : Nat) + amplitude * (1 - np.exp (-((3 : Nat) / (10 : Nat)) * t))

noncomputable def hVals (evaluator : CbfReachabilityEvaluator) (trajectory : List ℝ) : List ℝ :=
  trajectory.map (evaluator.maxTempC - ·)

noncomputable def hDots (slopes : List ℝ) : List ℝ := slopes.map (-·)

noncomputable def cbfConditions (evaluator : CbfReachabilityEvaluator) (trajectory slopes : List ℝ) : List ℝ :=
  List.zipWith (fun hDot h => hDot + evaluator.alphaGain * h) (hDots slopes) (hVals evaluator trajectory)

noncomputable def assess (np : Numpy) (evaluator : CbfReachabilityEvaluator) (trajectory times : List ℝ) :
    Option Assessment := do
  let slopes ← np.gradient trajectory times
  let minH ← np.amin (hVals evaluator trajectory)
  let minCbfVal ← np.amin (cbfConditions evaluator trajectory slopes)
  return { minH, minCbfVal, isInvariant := decide (0 ≤ minH) && decide (0 ≤ minCbfVal) }

noncomputable def evaluateTrajectory (np : Numpy) (evaluator : CbfReachabilityEvaluator) (numPoints : Nat) :
    Option (Assessment × Assessment) := do
  let times := np.linspace 0 (10 : Nat) numPoints
  let controlled ← assess np evaluator (times.map (temperature np (30 : Nat))) times
  let uncontrolled ← assess np evaluator (times.map (temperature np (40 : Nat))) times
  return (controlled, uncontrolled)

/-! ## The verdict -/

variable {np : Numpy} {evaluator : CbfReachabilityEvaluator} {trajectory times slopes : List ℝ}

theorem length_cbfConditions (shape : slopes.length = trajectory.length) :
    (cbfConditions evaluator trajectory slopes).length = trajectory.length := by
  rw [cbfConditions, List.length_zipWith, hDots, hVals, List.length_map, List.length_map, shape, Nat.min_self]

theorem exists_min {values : List ℝ} (nonempty : values ≠ []) :
    ∃ least, values.min? = some least ∧ IsLeast {v | v ∈ values} least := by
  obtain ⟨least, found⟩ := Option.isSome_iff_exists.mp (List.isSome_min?_iff.mpr nonempty)
  obtain ⟨member, below⟩ := List.min?_eq_some_iff.mp found
  exact ⟨least, found, member, below⟩

theorem nonneg_iff_of_isLeast {values : List ℝ} {least : ℝ} (minimum : IsLeast {value | value ∈ values} least) :
    0 ≤ least ↔ ∀ value ∈ values, 0 ≤ value :=
  ⟨fun above _ member => above.trans (minimum.2 member), fun all => all least minimum.1⟩

theorem assess_spec (documented : np.Documented) (taken : np.gradient trajectory times = some slopes)
    (shape : slopes.length = trajectory.length) (nonempty : trajectory ≠ []) :
    ∃ assessment, assess np evaluator trajectory times = some assessment ∧
      IsLeast {h | h ∈ hVals evaluator trajectory} assessment.minH ∧
      IsLeast {value | value ∈ cbfConditions evaluator trajectory slopes} assessment.minCbfVal ∧
      (assessment.isInvariant = true ↔ (∀ h ∈ hVals evaluator trajectory, 0 ≤ h) ∧
        ∀ value ∈ cbfConditions evaluator trajectory slopes, 0 ≤ value) := by
  have positive := List.length_pos_iff.mpr nonempty
  have samples : hVals evaluator trajectory ≠ [] := by
    rwa [← List.length_pos_iff, hVals, List.length_map]
  have conditions : cbfConditions evaluator trajectory slopes ≠ [] := by
    rwa [← List.length_pos_iff, length_cbfConditions shape]
  obtain ⟨minH, foundH, leastH⟩ := exists_min samples
  obtain ⟨minCbfVal, foundCbf, leastCbf⟩ := exists_min conditions
  refine ⟨⟨minH, minCbfVal, decide (0 ≤ minH) && decide (0 ≤ minCbfVal)⟩, ?_, leastH, leastCbf, ?_⟩
  · rw [assess, taken, Option.bind_eq_bind, Option.bind_some, documented.amin, documented.amin, foundH, foundCbf]
    rfl
  · rw [Bool.and_eq_true, decide_eq_true_iff, decide_eq_true_iff, nonneg_iff_of_isLeast leastH,
      nonneg_iff_of_isLeast leastCbf]

/-! ## The C++ verifier on the same samples -/

def cbfConfig (evaluator : CbfReachabilityEvaluator) : CbfConfig ℝ where
  maxSafeTempC := evaluator.maxTempC
  alphaGain := evaluator.alphaGain

noncomputable def statePoints (evaluator : CbfReachabilityEvaluator) (trajectory times slopes : List ℝ) :
    List (CbfStatePoint ℝ) :=
  ((times.zip trajectory).zip ((hDots slopes).zip (hVals evaluator trajectory))).map
    fun ((time, temperature), (hDot, h)) =>
      { timestampSec := time, temperatureC := temperature, hBarrierVal := h, hDotVal := hDot }

theorem length_hVals : (hVals evaluator trajectory).length = trajectory.length := List.length_map _

section Points

variable (same : times.length = trajectory.length) (shape : slopes.length = trajectory.length)
include same shape

theorem map_statePoints (value : ℝ → ℝ → ℝ) :
    (statePoints evaluator trajectory times slopes).map (fun pt => value pt.hDotVal pt.hBarrierVal) =
      List.zipWith value (hDots slopes) (hVals evaluator trajectory) := by
  have derivatives : ((hDots slopes).zip (hVals evaluator trajectory)).length ≤ (times.zip trajectory).length := by
    rw [List.length_zip, List.length_zip, hDots, List.length_map, length_hVals, same, shape]
  calc (statePoints evaluator trajectory times slopes).map (fun pt => value pt.hDotVal pt.hBarrierVal)
      = (((times.zip trajectory).zip ((hDots slopes).zip (hVals evaluator trajectory))).map Prod.snd).map
          fun pair => value pair.1 pair.2 := by
        rw [statePoints, List.map_map, List.map_map]
        rfl
    _ = ((hDots slopes).zip (hVals evaluator trajectory)).map fun pair => value pair.1 pair.2 := by
        rw [List.map_snd_zip derivatives]
    _ = List.zipWith value (hDots slopes) (hVals evaluator trajectory) := List.map_zip_eq_zipWith

theorem barriers_statePoints :
    (statePoints evaluator trajectory times slopes).map (·.hBarrierVal) = hVals evaluator trajectory := by
  rw [map_statePoints same shape fun _ h => h]
  have long : (hVals evaluator trajectory).length ≤ (hDots slopes).length := by
    rw [length_hVals, hDots, List.length_map, shape]
  calc List.zipWith (fun _ h => h) (hDots slopes) (hVals evaluator trajectory)
      = ((hDots slopes).zip (hVals evaluator trajectory)).map Prod.snd := List.map_uncurry_zip_eq_zipWith.symm
    _ = hVals evaluator trajectory := List.map_snd_zip long

theorem conditions_statePoints :
    (statePoints evaluator trajectory times slopes).map (cbfCondition (cbfConfig evaluator)) =
      cbfConditions evaluator trajectory slopes :=
  map_statePoints same shape fun hDot h => hDot + evaluator.alphaGain * h

theorem countP_violates_eq_zero_iff :
    (statePoints evaluator trajectory times slopes).countP (fun pt => Violates (cbfConfig evaluator) pt) = 0 ↔
      (∀ h ∈ hVals evaluator trajectory, 0 ≤ h) ∧
        ∀ value ∈ cbfConditions evaluator trajectory slopes, 0 ≤ value := by
  have zero : (0.0 : ℝ) = 0 := by norm_num
  rw [List.countP_eq_zero, ← barriers_statePoints same shape, ← conditions_statePoints same shape,
    List.forall_mem_map, List.forall_mem_map, ← forall₂_and]
  refine forall₂_congr fun pt _ => ?_
  rw [decide_eq_true_iff, Violates, not_or, not_lt, not_lt, zero]

end Points

theorem foldl_stdMin_eq {values : List ℝ} {least : ℝ} (minimum : IsLeast {value | value ∈ values} least) (seed : ℝ) :
    values.foldl stdMin seed = min seed least := by
  apply (foldl_stdMin_isLeast seed values).unique
  constructor
  · rcases min_choice seed least with first | second
    · exact .inl first
    · rw [second]
      exact .inr minimum.1
  · rintro value (rfl | member)
    · exact min_le_left ..
    · exact (min_le_right ..).trans (minimum.2 member)

theorem minCbfConditionVal_eq (libm : Libm ℝ) (config : CbfConfig ℝ) {points : List (CbfStatePoint ℝ)}
    (nonempty : points ≠ []) :
    (verifyTrajectory libm config points).minCbfConditionVal =
      (points.map (cbfCondition config)).foldl stdMin 1e9 := by
  have whole : ¬points.isEmpty = true := by
    rw [List.isEmpty_iff]
    exact nonempty
  simp only [verifyTrajectory, if_neg whole, foldl_verifyPoint]

/-- Script and verifier have the same verdict on every trajectory sampled at increasing times; the
least values they report are the same as far as they do not exceed the initial value of the verifier's
accumulators. -/
theorem verifier_agrees (libm : Libm ℝ) (np : Numpy) (documented : np.Documented) (evaluator : CbfReachabilityEvaluator)
    (trajectory times : List ℝ) (enough : 2 ≤ trajectory.length) (same : times.length = trajectory.length)
    (increasing : times.Pairwise (· < ·)) :
    ∃ slopes assessment, np.gradient trajectory times = some slopes ∧
      assess np evaluator trajectory times = some assessment ∧
      let res := verifyTrajectory libm (cbfConfig evaluator) (statePoints evaluator trajectory times slopes)
      res.isFormallySafe = assessment.isInvariant ∧
        (res.minBarrierMarginH = assessment.minH ↔ assessment.minH ≤ 1e9) ∧
        (res.minCbfConditionVal = assessment.minCbfVal ↔ assessment.minCbfVal ≤ 1e9) := by
  have taken := documented.gradient trajectory times enough same increasing
  have shape := length_gradient trajectory times
  have some_sample : trajectory ≠ [] := by
    rw [← List.length_pos_iff]
    omega
  obtain ⟨assessment, assessed, leastH, leastCbf, invariant⟩ :=
    @assess_spec np evaluator trajectory times _ documented taken shape some_sample
  have barriers := @barriers_statePoints evaluator trajectory times _ same shape
  have nonempty : statePoints evaluator trajectory times (gradient trajectory times) ≠ [] := by
    intro none
    have length := @length_hVals evaluator trajectory
    rw [← barriers, none, List.map_nil, List.length_nil] at length
    omega
  obtain ⟨margin, _, safe⟩ := verifyTrajectory_fields libm (cbfConfig evaluator) nonempty
  rw [barriers, foldl_stdMin_eq leastH] at margin safe
  have condition := minCbfConditionVal_eq libm (cbfConfig evaluator) nonempty
  rw [conditions_statePoints same shape, foldl_stdMin_eq leastCbf] at condition
  refine ⟨gradient trajectory times, assessment, taken, assessed, ?_, ?_, ?_⟩
  · rw [safe, Bool.eq_iff_iff, decide_eq_true_iff, countP_violates_eq_zero_iff same shape, invariant]
    refine and_iff_left_of_imp fun held => le_min (by norm_num) ?_
    have least := held.1 _ leastH.1
    norm_num
    exact least
  · rw [margin, min_eq_right_iff]
  · rw [condition, min_eq_right_iff]

theorem verifier_agrees_two_samples : ∃ slopes assessment, Numpy.exactly.gradient [85, 90] [0, 1] = some slopes ∧
    assess Numpy.exactly {} [85, 90] [0, 1] = some assessment ∧
    let res := verifyTrajectory exact (cbfConfig {}) (statePoints {} [85, 90] [0, 1] slopes)
    res.isFormallySafe = assessment.isInvariant ∧
      (res.minBarrierMarginH = assessment.minH ↔ assessment.minH ≤ 1e9) ∧
      (res.minCbfConditionVal = assessment.minCbfVal ↔ assessment.minCbfVal ≤ 1e9) :=
  verifier_agrees exact Numpy.exactly Numpy.exactly_documented {} [85, 90] [0, 1] (by decide) (by decide)
    (by simp)

/-! ## The two trajectories -/

noncomputable def timeStep (numPoints : Nat) : ℝ := (10 : Nat) / ((numPoints : ℝ) - 1)

noncomputable def timeSteps (numPoints : Nat) : List ℝ :=
  (List.range numPoints).map fun i : Nat => (i : ℝ) * timeStep numPoints

section Samples

variable {numPoints : Nat} (enough : 2 ≤ numPoints)
include enough

theorem timeStep_bounds : 0 < timeStep numPoints ∧ timeStep numPoints ≤ 10 := by
  have count : (2 : ℝ) ≤ numPoints := by exact_mod_cast enough
  unfold timeStep
  push_cast
  constructor
  · exact div_pos (by norm_num) (by linarith)
  · exact div_le_of_le_mul₀ (by linarith) (by norm_num) (by linarith)

theorem last_step {i : Nat} (last : i + 1 = numPoints) : i * timeStep numPoints = 10 := by
  have count : (2 : ℝ) ≤ numPoints := by exact_mod_cast enough
  have index : (i : ℝ) = numPoints - 1 := by
    rw [← last]
    push_cast
    ring
  have positive : (numPoints : ℝ) - 1 ≠ 0 := by
    have above : 0 < (numPoints : ℝ) - 1 := by linarith
    exact above.ne'
  rw [index, timeStep, mul_div_cancel₀ _ positive]
  norm_num

theorem timeStep_inner {i : Nat} (first : i ≠ 0) (inside : i < numPoints) (last : i + 1 ≠ numPoints) :
    timeStep numPoints ≤ 5 := by
  have three : 3 ≤ numPoints := by omega
  have count : (3 : ℝ) ≤ numPoints := by exact_mod_cast three
  unfold timeStep
  push_cast
  exact div_le_of_le_mul₀ (by linarith) (by norm_num) (by linarith)

theorem increasing_timeSteps : (timeSteps numPoints).Pairwise (· < ·) := by
  rw [timeSteps, List.pairwise_map]
  refine List.pairwise_lt_range.imp fun earlier => ?_
  exact mul_lt_mul_of_pos_right (Nat.cast_lt.mpr earlier) (timeStep_bounds enough).1

theorem cbfConditions_samples (f : ℝ → ℝ) :
    cbfConditions evaluator ((timeSteps numPoints).map f) (gradient ((timeSteps numPoints).map f) (timeSteps numPoints)) =
      (List.range numPoints).map fun i : Nat =>
        -sampleSlope f (timeStep numPoints) numPoints i +
          evaluator.alphaGain * (evaluator.maxTempC - f (i * timeStep numPoints)) := by
  have samples : (timeSteps numPoints).map f = (List.range numPoints).map fun i : Nat => f (i * timeStep numPoints) :=
    List.map_map
  rw [cbfConditions, hDots, hVals, samples]
  have slopes := gradient_equidistant f (timeStep_bounds enough).1.ne' enough
  rw [timeSteps, slopes, List.map_map, List.map_map, List.zipWith_map, List.zipWith_self]
  rfl

theorem assess_samples (documented : np.Documented) (f : ℝ → ℝ) :
    ∃ assessment, assess np evaluator ((timeSteps numPoints).map f) (timeSteps numPoints) = some assessment ∧
      (assessment.isInvariant = true ↔ ∀ i < numPoints, 0 ≤ evaluator.maxTempC - f (i * timeStep numPoints) ∧
        sampleSlope f (timeStep numPoints) numPoints i ≤
          evaluator.alphaGain * (evaluator.maxTempC - f (i * timeStep numPoints))) := by
  have count : (timeSteps numPoints).length = numPoints := by rw [timeSteps, List.length_map, List.length_range]
  have samples : 2 ≤ ((timeSteps numPoints).map f).length := by rwa [List.length_map, count]
  have taken := documented.gradient _ (timeSteps numPoints) samples (List.length_map _).symm
    (increasing_timeSteps enough)
  have some_sample : (timeSteps numPoints).map f ≠ [] := by
    rw [← List.length_pos_iff]
    omega
  obtain ⟨assessment, assessed, _, _, invariant⟩ :=
    @assess_spec np evaluator _ _ _ documented taken (length_gradient _ _) some_sample
  refine ⟨assessment, assessed, ?_⟩
  have barriers : hVals evaluator ((timeSteps numPoints).map f) =
      (List.range numPoints).map fun i : Nat => evaluator.maxTempC - f (i * timeStep numPoints) := by
    rw [hVals, timeSteps, List.map_map, List.map_map]
    rfl
  rw [invariant, cbfConditions_samples enough, barriers, List.forall_mem_map, List.forall_mem_map, ← forall₂_and]
  refine forall_congr' fun i => ?_
  rw [List.mem_range, neg_add_eq_sub, sub_nonneg (b := sampleSlope f (timeStep numPoints) numPoints i)]

end Samples

/-! ### The exponential approach -/

theorem exp_three_bounds : 20 < Real.exp 3 ∧ Real.exp 3 < 81 / 4 := by
  have cube : Real.exp 3 = Real.exp 1 ^ 3 := by
    rw [← Real.exp_nat_mul]
    norm_num
  have above := Real.exp_one_gt_d9
  have below := Real.exp_one_lt_d9
  rw [cube]
  constructor
  · calc (20 : ℝ) < 2.7182818283 ^ 3 := by norm_num
      _ < Real.exp 1 ^ 3 := pow_lt_pow_left₀ above (by norm_num) (by norm_num)
  · calc Real.exp 1 ^ 3 < 2.7182818286 ^ 3 := pow_lt_pow_left₀ below (Real.exp_pos 1).le (by norm_num)
      _ < 81 / 4 := by norm_num

theorem exp_three_halves : Real.exp (3 / 2) < 9 / 2 := by
  have square : Real.exp (3 / 2) ^ 2 = Real.exp 3 := by
    rw [← Real.exp_nat_mul]
    norm_num
  apply lt_of_pow_lt_pow_left₀ 2 (by norm_num)
  rw [square]
  calc Real.exp 3 < 81 / 4 := exp_three_bounds.2
    _ = (9 / 2) ^ 2 := by norm_num

noncomputable def remaining (t : ℝ) : ℝ := Real.exp (-((3 : Nat) / (10 : Nat)) * t)

theorem remaining_eq (t : ℝ) : remaining t = Real.exp (-(3 / 10) * t) := by
  rw [remaining]
  push_cast
  rfl

noncomputable def approach (amplitude t : ℝ) : ℝ := 85 + amplitude * (1 - remaining t)

theorem temperature_eq (documented : np.Documented) (amplitude : ℝ) : temperature np amplitude = approach amplitude := by
  funext t
  rw [temperature, documented.exp, approach, remaining]
  push_cast
  rfl

theorem remaining_zero : remaining 0 = 1 := by
  rw [remaining, mul_zero, Real.exp_zero]

theorem remaining_add (t step : ℝ) : remaining (t + step) = remaining t * Real.exp (-(3 / 10 * step)) := by
  rw [remaining_eq, remaining_eq, ← Real.exp_add]
  ring_nf

theorem remaining_sub (t step : ℝ) : remaining (t - step) = remaining t * Real.exp (3 / 10 * step) := by
  rw [remaining_eq, remaining_eq, ← Real.exp_add]
  ring_nf

theorem remaining_last : remaining 10 * Real.exp 3 = 1 := by
  rw [remaining_eq, ← Real.exp_add]
  norm_num

variable {step : ℝ}

theorem rise_first (positive : 0 < step) : (1 - remaining step) / step ≤ 3 / 10 := by
  have tangent := Real.add_one_le_exp (-(3 / 10) * step)
  rw [div_le_iff₀ positive, remaining_eq]
  linarith

theorem rise_inner (positive : 0 < step) (fine : step ≤ 5) :
    (Real.exp (3 / 10 * step) - Real.exp (-(3 / 10 * step))) / (step + step) ≤ 1 / 2 := by
  have chord := @exp_le_chord (3 / 10 * step) (3 / 2) (by norm_num) (by linarith) (by linarith)
  have tangent := Real.add_one_le_exp (-(3 / 10 * step))
  have numeric := exp_three_halves
  rw [div_le_iff₀ (by linarith)]
  nlinarith

theorem rise_last (positive : 0 < step) (whole : step ≤ 10) :
    remaining 10 * (Real.exp (3 / 10 * step) - 1) / step ≤ (1 - remaining 10) / 10 := by
  have chord := @exp_le_chord (3 / 10 * step) 3 (by norm_num) (by linarith) (by linarith)
  have left := remaining_last
  have some : 0 < remaining 10 := Real.exp_pos _
  rw [div_le_iff₀ positive]
  calc remaining 10 * (Real.exp (3 / 10 * step) - 1)
      ≤ remaining 10 * (3 / 10 * step * ((Real.exp 3 - 1) / 3)) := by
        apply mul_le_mul_of_nonneg_left _ some.le
        linarith
    _ = (remaining 10 * Real.exp 3 - remaining 10) / 10 * step := by ring
    _ = (1 - remaining 10) / 10 * step := by rw [left]

/-- The controlled trajectory rises slower than half of its distance to 120 degrees. -/
theorem slope_controlled {numPoints i : Nat} (enough : 2 ≤ numPoints) (inside : i < numPoints) :
    sampleSlope (approach 30) (timeStep numPoints) numPoints i ≤
      1 / 2 * (120 - approach 30 (i * timeStep numPoints)) := by
  obtain ⟨positive, whole⟩ := timeStep_bounds enough
  have some : 0 < remaining (i * timeStep numPoints) := Real.exp_pos _
  unfold sampleSlope
  simp only [approach]
  split
  next first =>
    have rise := rise_first positive
    rw [first, Nat.cast_zero, zero_mul, remaining_zero]
    calc (85 + 30 * (1 - remaining (timeStep numPoints)) - (85 + 30 * (1 - 1))) / timeStep numPoints
        = 30 * ((1 - remaining (timeStep numPoints)) / timeStep numPoints) := by ring
      _ ≤ 1 / 2 * (120 - (85 + 30 * (1 - 1))) := by linarith
  next later =>
    split
    next last =>
      have rise := rise_last positive whole
      have enough_left : 1 < remaining 10 * (81 / 4) := by
        rw [← remaining_last]
        exact mul_lt_mul_of_pos_left exp_three_bounds.2 (Real.exp_pos _)
      rw [last_step enough last, remaining_sub]
      calc (85 + 30 * (1 - remaining 10) -
            (85 + 30 * (1 - remaining 10 * Real.exp (3 / 10 * timeStep numPoints)))) / timeStep numPoints
          = 30 * (remaining 10 * (Real.exp (3 / 10 * timeStep numPoints) - 1) / timeStep numPoints) := by ring
        _ ≤ 30 * ((1 - remaining 10) / 10) := by linarith
        _ ≤ 1 / 2 * (120 - (85 + 30 * (1 - remaining 10))) := by linarith
    next inner =>
      have rise := rise_inner positive (timeStep_inner enough later inside inner)
      rw [remaining_sub, remaining_add]
      generalize remaining (i * timeStep numPoints) = left at some ⊢
      calc (85 + 30 * (1 - left * Real.exp (-(3 / 10 * timeStep numPoints))) -
            (85 + 30 * (1 - left * Real.exp (3 / 10 * timeStep numPoints)))) / (timeStep numPoints + timeStep numPoints)
          = 30 * left * ((Real.exp (3 / 10 * timeStep numPoints) - Real.exp (-(3 / 10 * timeStep numPoints))) /
              (timeStep numPoints + timeStep numPoints)) := by ring
        _ ≤ 30 * left * (1 / 2) := mul_le_mul_of_nonneg_left rise (by linarith)
        _ ≤ 1 / 2 * (120 - (85 + 30 * (1 - left))) := by linarith

/-- With any number of points, at least two, the controlled trajectory is found invariant and the
uncontrolled one is not, for every limit from 120 to 123 degrees and every gain from a half. -/
theorem demonstration_verdicts (np : Numpy) (documented : np.Documented) (evaluator : CbfReachabilityEvaluator)
    (numPoints : Nat) (enough : 2 ≤ numPoints) (limit : 120 ≤ evaluator.maxTempC ∧ evaluator.maxTempC ≤ 123)
    (gain : 1 / 2 ≤ evaluator.alphaGain) :
    ∃ controlled uncontrolled, evaluateTrajectory np evaluator numPoints = some (controlled, uncontrolled) ∧
      controlled.isInvariant = true ∧ uncontrolled.isInvariant = false := by
  obtain ⟨controlled, assessed, invariant⟩ := @assess_samples np evaluator numPoints enough documented (approach 30)
  obtain ⟨uncontrolled, assessed', invariant'⟩ := @assess_samples np evaluator numPoints enough documented (approach 40)
  have times : np.linspace 0 ((10 : Nat) : ℝ) numPoints = timeSteps numPoints := by
    rw [documented.linspace _ _ _ enough]
    simp only [sub_zero, zero_add]
    rfl
  refine ⟨controlled, uncontrolled, ?_, ?_, ?_⟩
  · simp only [evaluateTrajectory, times, temperature_eq documented]
    rw [Nat.cast_ofNat, Nat.cast_ofNat, assessed, assessed']
    rfl
  · rw [invariant]
    intro i inside
    have rise := slope_controlled enough inside
    have barrier : 0 ≤ 120 - approach 30 (i * timeStep numPoints) := by
      have some : 0 < remaining (i * timeStep numPoints) := Real.exp_pos _
      rw [approach]
      linarith
    have margin : 120 - approach 30 (i * timeStep numPoints) ≤
        evaluator.maxTempC - approach 30 (i * timeStep numPoints) := by linarith [limit.1]
    refine ⟨barrier.trans margin, rise.trans ?_⟩
    exact mul_le_mul gain margin barrier (by linarith)
  · rw [Bool.eq_false_iff, Ne, invariant']
    intro verified
    have last : numPoints - 1 + 1 = numPoints := by omega
    have barrier := (verified (numPoints - 1) (by omega)).1
    have little_left : remaining 10 * 20 < 1 := by
      rw [← remaining_last]
      exact mul_lt_mul_of_pos_left exp_three_bounds.1 (Real.exp_pos _)
    rw [last_step enough last, approach] at barrier
    linarith [limit.2]

theorem demonstration_verdicts_default : ∃ controlled uncontrolled,
    evaluateTrajectory Numpy.exactly {} 100 = some (controlled, uncontrolled) ∧
      controlled.isInvariant = true ∧ uncontrolled.isInvariant = false := by
  apply demonstration_verdicts Numpy.exactly Numpy.exactly_documented {} 100 (by decide)
  · constructor
    · norm_num
    · norm_num
  · norm_num

end SentinelLab.ReachabilityHarness
