import SentinelLab.MatrixInspector

/-! What the certificates and the safety fields of a live run mean, in exact arithmetic. -/

namespace SentinelLab.LiveSafety
open Library.FloatingPoint CbfVerifier MatrixInspector

variable (config : MatrixInspectorConfig ℝ) (snapshots : List (LiveMatrixSnapshot ℝ))

def barrier (i : Nat) : ℝ := config.maxSafeTempC - (snapshots.getD i {}).physicalTempC

noncomputable def certificate : CbfVerificationResult ℝ :=
  verifyTrajectory exact { maxSafeTempC := config.maxSafeTempC, alphaGain := 0.5 }
    (cbfTrajectory exact config 0 none snapshots)

/-- The run starts in the safe set, and no step takes more than 1/21 of the margin. -/
def BoundedDecay : Prop :=
  0 ≤ barrier config snapshots 0 ∧
    ∀ i, i + 1 < snapshots.length → 20 / 21 * barrier config snapshots i ≤ barrier config snapshots (i + 1)

theorem decay_of_steps {h : ℕ → ℝ} {rate : ℝ} {n : ℕ} (positive : 0 ≤ rate)
    (steps : ∀ i, i + 1 < n → rate * h i ≤ h (i + 1)) (i : ℕ) (inside : i < n) : rate ^ i * h 0 ≤ h i := by
  induction i with
  | zero => simp
  | succ i ih =>
    calc rate ^ (i + 1) * h 0 = rate * (rate ^ i * h 0) := by ring
      _ ≤ rate * h i := mul_le_mul_of_nonneg_left (ih (by omega)) positive
      _ ≤ h (i + 1) := steps i inside

theorem barrier_eq {i : Nat} (inside : i < snapshots.length) :
    barrier config snapshots i = config.maxSafeTempC - snapshots[i].physicalTempC := by
  rw [barrier, List.getD_eq_getElem _ _ inside]

theorem violates_iff {i : Nat} {pt : CbfStatePoint ℝ} (inside : i < snapshots.length)
    (point : (cbfTrajectory exact config 0 none snapshots)[i]? = some pt) :
    ¬Violates { maxSafeTempC := config.maxSafeTempC, alphaGain := 0.5 } pt ↔ 0 ≤ barrier config snapshots i ∧
      ∀ j, i = j + 1 → 20 / 21 * barrier config snapshots j ≤ barrier config snapshots i := by
  rw [cbfTrajectory_getElem?, List.getElem?_eq_getElem inside, Option.map_some, Option.some.injEq] at point
  subst point
  rw [Violates, cbfCondition, not_or, not_lt, not_lt]
  cases i with
  | zero =>
    rw [barrier_eq config snapshots inside]
    simp only [cbfPoint, if_true]
    constructor
    · intro safe
      exact ⟨by linarith [safe.1], nofun⟩
    · intro safe
      exact ⟨by linarith [safe.1], by linarith [safe.1]⟩
  | succ j =>
    have before : j < snapshots.length := by omega
    rw [barrier_eq config snapshots inside]
    simp only [cbfPoint, Nat.succ_ne_zero, if_false, Nat.add_sub_cancel, List.getElem?_eq_getElem before,
      Option.map_some, Nat.add_right_cancel_iff, forall_eq', barrier_eq config snapshots before]
    have quotient : -(snapshots[j + 1].physicalTempC - snapshots[j].physicalTempC) / 0.1 =
        10 * (snapshots[j].physicalTempC - snapshots[j + 1].physicalTempC) := by
      norm_num
      ring
    rw [quotient]
    constructor
    · intro safe
      exact ⟨by linarith [safe.1], by linarith [safe.2]⟩
    · intro safe
      exact ⟨by linarith [safe.1], by linarith [safe.2]⟩

theorem BoundedDecay.margin {config : MatrixInspectorConfig ℝ} {snapshots : List (LiveMatrixSnapshot ℝ)}
    (bounded : BoundedDecay config snapshots) {i : Nat} (inside : i < snapshots.length) :
    (20 / 21) ^ i * barrier config snapshots 0 ≤ barrier config snapshots i ∧
      0 ≤ (20 / 21) ^ i * barrier config snapshots 0 := by
  have rate : (0 : ℝ) ≤ 20 / 21 := by norm_num
  exact ⟨decay_of_steps rate bounded.2 i inside, mul_nonneg (pow_nonneg rate i) bounded.1⟩

theorem none_violates_iff (nonempty : snapshots ≠ []) :
    (∀ pt ∈ cbfTrajectory exact config 0 none snapshots,
      ¬Violates { maxSafeTempC := config.maxSafeTempC, alphaGain := 0.5 } pt) ↔ BoundedDecay config snapshots := by
  have some : 0 < snapshots.length := List.length_pos_of_ne_nil nonempty
  have long := length_cbfTrajectory exact config 0 none snapshots
  constructor
  · intro safe
    have at_sample (i : Nat) (inside : i < snapshots.length) := by
      have point := List.getElem?_eq_getElem (long ▸ inside)
      exact (violates_iff config snapshots inside point).mp (safe _ (List.mem_of_getElem? point))
    refine ⟨(at_sample 0 some).1, ?_⟩
    intro i inside
    exact (at_sample (i + 1) inside).2 i rfl
  · intro bounded pt member
    obtain ⟨i, point⟩ := List.mem_iff_getElem?.mp member
    have inside : i < snapshots.length := by
      rw [← long]
      exact (List.getElem?_eq_some_iff.mp point).1
    apply (violates_iff config snapshots inside point).mpr
    obtain ⟨above, positive⟩ := bounded.margin inside
    refine ⟨positive.trans above, ?_⟩
    intro j next
    rw [next] at inside ⊢
    exact bounded.2 j inside

/-- A certificate proves forward invariance: it is issued exactly for the runs that start in the safe
set and lose at most 1/21 of their margin in a step, which then stay above a geometric bound. -/
theorem certificate_iff_bounded_decay (nonempty : snapshots ≠ []) :
    ((certificate config snapshots).isFormallySafe = true ↔ BoundedDecay config snapshots) ∧
      ((certificate config snapshots).isFormallySafe = true → ∀ i < snapshots.length,
        (20 / 21) ^ i * barrier config snapshots 0 ≤ barrier config snapshots i ∧
          0 ≤ (20 / 21) ^ i * barrier config snapshots 0) ∧
      ((certificate config snapshots).boundaryViolationsCount = 0 ↔ BoundedDecay config snapshots) := by
  have trajectory : cbfTrajectory exact config 0 none snapshots ≠ [] := by
    apply List.ne_nil_of_length_pos
    rw [length_cbfTrajectory]
    exact List.length_pos_of_ne_nil nonempty
  obtain ⟨_, violations, safe⟩ := verifyTrajectory_fields exact
    { maxSafeTempC := config.maxSafeTempC, alphaGain := 0.5 } trajectory
  have counted : (certificate config snapshots).boundaryViolationsCount = 0 ↔ BoundedDecay config snapshots := by
    rw [certificate, violations, List.countP_eq_zero, ← none_violates_iff config snapshots nonempty]
    simp only [decide_eq_true_eq]
  -- The minimum of the margins adds nothing to the count: a point below zero is counted.
  have lowest (bounded : BoundedDecay config snapshots) :
      0.0 ≤ ((cbfTrajectory exact config 0 none snapshots).map (·.hBarrierVal)).foldl stdMin 1e9 := by
    have least := foldl_stdMin_isLeast (1e9 : ℝ)
      ((cbfTrajectory exact config 0 none snapshots).map (·.hBarrierVal))
    rcases least.1 with seed | margin
    · rw [seed]
      norm_num
    · obtain ⟨pt, member, value⟩ := List.mem_map.mp margin
      have uncounted := (none_violates_iff config snapshots nonempty).mpr bounded pt member
      rw [← value]
      exact le_of_not_gt fun below => uncounted (.inl below)
  have verdict : (certificate config snapshots).isFormallySafe = true ↔ BoundedDecay config snapshots := by
    rw [← counted, certificate, safe, decide_eq_true_iff, violations]
    constructor
    · intro verified
      exact verified.1
    · intro none
      refine ⟨none, lowest (counted.mp ?_)⟩
      rw [certificate, violations, none]
  exact ⟨verdict, fun issued i inside => (verdict.mp issued).margin inside, counted⟩

theorem certificate_iff_bounded_decay_cooling :
    ((certificate {} [{ physicalTempC := 110 }, { physicalTempC := 60 }]).isFormallySafe = true ↔
      BoundedDecay {} [{ physicalTempC := 110 }, { physicalTempC := 60 }]) ∧
    BoundedDecay {} [{ physicalTempC := 110 }, { physicalTempC := 60 }] := by
  refine ⟨(certificate_iff_bounded_decay {} _ (by simp)).1, ?_, ?_⟩
  · norm_num [barrier]
  · intro i inside
    have first : i = 0 := by
      simp only [List.length_cons, List.length_nil] at inside
      omega
    rw [first]
    norm_num [barrier]

/-! ## The safety fields of the scorecard -/

def temperatures : List ℝ := snapshots.map (·.physicalTempC)

/-- The three fields of a scorecard describe the recorded temperatures. -/
def Describes (sc : LiveInspectionScorecard ℝ) : Prop :=
  IsGreatest {temperature | temperature ∈ temperatures snapshots} sc.maxObservedTempC ∧
    (sc.physicalSafetyMaintained = true ↔
      ∀ temperature ∈ temperatures snapshots, temperature ≤ config.maxSafeTempC) ∧
    sc.minCbfSafetyMargin = config.maxSafeTempC - sc.maxObservedTempC

/-- The seeds of the two accumulators are reached: some temperature is not below zero, and some margin is
not above `1e9`. -/
def SeedsReached : Prop :=
  (∃ temperature ∈ temperatures snapshots, 0 ≤ temperature) ∧
    ∃ temperature ∈ temperatures snapshots, config.maxSafeTempC - temperature ≤ 1e9

theorem isLeast_margin (limit : ℝ) {hottest : ℝ} {recorded : List ℝ}
    (greatest : IsGreatest {temperature | temperature ∈ recorded} hottest) :
    IsLeast {margin | margin ∈ recorded.map (limit - ·)} (limit - hottest) := by
  constructor
  · exact List.mem_map.mpr ⟨hottest, greatest.1, rfl⟩
  · intro margin member
    obtain ⟨temperature, recorded, rfl⟩ := List.mem_map.mp member
    exact sub_le_sub_left (greatest.2 recorded) limit

/-- The scorecard describes the recorded temperatures exactly if its two seeds are reached. -/
theorem scorecard_describes_iff (nonempty : snapshots ≠ []) :
    ∃ sc, evaluateLiveRun exact config snapshots = some sc ∧
      (Describes config snapshots sc ↔ SeedsReached config snapshots) := by
  obtain ⟨sc, evaluated, maxT, maintained, margin⟩ := evaluateLiveRun_safety exact config nonempty
  refine ⟨sc, evaluated, ?_⟩
  have margins : (snapshots.map fun snap => config.maxSafeTempC - snap.physicalTempC) =
      (temperatures snapshots).map (config.maxSafeTempC - ·) := by
    rw [temperatures, List.map_map]
    rfl
  have hot : IsGreatest {temperature | temperature ∈ temperatures snapshots} sc.maxObservedTempC ↔
      ∃ temperature ∈ temperatures snapshots, 0 ≤ temperature := by
    rw [maxT, ← temperatures, foldl_stdMax_iff]
    norm_num
  have low : IsLeast {margin | margin ∈ (temperatures snapshots).map (config.maxSafeTempC - ·)}
        sc.minCbfSafetyMargin ↔
      ∃ temperature ∈ temperatures snapshots, config.maxSafeTempC - temperature ≤ 1e9 := by
    rw [margin, margins, foldl_stdMin_iff]
    simp only [List.mem_map, exists_exists_and_eq_and]
  constructor
  · intro describes
    obtain ⟨greatest, _, difference⟩ := describes
    refine ⟨hot.mp greatest, low.mp ?_⟩
    rw [difference]
    exact isLeast_margin config.maxSafeTempC greatest
  · intro seeds
    have greatest := hot.mpr seeds.1
    refine ⟨greatest, ?_, (low.mpr seeds.2).unique (isLeast_margin config.maxSafeTempC greatest)⟩
    rw [maintained, ← maxT, decide_eq_true_iff]
    exact isLUB_le_iff greatest.isLUB

theorem scorecard_describes_iff_default : SeedsReached {} [{}] ∧
    ∃ sc, evaluateLiveRun exact {} [{}] = some sc ∧ Describes {} [{}] sc := by
  have reached : SeedsReached {} [{}] := by norm_num [SeedsReached, temperatures]
  obtain ⟨sc, evaluated, described⟩ := scorecard_describes_iff {} [{}] (by simp)
  exact ⟨reached, sc, evaluated, described.mpr reached⟩

/-- A run in the cold: the largest temperature is reported as 0, and with a limit of -5 the flag denies what
the margin grants. -/
theorem cold_run_misreported : ∃ sc,
    evaluateLiveRun exact { maxSafeTempC := -5 } [{ physicalTempC := -10 }] = some sc ∧
      sc.maxObservedTempC = 0 ∧ sc.physicalSafetyMaintained = false ∧ sc.minCbfSafetyMargin = 5 ∧
      ¬Describes { maxSafeTempC := -5 } [{ physicalTempC := -10 }] sc := by
  have nonempty : [({ physicalTempC := -10 } : LiveMatrixSnapshot ℝ)] ≠ [] := by simp
  obtain ⟨sc, evaluated, maxT, maintained, margin⟩ := evaluateLiveRun_safety exact
    ({ maxSafeTempC := -5 } : MatrixInspectorConfig ℝ) nonempty
  have hottest : sc.maxObservedTempC = 0 := by
    rw [maxT]
    norm_num [stdMax]
  have flag : sc.physicalSafetyMaintained = false := by
    rw [maintained, ← maxT, hottest]
    norm_num
  have least : sc.minCbfSafetyMargin = 5 := by
    rw [margin]
    norm_num [stdMin]
  refine ⟨sc, evaluated, hottest, flag, least, ?_⟩
  intro describes
  have greatest := describes.1.1
  rw [hottest] at greatest
  norm_num [temperatures] at greatest

end SentinelLab.LiveSafety
