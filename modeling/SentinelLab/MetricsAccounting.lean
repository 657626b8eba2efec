import SentinelLab.Benchmark

/-! The confusion matrix and the ratios after any sequence of `record_event` and `reset` calls. -/

namespace SentinelLab.MetricsAccounting
open Benchmark

inductive Call where
  | recordEvent (event : BenchmarkEvent)
  | reset

def Call.apply (benchmarker : Benchmarker) : Call → Benchmarker
  | .recordEvent event => Benchmark.recordEvent benchmarker event
  | .reset => Benchmark.reset benchmarker

def afterCalls (calls : List Call) : Benchmarker := calls.foldl Call.apply {}

def sinceReset (calls : List Call) : List BenchmarkEvent :=
  calls.foldl (fun events call => match call with
    | .recordEvent event => events ++ [event]
    | .reset => []) []

theorem afterCalls_eq (calls : List Call) :
    afterCalls calls = ⟨(sinceReset calls).map (·.totalLatencyUs), sinceReset calls⟩ := by
  induction calls using List.reverseRecOn with
  | nil => rfl
  | append_singleton calls call ih =>
    have step : afterCalls (calls ++ [call]) = call.apply (afterCalls calls) := by simp [afterCalls]
    rw [step, ih]
    cases call with
    | recordEvent event => simp [Call.apply, Benchmark.recordEvent, sinceReset]
    | reset => simp [Call.apply, Benchmark.reset, sinceReset]

theorem paired_afterCalls (calls : List Call) : (afterCalls calls).Paired := by
  rw [afterCalls_eq]
  exact List.length_map _

/-! ## The cells -/

/-- The label is one of the two that are evaluated. -/
def Evaluated (ev : BenchmarkEvent) : Bool := ev.groundTruthLabel = 0 ∨ ev.groundTruthLabel = 1

def evaluatedSamples (matrix : ConfusionMatrix) : Nat :=
  matrix.truePositives + matrix.falsePositives + matrix.trueNegatives + matrix.falseNegatives

theorem evaluatedSamples_matrixOf (events : List BenchmarkEvent) :
    evaluatedSamples (matrixOf events) = events.countP Evaluated := by
  induction events with
  | nil => rfl
  | cons ev events ih =>
    unfold evaluatedSamples matrixOf cell at ih ⊢
    simp only [List.countP_cons, Evaluated] at ih ⊢
    rw [← ih]
    by_cases dropped : ev.action = .kernelDropped
    · by_cases attack : ev.groundTruthLabel = 1
      · simp [dropped, attack]
        omega
      · by_cases benign : ev.groundTruthLabel = 0
        · simp [dropped, benign]
          omega
        · simp [attack, benign]
    · by_cases attack : ev.groundTruthLabel = 1
      · simp [dropped, attack]
        omega
      · by_cases benign : ev.groundTruthLabel = 0
        · simp [dropped, benign]
          omega
        · simp [attack, benign]

/-! ## The ratios -/

theorem share_mem (part other : Nat) :
    0 ≤ (if 0 < part + other then (part : ℚ) / (part + other : Nat) else 1) ∧
      (if 0 < part + other then (part : ℚ) / (part + other : Nat) else 1) ≤ 1 := by
  split
  next positive =>
    have whole : (0 : ℚ) < (part + other : Nat) := by exact_mod_cast positive
    refine ⟨by positivity, ?_⟩
    rw [div_le_one whole]
    exact_mod_cast Nat.le_add_right part other
  next empty => exact ⟨zero_le_one, le_rfl⟩

theorem harmonic_mem {precision recallScore : ℚ} (first : 0 ≤ precision ∧ precision ≤ 1)
    (second : 0 ≤ recallScore ∧ recallScore ≤ 1) :
    0 ≤ (if 0 < precision + recallScore then 2 * precision * recallScore / (precision + recallScore) else 0) ∧
      (if 0 < precision + recallScore then 2 * precision * recallScore / (precision + recallScore) else 0) ≤ 1 := by
  obtain ⟨nonneg, le_one⟩ := first
  obtain ⟨nonneg', le_one'⟩ := second
  split
  next positive =>
    refine ⟨by positivity, ?_⟩
    rw [div_le_one positive]
    nlinarith [mul_nonneg nonneg (sub_nonneg.mpr le_one'), mul_nonneg nonneg' (sub_nonneg.mpr le_one)]
  next zero => exact ⟨le_rfl, zero_le_one⟩

theorem harmonic_eq (tp fp fn : Nat) (some_counted : 0 < 2 * tp + fp + fn) {precision recallScore : ℚ}
    (precision_eq : precision = if 0 < tp + fp then (tp : ℚ) / (tp + fp : Nat) else 1)
    (recall_eq : recallScore = if 0 < tp + fn then (tp : ℚ) / (tp + fn : Nat) else 1) :
    (if 0 < precision + recallScore then 2 * precision * recallScore / (precision + recallScore) else 0) =
      2 * tp / (2 * tp + fp + fn : Nat) := by
  rcases Nat.eq_zero_or_pos tp with rfl | positive
  · -- without a true positive one of the two ratios is zero
    have none : precision = 0 ∨ recallScore = 0 := by
      rcases Nat.eq_zero_or_pos fp with rfl | some_fp
      · right
        rw [recall_eq, if_pos (by omega)]
        simp
      · left
        rw [precision_eq, if_pos (by omega)]
        simp
    have product : 2 * precision * recallScore = 0 := by
      rcases none with zero | zero <;> simp [zero]
    rw [product]
    simp
  · have hits : (0 : ℚ) < tp := by exact_mod_cast positive
    have fps : (0 : ℚ) ≤ fp := Nat.cast_nonneg fp
    have fns : (0 : ℚ) ≤ fn := Nat.cast_nonneg fn
    rw [if_pos (by omega)] at precision_eq recall_eq
    have both : 0 < precision + recallScore := by
      rw [precision_eq, recall_eq]
      positivity
    rw [if_pos both, precision_eq, recall_eq]
    push_cast
    field_simp
    ring

def ratioFields (m : BenchmarkMetrics) : List ℚ := [m.accuracy, m.precision, m.recallScore, m.f1Score]

theorem ratioFields_foldl_tally (events : List BenchmarkEvent) (m : BenchmarkMetrics) :
    ratioFields (events.foldl tally m) = ratioFields m := by
  obtain ⟨_, _, _, _, counted⟩ := foldl_tally_fields events m
  rw [counted]
  rfl

theorem ratioFields_ratios_of_none {m : BenchmarkMetrics} (none : evaluatedSamples m.confusionMatrix = 0) :
    ratioFields (ratios m) = ratioFields m := by
  unfold ratios
  rw [if_neg (by simpa [evaluatedSamples, BenchmarkMetrics.confusionMatrix] using none)]

theorem ratioFields_ratios_mem {m : BenchmarkMetrics} (some_evaluated : 0 < evaluatedSamples m.confusionMatrix) :
    ∀ ratio ∈ ratioFields (ratios m), 0 ≤ ratio ∧ ratio ≤ 1 := by
  have precision := share_mem m.truePositives m.falsePositives
  have recallScore := share_mem m.truePositives m.falseNegatives
  have accuracy := share_mem (m.truePositives + m.trueNegatives) (m.falsePositives + m.falseNegatives)
  have whole : m.truePositives + m.falsePositives + m.trueNegatives + m.falseNegatives =
      m.truePositives + m.trueNegatives + (m.falsePositives + m.falseNegatives) := by omega
  have positive : 0 < m.truePositives + m.falsePositives + m.trueNegatives + m.falseNegatives := some_evaluated
  rw [if_pos (by omega)] at accuracy
  unfold ratios
  rw [if_pos positive]
  simp only [ratioFields, List.forall_mem_cons, List.not_mem_nil, false_implies, implies_true, and_true]
  rw [whole]
  exact ⟨accuracy, precision, recallScore, harmonic_mem precision recallScore⟩

theorem f1Score_ratios {m : BenchmarkMetrics}
    (some_counted : 0 < 2 * m.truePositives + m.falsePositives + m.falseNegatives) :
    (ratios m).f1Score =
      2 * m.truePositives / (2 * m.truePositives + m.falsePositives + m.falseNegatives : Nat) := by
  have positive : 0 < m.truePositives + m.falsePositives + m.trueNegatives + m.falseNegatives := by omega
  unfold ratios
  rw [if_pos positive]
  exact harmonic_eq _ _ _ some_counted rfl rfl

theorem computeMetrics_eq_ratios (benchmarker : Benchmarker) (testDurationSeconds : ℚ) :
    ∃ m, computeMetrics benchmarker testDurationSeconds = ratios m ∧ ratioFields m = [0, 0, 0, 0] := by
  unfold computeMetrics
  dsimp only
  split
  next none_recorded => exact ⟨{ totalEvents := benchmarker.latenciesUs.length }, rfl, rfl⟩
  next some_recorded =>
    refine ⟨_, rfl, ?_⟩
    rw [ratioFields_foldl_tally]
    rfl

/-- What the metrics say of the events. -/
structure Accounted (events : List BenchmarkEvent) (m : BenchmarkMetrics) : Prop where
  cells : m.confusionMatrix = matrixOf events
  each_once : evaluatedSamples m.confusionMatrix = events.countP Evaluated
  in_unit : ∀ ratio ∈ ratioFields m, 0 ≤ ratio ∧ ratio ≤ 1
  f1Score : 0 < 2 * m.truePositives + m.falsePositives + m.falseNegatives →
    m.f1Score = 2 * m.truePositives / (2 * m.truePositives + m.falsePositives + m.falseNegatives : Nat)
  none_evaluated : (∀ ev ∈ events, ¬Evaluated ev) → ∀ ratio ∈ ratioFields m, ratio = 0

/-- After any sequence of calls the metrics account for the events since the last reset. -/
theorem accounting_exact (calls : List Call) (testDurationSeconds : ℚ) :
    Accounted (sinceReset calls) (computeMetrics (afterCalls calls) testDurationSeconds) := by
  have cells := computeMetrics_confusionMatrix (paired_afterCalls calls) testDurationSeconds
  have recorded : (afterCalls calls).recordedEvents = sinceReset calls := by rw [afterCalls_eq]
  rw [recorded] at cells
  have counted : evaluatedSamples (computeMetrics (afterCalls calls) testDurationSeconds).confusionMatrix =
      (sinceReset calls).countP Evaluated := by rw [cells, evaluatedSamples_matrixOf]
  obtain ⟨m, computed, zeros⟩ := computeMetrics_eq_ratios (afterCalls calls) testDurationSeconds
  refine ⟨cells, counted, ?_, ?_, ?_⟩
  all_goals rw [computed, confusionMatrix_ratios] at counted
  all_goals rw [computed]
  · rcases Nat.eq_zero_or_pos (evaluatedSamples m.confusionMatrix) with none | some_evaluated
    · rw [ratioFields_ratios_of_none none, zeros]
      simp
    · exact ratioFields_ratios_mem some_evaluated
  · have same := confusionMatrix_ratios m
    simp only [BenchmarkMetrics.confusionMatrix, ConfusionMatrix.mk.injEq] at same
    obtain ⟨tp, fp, _, fn⟩ := same
    rw [tp, fp, fn]
    exact f1Score_ratios
  · intro unlabelled
    have none : evaluatedSamples m.confusionMatrix = 0 := by
      rw [counted, List.countP_eq_zero]
      exact unlabelled
    rw [ratioFields_ratios_of_none none, zeros]
    simp

end SentinelLab.MetricsAccounting
