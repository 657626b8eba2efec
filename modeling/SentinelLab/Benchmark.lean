import SentinelLab.Library.Binary64
import SentinelLab.Library.SinglePrecision

/-! `BenchmarkEvent` and the `Benchmarker`: the recorded events, the latencies and the metrics
computed from them. Doubles are rationals here; the mean of the latencies is rounded as the
machine does, the ratios are exact. -/

namespace SentinelLab.Benchmark
open Library.Binary64 Library.SinglePrecision

inductive MitigationAction where
  | passed
  | logged
  | kernelDropped
  deriving DecidableEq, Repr

/-- Time points are nanoseconds of the clock. -/
structure BenchmarkEvent where
  eventId : BitVec 64 := 0
  sourceIp : String := ""
  port : BitVec 16 := 0
  features : List Binary32 := []
  anomalyScore : Binary32 := 0
  action : MitigationAction := .passed
  groundTruthLabel : Int := -1
  tIngest : Int := 0
  tInferDone : Int := 0
  tMitigated : Int := 0
  totalLatencyUs : ℚ := 0
  deriving DecidableEq, Repr

structure BenchmarkMetrics where
  totalEvents : Nat := 0
  throughputEps : ℚ := 0
  latencyMinUs : ℚ := 0
  latencyMeanUs : ℚ := 0
  latencyP50Us : ℚ := 0
  latencyP90Us : ℚ := 0
  latencyP95Us : ℚ := 0
  latencyP99Us : ℚ := 0
  latencyMaxUs : ℚ := 0
  truePositives : Nat := 0
  falsePositives : Nat := 0
  trueNegatives : Nat := 0
  falseNegatives : Nat := 0
  accuracy : ℚ := 0
  precision : ℚ := 0
  recallScore : ℚ := 0
  f1Score : ℚ := 0
  deriving DecidableEq, Repr

structure Benchmarker where
  latenciesUs : List ℚ := []
  recordedEvents : List BenchmarkEvent := []
  deriving DecidableEq, Repr

def recordEvent (benchmarker : Benchmarker) (event : BenchmarkEvent) : Benchmarker :=
  { latenciesUs := benchmarker.latenciesUs ++ [event.totalLatencyUs],
    recordedEvents := benchmarker.recordedEvents ++ [event] }

def reset (_ : Benchmarker) : Benchmarker := {}

def tally (m : BenchmarkMetrics) (ev : BenchmarkEvent) : BenchmarkMetrics :=
  if ev.groundTruthLabel = 1 then
    if ev.action = .kernelDropped then { m with truePositives := m.truePositives + 1 }
    else { m with falseNegatives := m.falseNegatives + 1 }
  else if ev.groundTruthLabel = 0 then
    if ev.action = .kernelDropped then { m with falsePositives := m.falsePositives + 1 }
    else { m with trueNegatives := m.trueNegatives + 1 }
  else m

def latencies (m : BenchmarkMetrics) (sorted : List ℚ) : BenchmarkMetrics :=
  let percentile (percent : Nat) : ℚ := sorted.getD (m.totalEvents * percent / 100) 0
  { m with
    latencyMinUs := sorted.headD 0
    latencyMaxUs := sorted.getLastD 0
    latencyMeanUs := binary64.div (binary64.sum sorted) (binary64.ofNat m.totalEvents)
    latencyP50Us := percentile 50
    latencyP90Us := percentile 90
    latencyP95Us := percentile 95
    latencyP99Us := percentile 99 }

def ratios (m : BenchmarkMetrics) : BenchmarkMetrics :=
  let evaluatedSamples := m.truePositives + m.falsePositives + m.trueNegatives + m.falseNegatives
  if 0 < evaluatedSamples then
    let precision : ℚ :=
      if 0 < m.truePositives + m.falsePositives then
        m.truePositives / (m.truePositives + m.falsePositives : Nat)
      else 1
    let recallScore : ℚ :=
      if 0 < m.truePositives + m.falseNegatives then
        m.truePositives / (m.truePositives + m.falseNegatives : Nat)
      else 1
    { m with
      accuracy := (m.truePositives + m.trueNegatives : Nat) / (evaluatedSamples : ℚ)
      precision
      recallScore
      f1Score := if 0 < precision + recallScore then 2 * precision * recallScore / (precision + recallScore) else 0 }
  else m

def computeMetrics (benchmarker : Benchmarker) (testDurationSeconds : ℚ) : BenchmarkMetrics :=
  let m : BenchmarkMetrics := { totalEvents := benchmarker.latenciesUs.length }
  if m.totalEvents = 0 then m
  else
    let m := { m with
      throughputEps := if 0 < testDurationSeconds then m.totalEvents / testDurationSeconds else 0 }
    ratios (benchmarker.recordedEvents.foldl tally
      (latencies m (benchmarker.latenciesUs.mergeSort fun first second => first ≤ second)))

/-! ## The confusion matrix -/

/-- The four cells, by label and by whether the event was recorded as dropped. -/
structure ConfusionMatrix where
  truePositives : Nat
  falsePositives : Nat
  trueNegatives : Nat
  falseNegatives : Nat
  deriving DecidableEq, Repr

def BenchmarkMetrics.confusionMatrix (m : BenchmarkMetrics) : ConfusionMatrix :=
  ⟨m.truePositives, m.falsePositives, m.trueNegatives, m.falseNegatives⟩

def cell (events : List BenchmarkEvent) (label : Int) (dropped : Bool) : Nat :=
  events.countP fun ev => ev.groundTruthLabel = label ∧ decide (ev.action = .kernelDropped) = dropped

def matrixOf (events : List BenchmarkEvent) : ConfusionMatrix :=
  ⟨cell events 1 true, cell events 0 true, cell events 0 false, cell events 1 false⟩

theorem foldl_tally (events : List BenchmarkEvent) (m : BenchmarkMetrics) :
    (events.foldl tally m).confusionMatrix =
      ⟨m.truePositives + cell events 1 true, m.falsePositives + cell events 0 true,
        m.trueNegatives + cell events 0 false, m.falseNegatives + cell events 1 false⟩ := by
  induction events generalizing m with
  | nil => rfl
  | cons ev events ih =>
    rw [List.foldl_cons, ih]
    by_cases dropped : ev.action = .kernelDropped
    · by_cases attack : ev.groundTruthLabel = 1
      · simp [tally, cell, dropped, attack, Nat.add_assoc, Nat.add_comm]
      · by_cases benign : ev.groundTruthLabel = 0
        · simp [tally, cell, dropped, benign, Nat.add_assoc, Nat.add_comm]
        · simp [tally, cell, attack, benign]
    · by_cases attack : ev.groundTruthLabel = 1
      · simp [tally, cell, dropped, attack, Nat.add_assoc, Nat.add_comm]
      · by_cases benign : ev.groundTruthLabel = 0
        · simp [tally, cell, dropped, benign, Nat.add_assoc, Nat.add_comm]
        · simp [tally, cell, attack, benign]

theorem foldl_tally_fields (events : List BenchmarkEvent) (m : BenchmarkMetrics) :
    ∃ truePositives falsePositives trueNegatives falseNegatives, events.foldl tally m =
      { m with truePositives, falsePositives, trueNegatives, falseNegatives } := by
  induction events generalizing m with
  | nil => exact ⟨_, _, _, _, rfl⟩
  | cons ev events ih =>
    obtain ⟨truePositives, falsePositives, trueNegatives, falseNegatives, later⟩ := ih (tally m ev)
    refine ⟨truePositives, falsePositives, trueNegatives, falseNegatives, ?_⟩
    rw [List.foldl_cons, later]
    unfold tally
    split
    · split <;> rfl
    · split
      · split <;> rfl
      · rfl

@[simp] theorem confusionMatrix_ratios (m : BenchmarkMetrics) :
    (ratios m).confusionMatrix = m.confusionMatrix := by
  unfold ratios
  dsimp only
  split <;> rfl

/-- Every latency has its event. -/
def Benchmarker.Paired (benchmarker : Benchmarker) : Prop :=
  benchmarker.latenciesUs.length = benchmarker.recordedEvents.length

theorem Benchmarker.Paired.recordEvent {benchmarker : Benchmarker} (paired : benchmarker.Paired)
    (event : BenchmarkEvent) : (recordEvent benchmarker event).Paired := by
  simpa [Paired, Benchmark.recordEvent] using paired

theorem computeMetrics_confusionMatrix {benchmarker : Benchmarker} (paired : benchmarker.Paired)
    (testDurationSeconds : ℚ) :
    (computeMetrics benchmarker testDurationSeconds).confusionMatrix = matrixOf benchmarker.recordedEvents := by
  unfold computeMetrics
  dsimp only
  split
  next none_recorded =>
    rw [paired] at none_recorded
    rw [List.length_eq_zero_iff.mp none_recorded]
    rfl
  · rw [confusionMatrix_ratios, foldl_tally]
    simp [latencies, matrixOf]

end SentinelLab.Benchmark
