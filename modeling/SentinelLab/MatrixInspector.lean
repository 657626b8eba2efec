import SentinelLab.CbfVerifier
import SentinelLab.EvtEngine

/-! `MatrixInspector`: the scorecard of a live run, and when its real-time verdict rests on an
estimate. -/

namespace SentinelLab.MatrixInspector
open Library.FloatingPoint EvtEngine CbfVerifier

variable {F : Type} [Add F] [Sub F] [Mul F] [Div F] [Neg F] [LE F] [DecidableLE F] [LT F] [DecidableLT F]
  [OfScientific F]

structure LiveMatrixSnapshot (F : Type) [OfScientific F] where
  avgMitigationLatencyUs : F := 0.84
  physicalTempC : F := 85.0

structure LiveInspectionScorecard (F : Type) [OfScientific F] where
  valid : Bool := false
  totalSamplesRecorded : Nat := 0
  maxObservedTempC : F := 0.0
  evtP99999WcetUs : F := 0.0
  minCbfSafetyMargin : F := 0.0
  criticalClearingTimeMs : F := 0.0
  physicalSafetyMaintained : Bool := true
  realTimeSlaMet : Bool := true
  summaryReport : String := ""

structure MatrixInspectorConfig (F : Type) [OfScientific F] where
  maxSafeTempC : F := 120.0
  targetTcritMs : F := 50.0

def recordedLatencies (libm : Libm F) (snapshots : List (LiveMatrixSnapshot F)) : List Nat :=
  snapshots.map fun snap => libm.toU64 (snap.avgMitigationLatencyUs * 1000.0)

/-- The points from snapshot `i` on; `previous` is the temperature before it. -/
def cbfTrajectory (libm : Libm F) (config : MatrixInspectorConfig F) (i : Nat) (previous : Option F) :
    List (LiveMatrixSnapshot F) → List (CbfStatePoint F)
  | [] => []
  | snap :: rest =>
      { timestampSec := libm.ofNat i * 0.1
        temperatureC := snap.physicalTempC
        hBarrierVal := config.maxSafeTempC - snap.physicalTempC
        hDotVal := match previous with
          | some temperature => -(snap.physicalTempC - temperature) / 0.1
          | none => 0.0 } ::
        cbfTrajectory libm config (i + 1) (some snap.physicalTempC) rest

def summaryReport (libm : Libm F) (config : MatrixInspectorConfig F) (sc : LiveInspectionScorecard F) : String :=
  "LIVE MATRIX RUN SCORECARD [" ++ toString sc.totalSamplesRecorded ++ " snapshots]: " ++
  "Max Temp=" ++ libm.fixed 2 sc.maxObservedTempC ++ "°C (Limit: " ++ libm.fixed 2 config.maxSafeTempC ++
  "°C) | " ++ "CBF Margin h(x)=" ++ libm.fixed 2 sc.minCbfSafetyMargin ++ " | " ++
  "EVT p99.999% WCET=" ++ libm.fixed 2 sc.evtP99999WcetUs ++ "us | " ++
  "T_crit=" ++ libm.fixed 2 sc.criticalClearingTimeMs ++ "ms [" ++
  (if sc.physicalSafetyMaintained then "\x1b[1;32m[SAFE] Physical Invariants Preserved\x1b[0m"
    else "\x1b[1;31m[BREACH] Physical Boundary Violated\x1b[0m") ++ "]"

def realTime (libm : Libm F) (snapshots : List (LiveMatrixSnapshot F)) : Option (F × Bool) :=
  if 1000 ≤ snapshots.length then
    (calculateWcetBound libm {} (recordedLatencies libm snapshots)).map fun evtRes =>
      (evtRes.p99999WcetBoundNs / 1000.0, evtRes.deadlineSatisfied)
  else some ((snapshots.getLastD {}).avgMitigationLatencyUs * 1.5, true)

/-- `none` is undefined behaviour of the source. -/
def evaluateLiveRun (libm : Libm F) (config : MatrixInspectorConfig F) (snapshots : List (LiveMatrixSnapshot F)) :
    Option (LiveInspectionScorecard F) :=
  if snapshots.isEmpty then
    some { summaryReport := "No live matrix telemetry snapshots recorded." }
  else do
    let maxT := snapshots.foldl (fun maxT snap => stdMax maxT snap.physicalTempC) 0.0
    let (evtP99999WcetUs, realTimeSlaMet) ← realTime libm snapshots
    let physicalSafetyMaintained := decide (maxT ≤ config.maxSafeTempC)
    let cbfRes := verifyTrajectory libm { maxSafeTempC := config.maxSafeTempC, alphaGain := 0.5 }
      (cbfTrajectory libm config 0 none snapshots)
    let sc : LiveInspectionScorecard F :=
      { totalSamplesRecorded := snapshots.length
        maxObservedTempC := maxT
        physicalSafetyMaintained
        evtP99999WcetUs
        realTimeSlaMet
        minCbfSafetyMargin := cbfRes.minBarrierMarginH
        criticalClearingTimeMs := if physicalSafetyMaintained then config.targetTcritMs else 38.4
        valid := true }
    some { sc with summaryReport := summaryReport libm config sc }

/-- If the scorecard says that the real-time SLA is met, then a valid estimate is within the
deadline, and that estimate is what it reports. -/
def CertifiesByEstimate (libm : Libm F) (config : MatrixInspectorConfig F) (snapshots : List (LiveMatrixSnapshot F)) :
    Prop :=
  ∃ sc, evaluateLiveRun libm config snapshots = some sc ∧
    (sc.realTimeSlaMet = true →
      ∃ evtRes, calculateWcetBound libm {} (recordedLatencies libm snapshots) = some evtRes ∧
        evtRes.valid = true ∧ evtRes.p99999WcetBoundNs ≤ ({} : EvtConfig F).deadlineNs ∧
        sc.evtP99999WcetUs = evtRes.p99999WcetBoundNs / 1000.0)

def cbfPoint (libm : Libm F) (config : MatrixInspectorConfig F) (i : Nat) (previous : Option F)
    (snap : LiveMatrixSnapshot F) : CbfStatePoint F :=
  { timestampSec := libm.ofNat i * 0.1
    temperatureC := snap.physicalTempC
    hBarrierVal := config.maxSafeTempC - snap.physicalTempC
    hDotVal := match previous with
      | some temperature => -(snap.physicalTempC - temperature) / 0.1
      | none => 0.0 }

section
omit [Add F] [LE F] [DecidableLE F] [LT F] [DecidableLT F]

theorem cbfTrajectory_cons (libm : Libm F) (config : MatrixInspectorConfig F) (i : Nat) (previous : Option F)
    (snap : LiveMatrixSnapshot F) (rest : List (LiveMatrixSnapshot F)) :
    cbfTrajectory libm config i previous (snap :: rest) =
      cbfPoint libm config i previous snap :: cbfTrajectory libm config (i + 1) (some snap.physicalTempC) rest := rfl

theorem cbfTrajectory_getElem? (libm : Libm F) (config : MatrixInspectorConfig F) (i : Nat) (previous : Option F)
    (snapshots : List (LiveMatrixSnapshot F)) (k : Nat) :
    (cbfTrajectory libm config i previous snapshots)[k]? = snapshots[k]?.map (cbfPoint libm config (i + k)
      (if k = 0 then previous else snapshots[k - 1]?.map (·.physicalTempC))) := by
  induction snapshots generalizing i previous k with
  | nil => simp [cbfTrajectory]
  | cons snap rest ih =>
    cases k with
    | zero => rfl
    | succ k =>
      rw [cbfTrajectory_cons, List.getElem?_cons_succ, ih, List.getElem?_cons_succ, if_neg (Nat.succ_ne_zero k),
        Nat.succ_sub_one, show i + 1 + k = i + (k + 1) by omega]
      cases k with
      | zero => rfl
      | succ k => rfl

theorem length_cbfTrajectory (libm : Libm F) (config : MatrixInspectorConfig F) (i : Nat) (previous : Option F)
    (snapshots : List (LiveMatrixSnapshot F)) :
    (cbfTrajectory libm config i previous snapshots).length = snapshots.length := by
  induction snapshots generalizing i previous with
  | nil => rfl
  | cons snap rest ih => rw [cbfTrajectory_cons, List.length_cons, ih, List.length_cons]

theorem cbfTrajectory_barrier (libm : Libm F) (config : MatrixInspectorConfig F) (i : Nat) (previous : Option F)
    (snapshots : List (LiveMatrixSnapshot F)) :
    (cbfTrajectory libm config i previous snapshots).map (·.hBarrierVal) =
      snapshots.map fun snap => config.maxSafeTempC - snap.physicalTempC := by
  induction snapshots generalizing i previous with
  | nil => rfl
  | cons snap rest ih =>
    rw [cbfTrajectory_cons, List.map_cons, ih, List.map_cons]
    rfl

end

omit [LT F] [DecidableLT F] in
theorem realTime_total (libm : Libm F) (snapshots : List (LiveMatrixSnapshot F)) :
    ∃ fields, realTime libm snapshots = some fields := by
  unfold realTime
  by_cases many : 1000 ≤ snapshots.length
  · have enough : ({} : EvtConfig F).blockSize ≤ (recordedLatencies libm snapshots).length := by
      simpa [recordedLatencies] using many
    obtain ⟨evtRes, estimated, _⟩ := calculateWcetBound_cases libm {} (Nat.succ_pos 999) enough
    rw [if_pos many, estimated]
    exact ⟨_, rfl⟩
  · exact ⟨_, if_neg many⟩

theorem evaluateLiveRun_safety (libm : Libm F) (config : MatrixInspectorConfig F)
    {snapshots : List (LiveMatrixSnapshot F)} (nonempty : snapshots ≠ []) :
    let maxT := (snapshots.map (·.physicalTempC)).foldl stdMax 0.0
    ∃ sc, evaluateLiveRun libm config snapshots = some sc ∧ sc.maxObservedTempC = maxT ∧
      sc.physicalSafetyMaintained = decide (maxT ≤ config.maxSafeTempC) ∧
      sc.minCbfSafetyMargin =
        (snapshots.map fun snap => config.maxSafeTempC - snap.physicalTempC).foldl stdMin 1e9 := by
  have whole : ¬snapshots.isEmpty = true := by
    rw [List.isEmpty_iff]
    exact nonempty
  obtain ⟨fields, total⟩ := realTime_total libm snapshots
  have trajectory : cbfTrajectory libm config 0 none snapshots ≠ [] := by
    intro empty
    have none := length_cbfTrajectory libm config 0 none snapshots
    rw [empty] at none
    exact nonempty (List.eq_nil_of_length_eq_zero none.symm)
  have margin := (verifyTrajectory_fields libm { maxSafeTempC := config.maxSafeTempC, alphaGain := 0.5 }
    trajectory).1
  rw [cbfTrajectory_barrier] at margin
  rw [List.foldl_map]
  unfold evaluateLiveRun
  rw [if_neg whole, total]
  exact ⟨_, rfl, rfl, rfl, margin⟩

theorem evaluateLiveRun_fields (libm : Libm F) (config : MatrixInspectorConfig F)
    {snapshots : List (LiveMatrixSnapshot F)} {evtRes : EvtResult F} (many : 1000 ≤ snapshots.length)
    (estimated : calculateWcetBound libm {} (recordedLatencies libm snapshots) = some evtRes) :
    ∃ sc, evaluateLiveRun libm config snapshots = some sc ∧
      sc.evtP99999WcetUs = evtRes.p99999WcetBoundNs / 1000.0 ∧ sc.realTimeSlaMet = evtRes.deadlineSatisfied := by
  have nonempty : ¬snapshots.isEmpty = true := by
    intro empty
    rw [List.isEmpty_iff.mp empty] at many
    exact absurd many (Nat.not_succ_le_zero 999)
  unfold evaluateLiveRun realTime
  rw [if_neg nonempty, if_pos many, estimated]
  exact ⟨_, rfl, rfl, rfl⟩

/-- Whatever the arithmetic: the SLA is certified by an estimate exactly from 2000 snapshots on. -/
theorem certifies_by_estimate_iff (libm : Libm F) (config : MatrixInspectorConfig F)
    (snapshots : List (LiveMatrixSnapshot F)) (many : 1000 ≤ snapshots.length) :
    CertifiesByEstimate libm config snapshots ↔ 2000 ≤ snapshots.length := by
  have enough : ({} : EvtConfig F).blockSize ≤ (recordedLatencies libm snapshots).length := by
    simpa [recordedLatencies] using many
  obtain ⟨evtRes, estimated, verdict⟩ := calculateWcetBound_cases libm {} (Nat.succ_pos 999) enough
  obtain ⟨sc, evaluated, reported, sla⟩ := evaluateLiveRun_fields libm config many estimated
  have blocks : (recordedLatencies libm snapshots).length / ({} : EvtConfig F).blockSize =
      snapshots.length / 1000 := by simp [recordedLatencies]
  rw [blocks] at verdict
  rcases verdict with ⟨few, invalid, satisfied⟩ | ⟨two, valid, compared⟩
  · apply iff_of_false
    · intro certified
      obtain ⟨sc', evaluated', by_estimate⟩ := certified
      obtain rfl : sc = sc' := Option.some.inj (evaluated.symm.trans evaluated')
      obtain ⟨evtRes', estimated', valid, _⟩ := by_estimate (sla.trans satisfied)
      obtain rfl : evtRes = evtRes' := Option.some.inj (estimated.symm.trans estimated')
      rw [invalid] at valid
      cases valid
    · omega
  · apply iff_of_true
    · refine ⟨sc, evaluated, ?_⟩
      intro met
      rw [sla, compared] at met
      exact ⟨evtRes, estimated, valid, of_decide_eq_true met, reported⟩
    · omega

theorem certifies_by_estimate_twenty_blocks :
    CertifiesByEstimate exact ({} : MatrixInspectorConfig ℝ) (List.replicate 20000 {}) :=
  (certifies_by_estimate_iff exact {} (List.replicate 20000 {}) (by rw [List.length_replicate]; norm_num)).mpr
    (by rw [List.length_replicate]; norm_num)

/-- One block of snapshots: the SLA counts as met although there is no estimate. -/
theorem certified_without_estimate :
    ∃ sc evtRes, evaluateLiveRun exact ({} : MatrixInspectorConfig ℝ) (List.replicate 1000 {}) = some sc ∧
      sc.realTimeSlaMet = true ∧
      calculateWcetBound exact {} (recordedLatencies exact (List.replicate 1000 ({} : LiveMatrixSnapshot ℝ))) =
        some evtRes ∧ evtRes.valid = false := by
  have latencies : (recordedLatencies exact (List.replicate 1000 ({} : LiveMatrixSnapshot ℝ))).length = 1000 := by
    rw [recordedLatencies, List.length_map, List.length_replicate]
  obtain ⟨evtRes, estimated, verdict⟩ := calculateWcetBound_cases exact ({} : EvtConfig ℝ) (Nat.succ_pos 999)
    (le_of_eq latencies.symm)
  obtain ⟨sc, evaluated, _, sla⟩ := evaluateLiveRun_fields exact ({} : MatrixInspectorConfig ℝ)
    (le_of_eq (List.length_replicate).symm) estimated
  rw [latencies] at verdict
  rcases verdict with ⟨_, invalid, satisfied⟩ | ⟨two, _⟩
  · exact ⟨sc, evtRes, evaluated, sla.trans satisfied, estimated, invalid⟩
  · exact absurd two (by norm_num)

end SentinelLab.MatrixInspector
