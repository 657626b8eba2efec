import SentinelLab.Worker
import SentinelLab.NetworkIngest
import SentinelLab.Library.DecimalText

/-! `Benchmarker::export_to_csv` and the evaluation of its output by `evaluate_benchmark.py`, next to
the metrics of `compute_metrics`. -/

namespace SentinelLab.OfflineEvaluation
open Inet Benchmark NetworkIngest Library.Transition Library.Bytes Library.SinglePrecision Library.Csv Library.DecimalText

/-! ## The exported text -/

/-- `f << score` for a `float`. -/
def insertFloat (score : Binary32) : List Char :=
  (if score.msb then ['-'] else []) ++
    if isNan score then "nan".toList else if isInf score then "inf".toList else general 6 (absolute score)

def actionCode : MitigationAction → Int
  | .passed => 0
  | .logged => 1
  | .kernelDropped => 2

def exportRow (ev : BenchmarkEvent) : List Char :=
  integer ev.eventId.toNat ++ [','] ++ ev.sourceIp.toList ++ [','] ++ integer ev.port.toNat ++ [','] ++
    insertFloat ev.anomalyScore ++ [','] ++ integer (actionCode ev.action) ++ [','] ++
    integer ev.groundTruthLabel ++ [','] ++ general 6 ev.totalLatencyUs ++ ['\n']

def exportHeader : String := "EventID,SourceIP,Port,AnomalyScore,Action,GroundTruth,Latency_us\n"

/-- What is in the file, once it could be opened. -/
def exportToCsv (benchmarker : Benchmarker) : List Char :=
  exportHeader.toList ++ benchmarker.recordedEvents.flatMap exportRow

/-! ## The script -/

structure Evaluation where
  accuracy : ℚ
  precision : ℚ
  recallScore : ℚ
  f1 : ℚ
  deriving DecidableEq, Repr

/-- The confusion matrix and the scores of `main`; `none` if a column is missing. -/
def evaluateBenchmark (df : DataFrame) : Option Evaluation := do
  let yTrue ← df "GroundTruth".toList
  let action ← df "Action".toList
  let yPred : List Int := action.map fun action => if action = 2 then 1 else 0
  let sum (label predicted : Int) : Nat :=
    (yTrue.zip yPred).countP fun sample => sample.1 = label ∧ sample.2 = predicted
  let tp := sum 1 1
  let fp := sum 0 1
  let tn := sum 0 0
  let fn := sum 1 0
  let accuracy : ℚ := (tp + tn : Nat) / yTrue.length
  let precision : ℚ := if 0 < tp + fp then tp / (tp + fp : Nat) else 1
  let recallScore : ℚ := if 0 < tp + fn then tp / (tp + fn : Nat) else 1
  let f1 := if 0 < precision + recallScore then 2 * (precision * recallScore) / (precision + recallScore) else 0
  return { accuracy, precision, recallScore, f1 }

/-! ## What is exported -/

/-- What the listener and the type of the field ensure of an event. -/
structure Recordable (ev : BenchmarkEvent) : Prop where
  address : Plain ev.sourceIp.toList
  label_lower : -2 ^ 31 ≤ ev.groundTruthLabel
  label_upper : ev.groundTruthLabel < 2 ^ 31

def recordAll (events : List BenchmarkEvent) : Benchmarker := events.foldl recordEvent {}

theorem foldl_recordEvent (events : List BenchmarkEvent) (benchmarker : Benchmarker) :
    events.foldl recordEvent benchmarker =
      ⟨benchmarker.latenciesUs ++ events.map (·.totalLatencyUs), benchmarker.recordedEvents ++ events⟩ := by
  induction events generalizing benchmarker with
  | nil => simp
  | cons ev events ih =>
    rw [List.foldl_cons, ih]
    simp [recordEvent]

theorem recordAll_eq (events : List BenchmarkEvent) :
    recordAll events = ⟨events.map (·.totalLatencyUs), events⟩ := by
  simp [recordAll, foldl_recordEvent]

def header : List Field :=
  ["EventID", "SourceIP", "Port", "AnomalyScore", "Action", "GroundTruth", "Latency_us"].map String.toList

def fields (ev : BenchmarkEvent) : List Field :=
  [integer ev.eventId.toNat, ev.sourceIp.toList, integer ev.port.toNat, insertFloat ev.anomalyScore,
    integer (actionCode ev.action), integer ev.groundTruthLabel, general 6 ev.totalLatencyUs]

theorem plain_insertFloat (score : Binary32) : Plain (insertFloat score) := by
  unfold insertFloat
  apply plain_append
  · split
    · decide
    · decide
  · split
    · decide
    · split
      · decide
      · exact plain_general _ _

theorem plain_fields {ev : BenchmarkEvent} (recordable : Recordable ev) : ∀ field ∈ fields ev, Plain field := by
  have address := recordable.address
  simp [fields, address, plain_integer, plain_insertFloat, plain_general]

def eventTable (events : List BenchmarkEvent) (nonempty : events ≠ [])
    (recordable : ∀ ev ∈ events, Recordable ev) : Table where
  header := header
  rows := events.map fields
  columns := by decide
  named := by decide
  distinct := by decide
  nonempty := by simpa using nonempty
  rectangular := by
    intro row member
    obtain ⟨ev, _, rfl⟩ := List.mem_map.mp member
    rfl
  plain := by
    intro row member
    rcases List.mem_cons.mp member with rfl | member
    · decide
    · obtain ⟨ev, recorded, rfl⟩ := List.mem_map.mp member
      exact plain_fields (recordable ev recorded)

theorem line_fields (ev : BenchmarkEvent) : line (fields ev) = exportRow ev := by
  simp [line, fields, exportRow, List.intercalate]

theorem line_header : line header = exportHeader.toList := by
  decide +kernel

theorem exportToCsv_eq (events : List BenchmarkEvent) (nonempty : events ≠ [])
    (recordable : ∀ ev ∈ events, Recordable ev) :
    exportToCsv (recordAll events) = (eventTable events nonempty recordable).text := by
  have rows : (events.map fields).flatMap line = events.flatMap exportRow := by
    rw [List.flatMap_map]
    simp only [line_fields]
  calc exportToCsv (recordAll events) = line header ++ events.flatMap exportRow := by
        simp only [exportToCsv, recordAll_eq, line_header]
    _ = (header :: events.map fields).flatMap line := by rw [List.flatMap_cons, rows]
    _ = (eventTable events nonempty recordable).text := rfl

theorem plain_inetNtop (addr : InAddr) : Plain (inetNtop addr).toList := by
  rw [inetNtop, String.toList_ofList]
  intro c member
  rcases mem_intercalate member with rfl | ⟨field, within, digit⟩
  · decide
  · obtain ⟨byte, _, rfl⟩ := List.mem_map.mp within
    exact plain_toDigits _ c digit

theorem ingest_recordable {host : Endian} {ntop : InAddr → String} {now : Int}
    {clientAddr : SockaddrIn} {datagram : List Byte} {ev : BenchmarkEvent}
    (plain : ∀ addr, Plain (ntop addr).toList)
    (ingested : ingest host ntop now clientAddr datagram = some (some ev)) : Recordable ev := by
  obtain ⟨_, rfl⟩ := ingest_eq_some.mp ingested
  have label : ∀ bits : BitVec 32, -2 ^ 31 ≤ bits.toInt ∧ bits.toInt < 2 ^ 31 := by
    intro bits
    have lower := @BitVec.le_two_mul_toInt 32 bits
    have upper := @BitVec.two_mul_toInt_lt 32 bits
    omega
  exact ⟨plain _, (label _).1, (label _).2⟩

theorem evaluate_recordable {inetPton : String → Option Key} {ev : BenchmarkEvent}
    (recordable : Recordable ev) (world : EbpfFilter.World) (anomalyScore : Binary32)
    (tInferDone tMitigated : Int) (succeeds : Bool) :
    Recordable (Worker.evaluate inetPton world ev anomalyScore tInferDone tMitigated succeeds).2 :=
  ⟨recordable.address, recordable.label_lower, recordable.label_upper⟩

/-- So in every run of the worker, everything recorded can be exported. -/
theorem run_recordable {inetPton : String → Option Key} {start final : Worker.Pipeline}
    {trace : List (Entry Worker.Pipeline Worker.Round BenchmarkEvent)}
    (run : Run (Worker.machine inetPton) start trace final)
    (begun : ∀ ev ∈ start.benchmarker.recordedEvents, Recordable ev)
    (rounds : ∀ entry ∈ trace, Recordable entry.label.event) :
    ∀ ev ∈ final.benchmarker.recordedEvents, Recordable ev := by
  induction run with
  | nil => exact begun
  | snoc earlier taken ih =>
    intro ev member
    cases taken
    rcases List.mem_append.mp member with before | last
    · exact ih (fun entry within => rounds entry (List.mem_append_left _ within)) ev before
    · rw [List.mem_singleton.mp last]
      apply evaluate_recordable
      exact rounds _ (List.mem_append_right _ List.mem_cons_self)

/-! ## The scores of both sides -/

/-- The scores of a confusion matrix, with the accuracy over a given number of samples. -/
def scores (matrix : ConfusionMatrix) (samples : Nat) : Evaluation :=
  let precision : ℚ :=
    if 0 < matrix.truePositives + matrix.falsePositives then
      matrix.truePositives / (matrix.truePositives + matrix.falsePositives : Nat)
    else 1
  let recallScore : ℚ :=
    if 0 < matrix.truePositives + matrix.falseNegatives then
      matrix.truePositives / (matrix.truePositives + matrix.falseNegatives : Nat)
    else 1
  { accuracy := (matrix.truePositives + matrix.trueNegatives : Nat) / samples
    precision
    recallScore
    f1 := if 0 < precision + recallScore then 2 * precision * recallScore / (precision + recallScore) else 0 }

def evaluated (matrix : ConfusionMatrix) : Nat :=
  matrix.truePositives + matrix.falsePositives + matrix.trueNegatives + matrix.falseNegatives

def reported (m : BenchmarkMetrics) : Evaluation := ⟨m.accuracy, m.precision, m.recallScore, m.f1Score⟩

theorem countP_zip (events : List BenchmarkEvent) (label predicted : Int) (dropped : Bool)
    (meaning : ∀ action : MitigationAction, (if actionCode action = 2 then 1 else 0) = predicted ↔
      decide (action = .kernelDropped) = dropped) :
    ((events.map (·.groundTruthLabel)).zip
      ((events.map fun ev => actionCode ev.action).map fun action => if action = 2 then 1 else 0)).countP
        (fun sample => sample.1 = label ∧ sample.2 = predicted) = cell events label dropped := by
  rw [List.map_map, List.zip_map', List.countP_map, cell]
  congr 1
  funext ev
  simp [meaning]

theorem evaluateBenchmark_eq {df : DataFrame} {events : List BenchmarkEvent}
    (truth : df "GroundTruth".toList = some (events.map (·.groundTruthLabel)))
    (action : df "Action".toList = some (events.map fun ev => actionCode ev.action)) :
    evaluateBenchmark df = some (scores (matrixOf events) events.length) := by
  have positive : ∀ action : MitigationAction, (if actionCode action = 2 then (1 : Int) else 0) = 1 ↔
      decide (action = .kernelDropped) = true := by
    intro action
    cases action <;> decide
  have negative : ∀ action : MitigationAction, (if actionCode action = 2 then (1 : Int) else 0) = 0 ↔
      decide (action = .kernelDropped) = false := by
    intro action
    cases action <;> decide
  simp only [evaluateBenchmark, truth, action, Option.bind_eq_bind, Option.bind_some,
    countP_zip events _ _ true positive, countP_zip events _ _ false negative, List.length_map]
  simp only [scores, matrixOf, mul_assoc]
  rfl

theorem evaluateBenchmark_export {readCsv : List Char → DataFrame} (reads : ReadsIntegers readCsv)
    {events : List BenchmarkEvent} (nonempty : events ≠ []) (recordable : ∀ ev ∈ events, Recordable ev) :
    evaluateBenchmark (readCsv (exportToCsv (recordAll events))) =
      some (scores (matrixOf events) events.length) := by
  rw [exportToCsv_eq events nonempty recordable]
  apply evaluateBenchmark_eq
  · apply reads (eventTable events nonempty recordable) 5
    · rfl
    · rw [Table.column, eventTable, List.map_map, List.map_map]
      rfl
    · intro label member
      obtain ⟨ev, recorded, rfl⟩ := List.mem_map.mp member
      have lower := (recordable ev recorded).label_lower
      have upper := (recordable ev recorded).label_upper
      omega
  · apply reads (eventTable events nonempty recordable) 4
    · rfl
    · rw [Table.column, eventTable, List.map_map, List.map_map]
      rfl
    · intro code member
      obtain ⟨ev, _, rfl⟩ := List.mem_map.mp member
      cases ev.action <;> decide

theorem reported_foldl_tally (events : List BenchmarkEvent) (m : BenchmarkMetrics) :
    reported (events.foldl tally m) = reported m := by
  obtain ⟨_, _, _, _, counted⟩ := foldl_tally_fields events m
  rw [counted]
  rfl

theorem reported_ratios (m : BenchmarkMetrics) : reported (ratios m) =
    if 0 < evaluated m.confusionMatrix then scores m.confusionMatrix (evaluated m.confusionMatrix)
    else reported m := by
  unfold ratios
  dsimp only
  split
  next some_evaluated => rw [if_pos (show 0 < evaluated m.confusionMatrix from some_evaluated)]; rfl
  next none_evaluated => rw [if_neg (show ¬0 < evaluated m.confusionMatrix from none_evaluated)]

/-- What `compute_metrics` reports: nothing but zeros if no label is 0 or 1. -/
theorem reported_computeMetrics {events : List BenchmarkEvent} (nonempty : events ≠ []) (seconds : ℚ) :
    reported (computeMetrics (recordAll events) seconds) =
      if 0 < evaluated (matrixOf events) then scores (matrixOf events) (evaluated (matrixOf events))
      else ⟨0, 0, 0, 0⟩ := by
  have some_recorded : ¬(events.map (·.totalLatencyUs)).length = 0 := by
    rwa [List.length_map, List.length_eq_zero_iff]
  rw [recordAll_eq, computeMetrics]
  simp only [if_neg some_recorded]
  rw [reported_ratios, foldl_tally, reported_foldl_tally]
  simp only [latencies, Nat.zero_add]
  rfl

/-! ## Where both agree -/

def Labelled (ev : BenchmarkEvent) : Prop := ev.groundTruthLabel = 0 ∨ ev.groundTruthLabel = 1

instance : DecidablePred Labelled := fun _ => inferInstanceAs (Decidable (_ ∨ _))

def Correct (ev : BenchmarkEvent) : Prop :=
  ev.groundTruthLabel = 1 ∧ ev.action = .kernelDropped ∨ ev.groundTruthLabel = 0 ∧ ev.action ≠ .kernelDropped

instance : DecidablePred Correct := fun _ => inferInstanceAs (Decidable (_ ∨ _))

theorem evaluated_matrixOf (events : List BenchmarkEvent) :
    evaluated (matrixOf events) = events.countP fun ev => Labelled ev := by
  induction events with
  | nil => rfl
  | cons ev events ih =>
    simp only [evaluated, matrixOf, cell, List.countP_cons] at ih ⊢
    rw [← ih]
    by_cases attack : ev.groundTruthLabel = 1
    · by_cases dropped : ev.action = .kernelDropped
      · simp [Labelled, attack, dropped]
        omega
      · simp [Labelled, attack, dropped]
        omega
    · by_cases benign : ev.groundTruthLabel = 0
      · by_cases dropped : ev.action = .kernelDropped
        · simp [Labelled, benign, dropped]
          omega
        · simp [Labelled, benign, dropped]
          omega
      · simp [Labelled, attack, benign]

theorem correct_matrixOf (events : List BenchmarkEvent) :
    (matrixOf events).truePositives + (matrixOf events).trueNegatives = events.countP fun ev => Correct ev := by
  induction events with
  | nil => rfl
  | cons ev events ih =>
    simp only [matrixOf, cell, List.countP_cons] at ih ⊢
    rw [← ih]
    by_cases attack : ev.groundTruthLabel = 1
    · by_cases dropped : ev.action = .kernelDropped
      · simp [Correct, attack, dropped]
        omega
      · simp [Correct, attack, dropped]
    · by_cases benign : ev.groundTruthLabel = 0
      · by_cases dropped : ev.action = .kernelDropped
        · simp [Correct, benign, dropped]
        · simp [Correct, benign, dropped]
          omega
      · simp [Correct, attack, benign]

theorem scores_inj {matrix : ConfusionMatrix} {samples samples' : Nat} (positive : 0 < samples)
    (positive' : 0 < samples') : scores matrix samples = scores matrix samples' ↔
      samples = samples' ∨ matrix.truePositives + matrix.trueNegatives = 0 := by
  have nonzero : (samples : ℚ) ≠ 0 := by exact_mod_cast positive.ne'
  have nonzero' : (samples' : ℚ) ≠ 0 := by exact_mod_cast positive'.ne'
  have accuracies : scores matrix samples = scores matrix samples' ↔
      ((matrix.truePositives + matrix.trueNegatives : Nat) : ℚ) / samples =
        ((matrix.truePositives + matrix.trueNegatives : Nat) : ℚ) / samples' := by
    simp [scores]
  rw [accuracies, div_eq_div_iff nonzero nonzero', @eq_comm _ samples samples']
  norm_cast
  exact mul_eq_mul_left_iff

/-- The script divides by all events and the daemon by those that are labelled 0 or 1. -/
theorem evaluation_agrees_iff {readCsv : List Char → DataFrame} (reads : ReadsIntegers readCsv)
    {events : List BenchmarkEvent} (nonempty : events ≠ []) (recordable : ∀ ev ∈ events, Recordable ev)
    (seconds : ℚ) :
    evaluateBenchmark (readCsv (exportToCsv (recordAll events))) =
        some (reported (computeMetrics (recordAll events) seconds)) ↔
      (∃ ev ∈ events, Labelled ev) ∧ ((∀ ev ∈ events, Labelled ev) ∨ ∀ ev ∈ events, ¬Correct ev) := by
  have some_labelled : 0 < evaluated (matrixOf events) ↔ ∃ ev ∈ events, Labelled ev := by
    rw [evaluated_matrixOf, List.countP_pos_iff]
    simp
  have all_labelled : events.length = evaluated (matrixOf events) ↔ ∀ ev ∈ events, Labelled ev := by
    rw [evaluated_matrixOf, eq_comm, List.countP_eq_length]
    simp
  have none_correct : (matrixOf events).truePositives + (matrixOf events).trueNegatives = 0 ↔
      ∀ ev ∈ events, ¬Correct ev := by
    rw [correct_matrixOf, List.countP_eq_zero]
    simp
  rw [evaluateBenchmark_export reads nonempty recordable, reported_computeMetrics nonempty, Option.some.injEq,
    ← some_labelled, ← all_labelled, ← none_correct]
  by_cases positive : 0 < evaluated (matrixOf events)
  · rw [if_pos positive, scores_inj (List.length_pos_of_ne_nil nonempty) positive]
    exact (and_iff_right positive).symm
  · have no_positives : ¬0 < (matrixOf events).truePositives + (matrixOf events).falsePositives := by
      unfold evaluated at positive
      omega
    rw [if_neg positive]
    simp [positive, scores, no_positives]

private def quiet : BenchmarkEvent := { sourceIp := inetNtop ⟨10, 0, 0, 1⟩, groundTruthLabel := 0 }

private def unknown : BenchmarkEvent := { sourceIp := inetNtop ⟨10, 0, 0, 2⟩, groundTruthLabel := -1 }

theorem quiet_recordable : Recordable quiet := ⟨plain_inetNtop _, by decide, by decide⟩

theorem unknown_recordable : Recordable unknown := ⟨plain_inetNtop _, by decide, by decide⟩

theorem evaluation_agrees_iff_quiet :
    evaluateBenchmark (readIntegers (exportToCsv (recordAll [quiet]))) =
      some (reported (computeMetrics (recordAll [quiet]) 1)) := by
  apply (evaluation_agrees_iff readIntegers_reads (by simp) _ 1).mpr
  · decide
  · intro ev member
    rw [List.mem_singleton.mp member]
    exact quiet_recordable

/-- With an event of unknown label next to it, the script halves the accuracy. -/
theorem unknown_label_halves_accuracy :
    evaluateBenchmark (readIntegers (exportToCsv (recordAll [quiet, unknown]))) = some ⟨1 / 2, 1, 1, 1⟩ ∧
      reported (computeMetrics (recordAll [quiet, unknown]) 1) = ⟨1, 1, 1, 1⟩ := by
  have recordable : ∀ ev ∈ [quiet, unknown], Recordable ev := by
    intro ev member
    rcases List.mem_cons.mp member with rfl | member
    · exact quiet_recordable
    · rw [List.mem_singleton.mp member]
      exact unknown_recordable
  rw [evaluateBenchmark_export readIntegers_reads (by simp) recordable, reported_computeMetrics (by simp)]
  constructor
  · decide +kernel
  · decide +kernel

end SentinelLab.OfflineEvaluation
