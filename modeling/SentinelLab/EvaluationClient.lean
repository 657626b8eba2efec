import SentinelLab.DatagramCustody
import SentinelLab.IngestCodec

/-! The rows of a dataset on their way through the program: `stream_packets_to_sentinel` sends them,
the listener offers them to the queue, the worker records them, and the metrics count them. -/

namespace SentinelLab.EvaluationClient
open Inet Benchmark NetworkIngest SlabWire IngestCodec Daemon Library.Transition Library.Bytes Library.SinglePrecision

/-! ## The client -/

structure Row where
  label : Int
  features : List Binary32

/-- `stream_packets_to_sentinel` numbers the rows from 1; `none` is an error of `struct.pack`. -/
def streamPacketsToSentinel (client : Endian) (rows : List Row) : Option (List (List Byte)) :=
  rows.zipIdx.mapM fun (row, i) => streamPackets client (i + 1) row.label row.features

/-- The counts that the client prints before it sends. -/
def attackCount (rows : List Row) : Nat := rows.countP (·.label = 1)

def benignCount (rows : List Row) : Nat := rows.countP (·.label = 0)

/-! ## What the frames of the client become -/

variable {endian : Endian}

/-- What the listener reads of row `i` of the client; of a row that is too long for its buffer it
reads nothing. -/
def rowArrival (client endian : Endian) (row : Row) (i : Nat) : List Facts :=
  if 20 + 4 * row.features.length ≤ sizeofBuffer then
    [⟨i + 1, row.label, endian.words (client.unwords row.features)⟩]
  else []

def rowArrivals (client endian : Endian) (rows : List Row) : List Facts :=
  rows.zipIdx.flatMap fun (row, i) => rowArrival client endian row i

theorem streamPackets_fits {client : Endian} {eventId : Nat} {groundTruth : Int} {features : List Binary32}
    {frame : List Byte} (packed : streamPackets client eventId groundTruth features = some frame) :
    eventId < 2 ^ 64 ∧ -2 ^ 31 ≤ groundTruth ∧ groundTruth < 2 ^ 31 := by
  simp only [streamPackets, packUnsigned, packInt, Option.bind_eq_bind, Option.bind_eq_some_iff] at packed
  obtain ⟨_, id, _, truth, _⟩ := packed
  split at id
  case isFalse => cases id
  split at truth
  case isFalse => cases truth
  next fits range => exact ⟨fits, range⟩

theorem arrival_streamPackets {client : Endian} {row : Row} {i : Nat} {frame : List Byte}
    (packed : streamPackets client (i + 1) row.label row.features = some frame) :
    arrival endian frame = rowArrival client endian row i := by
  obtain ⟨id, low, high⟩ := streamPackets_fits packed
  obtain ⟨count, rfl⟩ := streamPackets_eq_some packed
  have complete := clientDatagram_complete client (i + 1) row.label row.features count
  unfold arrival rowArrival
  by_cases fits : 20 + 4 * row.features.length ≤ sizeofBuffer
  · obtain ⟨eventId, groundTruth, features⟩ := frameEvent_clientDatagram client endian (i + 1) row.label row.features
      (fun _ => "") 0 ⟨(0, 0), ⟨0, 0, 0, 0⟩⟩ id low high fits
    rw [if_pos (complete.mpr fits), if_pos fits, factsOf, eventId, groundTruth, features]
  · rw [if_neg (complete.not.mpr fits), if_neg fits]

theorem arrivals_streamPackets {client : Endian} {entries : List (Row × Nat)} {frames : List (List Byte)}
    (sent : entries.mapM (fun (row, i) => streamPackets client (i + 1) row.label row.features) = some frames) :
    frames.flatMap (arrival endian) = entries.flatMap fun (row, i) => rowArrival client endian row i := by
  induction entries generalizing frames with
  | nil =>
    cases sent
    rfl
  | cons entry entries ih =>
    simp only [List.mapM_cons, Option.bind_eq_bind, Option.bind_eq_some_iff, Option.pure_def,
      Option.some.injEq] at sent
    obtain ⟨frame, packed, rest, others, rfl⟩ := sent
    rw [List.flatMap_cons, List.flatMap_cons, arrival_streamPackets packed, ih others]

theorem labels_rowArrival (client endian : Endian) (row : Row) (i : Nat) :
    ((rowArrival client endian row i).map (·.label)).Sublist [row.label] := by
  unfold rowArrival
  split
  · exact List.Sublist.refl _
  · exact List.nil_sublist _

theorem labels_rowArrivals (client endian : Endian) (rows : List Row) :
    ((rowArrivals client endian rows).map (·.label)).Sublist (rows.map (·.label)) := by
  have from_index (first : Nat) : (((rows.zipIdx first).flatMap fun (row, i) =>
      rowArrival client endian row i).map (·.label)).Sublist (rows.map (·.label)) := by
    induction rows generalizing first with
    | nil => exact List.Sublist.refl _
    | cons row rows ih =>
      rw [List.zipIdx_cons, List.flatMap_cons, List.map_append, List.map_cons, ← List.singleton_append]
      exact (labels_rowArrival client endian row first).append (ih (first + 1))
  exact from_index 0

theorem mem_rowArrival {client : Endian} {row : Row} {i : Nat} {facts : Facts}
    (member : facts ∈ rowArrival client endian row i) : facts.eventId = i + 1 := by
  unfold rowArrival at member
  split at member
  · rw [List.mem_singleton.mp member]
  · cases member

theorem eventIds_rowArrivals (client endian : Endian) (rows : List Row) :
    ((rowArrivals client endian rows).map (·.eventId)).Pairwise (· < ·) := by
  have from_index (first : Nat) : (((rows.zipIdx first).flatMap fun (row, i) =>
      rowArrival client endian row i).map (·.eventId)).Pairwise (· < ·) := by
    induction rows generalizing first with
    | nil => exact List.Pairwise.nil
    | cons row rows ih =>
      rw [List.zipIdx_cons, List.flatMap_cons, List.map_append, List.pairwise_append]
      refine ⟨?_, ih (first + 1), ?_⟩
      · by_cases fits : 20 + 4 * row.features.length ≤ sizeofBuffer <;> simp [rowArrival, fits]
      · intro earlier inside later behind
        obtain ⟨facts, member, rfl⟩ := List.mem_map.mp inside
        obtain ⟨other, member_later, rfl⟩ := List.mem_map.mp behind
        obtain ⟨⟨next, i⟩, entry, arrived⟩ := List.mem_flatMap.mp member_later
        have after_first : first + 1 ≤ i := List.le_snd_of_mem_zipIdx entry
        rw [mem_rowArrival member, mem_rowArrival arrived]
        omega
  exact from_index 0

/-! ## The metrics of an evaluation -/

/-- The metrics count rows, each at most once and under its own label. -/
structure RowsCounted (rows : List Row) (m : BenchmarkMetrics) : Prop where
  total : m.totalEvents ≤ rows.length
  attacks : m.truePositives + m.falseNegatives ≤ attackCount rows
  benign : m.falsePositives + m.trueNegatives ≤ benignCount rows
  all : m.totalEvents = rows.length →
    m.truePositives + m.falseNegatives = attackCount rows ∧ m.falsePositives + m.trueNegatives = benignCount rows

theorem cell_add_cell (events : List BenchmarkEvent) (label : Int) :
    cell events label true + cell events label false = (events.map factsOf).countP (·.label = label) := by
  unfold cell
  rw [List.countP_map]
  induction events with
  | nil => rfl
  | cons ev events ih =>
    simp only [List.countP_cons, Function.comp_apply, factsOf] at ih ⊢
    rw [← ih]
    by_cases same : ev.groundTruthLabel = label <;> by_cases dropped : ev.action = .kernelDropped <;>
      simp [same, dropped] <;> omega

theorem countP_rowArrivals (client endian : Endian) (rows : List Row) (label : Int) :
    (rowArrivals client endian rows).countP (·.label = label) ≤ rows.countP (·.label = label) ∧
      (rows.length ≤ (rowArrivals client endian rows).length →
        (rowArrivals client endian rows).countP (·.label = label) = rows.countP (·.label = label)) := by
  have labels := labels_rowArrivals client endian rows
  have counted (facts : List Facts) :
      facts.countP (·.label = label) = (facts.map (·.label)).countP (· = label) := by
    rw [List.countP_map]
    rfl
  have counted_rows : rows.countP (·.label = label) = (rows.map (·.label)).countP (· = label) := by
    rw [List.countP_map]
    rfl
  rw [counted, counted_rows]
  refine ⟨labels.countP_le, ?_⟩
  intro all
  rw [labels.eq_of_length_le (by rw [List.length_map, List.length_map]; exact all)]

theorem rowsCounted_of_subperm {client : Endian} {rows : List Row} {events : List BenchmarkEvent}
    (counted : (events.map factsOf).Subperm (rowArrivals client endian rows)) (testDurationSeconds : ℚ) :
    RowsCounted rows (computeMetrics (logged events) testDurationSeconds) := by
  have paired : (logged events).Paired := by
    rw [logged_eq]
    exact List.length_map _
  have cells : (computeMetrics (logged events) testDurationSeconds).confusionMatrix = matrixOf events := by
    rw [computeMetrics_confusionMatrix paired, logged_eq]
  have total : (computeMetrics (logged events) testDurationSeconds).totalEvents = (events.map factsOf).length := by
    rw [computeMetrics_totalEvents, logged_eq, List.length_map, List.length_map]
  have few : (rowArrivals client endian rows).length ≤ rows.length := by
    simpa only [List.length_map] using (labels_rowArrivals client endian rows).length_le
  simp only [BenchmarkMetrics.confusionMatrix, matrixOf, ConfusionMatrix.mk.injEq] at cells
  obtain ⟨tp, fp, tn, fn⟩ := cells
  have attacks := cell_add_cell events 1
  have benign := cell_add_cell events 0
  obtain ⟨attack_rows, attack_all⟩ := countP_rowArrivals client endian rows 1
  obtain ⟨benign_rows, benign_all⟩ := countP_rowArrivals client endian rows 0
  constructor
  · rw [total]
    exact counted.length_le.trans few
  · rw [tp, fn, attacks]
    exact (counted.countP_le _).trans attack_rows
  · rw [fp, tn, benign]
    exact (counted.countP_le _).trans benign_rows
  · intro all
    rw [total] at all
    have same := counted.perm_of_length_le (few.trans all.ge)
    have arrived : rows.length ≤ (rowArrivals client endian rows).length := all.symm.le.trans counted.length_le
    rw [tp, fn, fp, tn, attacks, benign, same.countP_eq, same.countP_eq, attack_all arrived, benign_all arrived]
    exact ⟨rfl, rfl⟩

section Runs

variable {capacity : ℕ+} {host : Host} {buffer : Fin capacity → BenchmarkEvent} {world : EbpfFilter.World}
  {trace : Trace capacity} {final : State capacity}

/-- When the network neither doubles nor forges a datagram, the accepted events are rows of the
client, each at most once. -/
theorem accepted_subperm {client : Endian} {rows : List Row} {frames : List (List Byte)}
    (sent : streamPacketsToSentinel client rows = some frames)
    (undistorted : ((deliveries trace).map (·.2)).Subperm frames)
    (run : Run (machine host capacity) (initial capacity buffer world) trace final) :
    ((accepted trace).map factsOf).Subperm (rowArrivals client host.endian rows) := by
  have sources : arrivals host.endian (deliveries trace) =
      ((deliveries trace).map (·.2)).flatMap (arrival host.endian) := by
    rw [arrivals, List.flatMap_map]
  apply (accepted_arrived run).subperm.trans
  rw [sources, rowArrivals, ← arrivals_streamPackets sent]
  obtain ⟨middle, same, inside⟩ := undistorted
  exact (same.flatMap_right _).symm.subperm.trans (inside.flatMap (arrival host.endian)).subperm

theorem rowsCounted_of_prefix {client : Endian} {rows : List Row} {accepted : List BenchmarkEvent}
    (rows_only : (accepted.map factsOf).Subperm (rowArrivals client endian rows)) {m : BenchmarkMetrics}
    {testDurationSeconds : ℚ} (describes : DescribesPrefix accepted m testDurationSeconds) : RowsCounted rows m := by
  obtain ⟨events, log, rfl⟩ := describes
  have inside := log.sublist.map factsOf
  rw [map_factsOf_untouched, map_factsOf_untouched] at inside
  exact rowsCounted_of_subperm (inside.subperm.trans rows_only) testDurationSeconds

theorem eventIds_nodup {client : Endian} {rows : List Row} {events : List BenchmarkEvent}
    (recorded : (events.map factsOf).Subperm (rowArrivals client endian rows)) :
    (events.map (·.eventId.toNat)).Nodup := by
  obtain ⟨middle, same, inside⟩ := recorded
  have ordered := (eventIds_rowArrivals client endian rows).sublist (inside.map (·.eventId))
  have distinct : (middle.map (·.eventId)).Nodup := ordered.imp fun before => before.ne
  have ids : events.map (·.eventId.toNat) = (events.map factsOf).map (·.eventId) := by
    rw [List.map_map]
    rfl
  rw [ids]
  exact ((same.map (·.eventId)).nodup_iff).mp distinct

theorem report_describes (run : Run (machine host capacity) (initial capacity buffer world) trace final) :
    ∀ metrics ∈ reports trace, ∃ testDurationSeconds, DescribesPrefix (accepted trace) metrics testDurationSeconds := by
  intro metrics member
  obtain ⟨log, _, _, report⟩ := run_telemetry run
  obtain ⟨_, testDurationSeconds, same⟩ := report metrics member
  rw [log] at same
  exact ⟨testDurationSeconds, _, log_accepted (run_balanced run), same⟩

end Runs

/-- Over every interleaving of the threads and whatever datagrams of the client are lost or
overtake each other: the log holds rows of the client, none of them twice, each with its number,
its label and its features, and no response and no report counts an attack or a benign row that
the client did not send. One that counts as many events as the client has rows has its counts. -/
theorem evaluation_counts_rows (host : Host) (client : Endian) (capacity : ℕ+)
    (buffer : Fin capacity → BenchmarkEvent) (world : EbpfFilter.World) (rows : List Row) (frames : List (List Byte))
    (sent : streamPacketsToSentinel client rows = some frames) (trace : Trace capacity) (final : State capacity)
    (run : Run (machine host capacity) (initial capacity buffer world) trace final)
    (undistorted : ((deliveries trace).map (·.2)).Subperm frames) :
    (final.benchmarker.recordedEvents.map factsOf).Subperm (rowArrivals client host.endian rows) ∧
      (final.benchmarker.recordedEvents.map (·.eventId.toNat)).Nodup ∧
      (∀ response ∈ responses trace, RowsCounted rows response.1) ∧
      ∀ metrics ∈ reports trace, RowsCounted rows metrics := by
  have rows_only := accepted_subperm sent undistorted run
  have log := (log_accepted (run_balanced run)).sublist.map factsOf
  rw [map_factsOf_untouched, map_factsOf_untouched] at log
  have recorded := log.subperm.trans rows_only
  refine ⟨recorded, eventIds_nodup recorded, ?_, ?_⟩
  · intro response member
    exact rowsCounted_of_prefix rows_only (response_describes run response member)
  · intro metrics member
    obtain ⟨_, describes⟩ := report_describes run metrics member
    exact rowsCounted_of_prefix rows_only describes

/-! A benign row and an attack are sent, and the second datagram is lost. -/

theorem evaluation_counts_rows_lossy :
    ∃ frames trace final,
      streamPacketsToSentinel .little [⟨0, [0x3F800000]⟩, ⟨1, [0xC0000000]⟩] = some frames ∧
        (machine littleHost 65536).exec launched served = some (trace, final) ∧
        (final.benchmarker.recordedEvents.map (·.eventId.toNat)) = [1] ∧
        ∀ response ∈ responses trace, RowsCounted [⟨0, [0x3F800000]⟩, ⟨1, [0xC0000000]⟩] response.1 := by
  obtain ⟨frames, sent⟩ : ∃ frames,
      streamPacketsToSentinel .little [⟨0, [0x3F800000]⟩, ⟨1, [0xC0000000]⟩] = some frames := ⟨_, rfl⟩
  obtain ⟨⟨trace, final⟩, executed⟩ : ∃ result,
      (machine littleHost 65536).exec launched served = some result := ⟨_, rfl⟩
  have seen : ((deliveries trace).map (·.2)).Subperm frames ∧
      final.benchmarker.recordedEvents.map (·.eventId.toNat) = [1] := by
    cases executed
    cases sent
    refine ⟨List.Sublist.subperm ?_, rfl⟩
    exact List.sublist_append_left
      [[0x53, 0x4C, 0x41, 0x42, 0, 0, 0, 0, 0, 0, 0, 1, 0, 0, 0, 0, 0, 0, 0, 1, 0, 0, 0x80, 0x3F]] _
  have counted := evaluation_counts_rows littleHost .little 65536 _ _ _ frames sent trace final
    (Machine.exec_run executed) seen.1
  exact ⟨frames, trace, final, sent, executed, seen.2, counted.2.2.1⟩

end SentinelLab.EvaluationClient
