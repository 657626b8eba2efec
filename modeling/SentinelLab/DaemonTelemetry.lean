import SentinelLab.DaemonLedger

/-! What the clients of the server and the reader of the report see. The answers of a run are
readings of one growing log, in the order in which they are sent, and the report reads all of it. -/

namespace SentinelLab.Daemon
open Benchmark EbpfFilter Library.Transition

variable {capacity : ℕ+} {host : Host} {state after : State capacity} {obs : Obs}

def Obs.told : Obs → Option (BenchmarkMetrics × Nat)
  | .response m blockedIpsCount => some (m, blockedIpsCount)
  | _ => none

def Obs.reported : Obs → Option BenchmarkMetrics
  | .report metrics => some metrics
  | _ => none

def responses (trace : Trace capacity) : List (BenchmarkMetrics × Nat) :=
  trace.filterMap fun entry => entry.obs.told

def reports (trace : Trace capacity) : List BenchmarkMetrics := trace.filterMap fun entry => entry.obs.reported

def ServerPc.answer : ServerPc → Option BenchmarkMetrics
  | .responding m => some m
  | _ => none

def WorkerPc.judged : WorkerPc → List BenchmarkEvent
  | .locking ev | .recording ev => [ev]
  | _ => []

/-- A step that changes neither the log nor the filter, and tells nobody anything. -/
structure Unseen (state : State capacity) (obs : Obs) (after : State capacity) : Prop where
  benchmarker : after.benchmarker = state.benchmarker
  world : after.world = state.world
  judged : after.worker.judged = state.worker.judged
  answer : after.server.answer = state.server.answer
  told : obs.told = none
  reported : obs.reported = none

/-- The steps that can be told apart from outside. -/
inductive Effect (host : Host) (state : State capacity) : Obs → State capacity → Prop where
  | unseen {obs : Obs} {after : State capacity} (unseen : Unseen state obs after) : Effect host state obs after
  | judges {ev : BenchmarkEvent} (answers : Answers) (current : state.worker = .evaluating ev) :
      Effect host state .silent
        { state with
          world := (Worker.evaluate (host.codec.key host.endian) state.world ev answers.anomalyScore
            answers.tInferDone answers.tMitigated answers.succeeds).1
          worker := .locking (Worker.evaluate (host.codec.key host.endian) state.world ev answers.anomalyScore
            answers.tInferDone answers.tMitigated answers.succeeds).2 }
  | records {ev : BenchmarkEvent} (current : state.worker = .recording ev) :
      Effect host state .silent
        { state with benchmarker := recordEvent state.benchmarker ev, worker := .test }
  | computes (current : state.server = .computing) :
      Effect host state .silent { state with server := .responding (computeMetrics state.benchmarker 1) }
  | responds {m : BenchmarkMetrics} (current : state.server = .responding m) :
      Effect host state (.response m state.world.harness.blockedIps.card) { state with server := .test }
  | reports (testDurationSeconds : ℚ) (current : state.main = .report) :
      Effect host state (.report (computeMetrics state.benchmarker testDurationSeconds))
        { state with main := .returned }

theorem Unseen.of_access {move : State capacity → RingBuffer.Obs BenchmarkEvent → State capacity}
    {label : RingBuffer.Label BenchmarkEvent} (taken : state.access label move = some (after, obs))
    (benchmarker : ∀ state returned, (move state returned).benchmarker = state.benchmarker)
    (world : ∀ state returned, (move state returned).world = state.world)
    (judged : ∀ queue returned, (move { state with queue } returned).worker.judged = state.worker.judged)
    (server : ∀ state returned, (move state returned).server = state.server) : Unseen state obs after := by
  rcases access_eq_some taken with ⟨queue, returned, _, rfl, rfl⟩
  exact ⟨benchmarker _ _, world _ _, judged _ _, by rw [server], rfl, rfl⟩

theorem stepMain_effect {answers : Answers} (staged : Staged state)
    (taken : stepMain state answers = some (after, obs)) : Effect host state obs after := by
  unfold stepMain at taken
  cases current : state.main <;> simp only [current] at taken
  case startServer =>
    cases taken
    have unstarted : state.server = .notStarted := staged.server_started.mpr (by simp [current, MainPc.stage])
    exact .unseen ⟨rfl, rfl, rfl, by simp [unstarted, ServerPc.answer], rfl, rfl⟩
  case startWorker =>
    cases taken
    have unstarted : state.worker = .notStarted := staged.worker_started.mpr (by simp [current, MainPc.stage])
    exact .unseen ⟨rfl, rfl, by simp [unstarted, WorkerPc.judged], rfl, rfl, rfl⟩
  case joinReceiver | joinServer | joinWorker =>
    split at taken <;> cases taken
    exact .unseen ⟨rfl, rfl, rfl, rfl, rfl, rfl⟩
  case report =>
    split at taken <;> cases taken
    exact .reports _ current
  case returned => cases taken
  all_goals
    cases taken
    exact .unseen ⟨rfl, rfl, rfl, rfl, rfl, rfl⟩

theorem afterPop_judged (obs : RingBuffer.Obs BenchmarkEvent) : (WorkerPc.afterPop obs).judged = [] := by
  cases obs with
  | popReturned result => cases result <;> rfl
  | _ => rfl

theorem stepWorker_effect {answers : Answers} (taken : stepWorker host state answers = some (after, obs)) :
    Effect host state obs after := by
  unfold stepWorker at taken
  cases current : state.worker <;> simp only [current] at taken
  case notStarted | exited => cases taken
  case test =>
    split at taken
    · exact .unseen (Unseen.of_access taken (fun _ _ => rfl) (fun _ _ => rfl)
        (fun _ _ => by simp [current, WorkerPc.judged]) (fun _ _ => rfl))
    · cases taken
      exact .unseen ⟨rfl, rfl, by simp [current, WorkerPc.judged], rfl, rfl, rfl⟩
  case popping =>
    exact .unseen (Unseen.of_access taken (fun _ _ => rfl) (fun _ _ => rfl)
      (fun _ _ => by rw [afterPop_judged, current]; rfl) (fun _ _ => rfl))
  case evaluating ev =>
    cases taken
    exact .judges answers current
  case locking ev =>
    split at taken <;> cases taken
    exact .unseen ⟨rfl, rfl, by simp [current, WorkerPc.judged], rfl, rfl, rfl⟩
  case recording ev =>
    cases taken
    exact .records current
  case sleeping =>
    cases taken
    exact .unseen ⟨rfl, rfl, by simp [current, WorkerPc.judged], rfl, rfl, rfl⟩

theorem stepListener_effect {answers : Answers} (taken : stepListener host state answers = some (after, obs)) :
    Effect host state obs after := by
  unfold stepListener at taken
  cases current : state.listener <;> simp only [current] at taken
  case notStarted | exited => cases taken
  case setup | test =>
    cases taken
    exact .unseen ⟨rfl, rfl, rfl, rfl, rfl, rfl⟩
  case receiving =>
    split at taken
    · cases taken
    · split at taken
      · cases taken
      · cases taken
        exact .unseen ⟨rfl, rfl, rfl, rfl, rfl, rfl⟩
      · exact .unseen (Unseen.of_access taken (fun _ _ => rfl) (fun _ _ => rfl) (fun _ _ => rfl) (fun _ _ => rfl))
  case pushing =>
    exact .unseen (Unseen.of_access taken (fun _ _ => rfl) (fun _ _ => rfl) (fun _ _ => rfl) (fun _ _ => rfl))

theorem stepServer_effect {answers : Answers} (taken : stepServer state answers = some (after, obs)) :
    Effect host state obs after := by
  unfold stepServer at taken
  cases current : state.server <;> simp only [current] at taken
  case notStarted | exited => cases taken
  case setup =>
    cases taken
    exact .unseen ⟨rfl, rfl, rfl, by cases answers.bound <;> simp [current, ServerPc.answer], rfl, rfl⟩
  case test =>
    cases taken
    exact .unseen ⟨rfl, rfl, rfl, by cases state.serverRunning <;> simp [current, ServerPc.answer], rfl, rfl⟩
  case accepting =>
    split at taken
    · cases taken
    · split at taken <;> cases taken <;>
        exact .unseen ⟨rfl, rfl, rfl, by simp [current, ServerPc.answer], rfl, rfl⟩
  case reading readable =>
    split at taken <;> cases taken
    exact .unseen ⟨rfl, rfl, rfl, by simp [current, ServerPc.answer], rfl, rfl⟩
  case locking =>
    split at taken <;> cases taken
    exact .unseen ⟨rfl, rfl, rfl, by simp [current, ServerPc.answer], rfl, rfl⟩
  case computing =>
    cases taken
    exact .computes current
  case responding m =>
    cases taken
    exact .responds current

theorem step_effect {label : Label} (staged : Staged state)
    (taken : step host state label = some (after, obs)) : Effect host state obs after := by
  cases label with
  | thread thread answers =>
    cases thread with
    | main => exact stepMain_effect staged taken
    | worker => exact stepWorker_effect taken
    | listener => exact stepListener_effect taken
    | server => exact stepServer_effect taken
  | scribble garbage =>
    simp only [step] at taken
    exact .unseen (Unseen.of_access taken (fun _ _ => rfl) (fun _ _ => rfl) (fun _ _ => rfl) (fun _ _ => rfl))
  | signal =>
    cases taken
    exact .unseen ⟨rfl, rfl, rfl, rfl, rfl, rfl⟩
  | datagram clientAddr bytes =>
    simp only [step] at taken
    split at taken <;> cases taken
    exact .unseen ⟨rfl, rfl, rfl, rfl, rfl, rfl⟩
  | connection =>
    simp only [step] at taken
    split at taken <;> cases taken
    exact .unseen ⟨rfl, rfl, rfl, rfl, rfl, rfl⟩
  | clientBytes =>
    simp only [step] at taken
    split at taken <;> cases taken
    next waiting => exact .unseen ⟨rfl, rfl, rfl, by simp [waiting, ServerPc.answer], rfl, rfl⟩

/-! ## The answers of a run -/

def logged (events : List BenchmarkEvent) : Benchmarker := events.foldl recordEvent {}

def snapshot (events : List BenchmarkEvent) (count : Nat) : BenchmarkMetrics :=
  computeMetrics (logged (events.take count)) 1

theorem logged_append (events : List BenchmarkEvent) (ev : BenchmarkEvent) :
    logged (events ++ [ev]) = recordEvent (logged events) ev := by
  rw [logged, List.foldl_append, List.foldl_cons, List.foldl_nil, logged]

theorem snapshot_append (events later : List BenchmarkEvent) {count : Nat} (inside : count ≤ events.length) :
    snapshot (events ++ later) count = snapshot events count := by
  rw [snapshot, List.take_append_of_le_length inside, snapshot]

/-- The counts grow, and none is above the present one. -/
def Grows (counts : List Nat) (present : Nat) : Prop :=
  counts.Pairwise (· ≤ ·) ∧ ∀ count ∈ counts, count ≤ present

theorem Grows.snoc {counts : List Nat} {present : Nat} (grows : Grows counts present) :
    Grows (counts ++ [present]) present := by
  constructor
  · rw [List.pairwise_append]
    refine ⟨grows.1, List.pairwise_singleton _ _, ?_⟩
    intro earlier member last same
    rw [List.mem_singleton.mp same]
    exact grows.2 earlier member
  · intro count member
    rcases List.mem_append.mp member with earlier | last
    · exact grows.2 count earlier
    · exact (List.mem_singleton.mp last).le

theorem Grows.mono {counts : List Nat} {present later : Nat} (grows : Grows counts present)
    (longer : present ≤ later) : Grows counts later :=
  ⟨grows.1, fun count member => (grows.2 count member).trans longer⟩

/-- The metrics sent so far, and those computed and not yet sent, are readings of the log at
growing lengths; the numbers of blocked addresses grow too, and the report reads the whole log. -/
structure Telemetry (trace : Trace capacity) (state : State capacity) : Prop where
  log : state.benchmarker = logged state.benchmarker.recordedEvents
  reads : ∃ counts, Grows counts state.benchmarker.recordedEvents.length ∧
    (responses trace).map (·.1) ++ state.server.answer.toList =
      counts.map (snapshot state.benchmarker.recordedEvents)
  blocked : Grows ((responses trace).map (·.2)) state.world.harness.blockedIps.card
  report : ∀ metrics ∈ reports trace, state.main = .returned ∧
    ∃ testDurationSeconds, metrics = computeMetrics state.benchmarker testDurationSeconds

theorem blockedIps_evaluate (inetPton : String → Option Inet.Key) (world : World) (ev : BenchmarkEvent)
    (anomalyScore : Library.SinglePrecision.Binary32) (tInferDone tMitigated : Int) (succeeds : Bool) :
    world.harness.blockedIps ⊆
      (Worker.evaluate inetPton world ev anomalyScore tInferDone tMitigated succeeds).1.harness.blockedIps :=
  Worker.Round.blockedIps_subset inetPton ⟨ev, anomalyScore, tInferDone, tMitigated, succeeds⟩ world

theorem step_returned {label : Label} (returned : state.main = .returned)
    (taken : step host state label = some (after, obs)) : after.main = .returned := by
  cases label with
  | thread thread answers =>
    cases thread with
    | main => simp [step, stepMain, returned] at taken
    | worker => exact (stepWorker_moves taken).main.trans returned
    | listener => exact (stepListener_moves taken).main.trans returned
    | server => exact (stepServer_moves taken).main.trans returned
  | scribble garbage => exact (step_scribbleMoves taken).main.trans returned
  | _ => exact (step_outsideMoves rfl taken).main.trans returned

theorem responses_snoc (trace : Trace capacity) (label : Label) :
    responses (trace ++ [⟨state, label, obs, after⟩]) = responses trace ++ obs.told.toList := by
  cases told : obs.told <;> simp [responses, told]

theorem reports_snoc (trace : Trace capacity) (label : Label) :
    reports (trace ++ [⟨state, label, obs, after⟩]) = reports trace ++ obs.reported.toList := by
  cases reported : obs.reported <;> simp [reports, reported]

theorem step_telemetry {trace : Trace capacity} {label : Label} (staged : Staged state)
    (telemetry : Telemetry trace state) (taken : step host state label = some (after, obs)) :
    Telemetry (trace ++ [⟨state, label, obs, after⟩]) after := by
  obtain ⟨log, ⟨counts, grows, reads⟩, blocked, report⟩ := telemetry
  have stays (metrics : BenchmarkMetrics) (member : metrics ∈ reports trace) : after.main = .returned :=
    step_returned (report metrics member).1 taken
  cases step_effect staged taken with
  | unseen unseen =>
    constructor
    · rw [unseen.benchmarker]
      exact log
    · refine ⟨counts, ?_, ?_⟩
      · rw [unseen.benchmarker]
        exact grows
      · rw [unseen.benchmarker, unseen.answer, responses_snoc, unseen.told]
        simpa using reads
    · rw [unseen.world, responses_snoc, unseen.told]
      simpa using blocked
    · rw [reports_snoc, unseen.reported, unseen.benchmarker]
      intro metrics member
      have before : metrics ∈ reports trace := by simpa using member
      exact ⟨stays metrics before, (report metrics before).2⟩
  | judges answers current =>
    constructor
    · exact log
    · refine ⟨counts, grows, ?_⟩
      rw [responses_snoc]
      simpa [Obs.told] using reads
    · rw [responses_snoc]
      refine Grows.mono ?_ (Finset.card_le_card (blockedIps_evaluate _ _ _ answers.anomalyScore
        answers.tInferDone answers.tMitigated answers.succeeds))
      simpa [Obs.told] using blocked
    · rw [reports_snoc]
      intro metrics member
      have before : metrics ∈ reports trace := by simpa [Obs.reported] using member
      exact ⟨stays metrics before, (report metrics before).2⟩
  | records current =>
    rename_i ev
    constructor
    · change recordEvent state.benchmarker ev = logged (state.benchmarker.recordedEvents ++ [ev])
      rw [logged_append, ← log]
    · refine ⟨counts, grows.mono (by simp [recordEvent]), ?_⟩
      have same : counts.map (snapshot (state.benchmarker.recordedEvents ++ [ev])) =
          counts.map (snapshot state.benchmarker.recordedEvents) := by
        apply List.map_congr_left
        intro count member
        exact snapshot_append _ _ (grows.2 count member)
      rw [responses_snoc]
      simpa [Obs.told, recordEvent, same] using reads
    · rw [responses_snoc]
      simpa [Obs.told] using blocked
    · rw [reports_snoc]
      intro metrics member
      have before : metrics ∈ reports trace := by simpa [Obs.reported] using member
      have exited := staged.worker_joined (by simp [(report metrics before).1, MainPc.stage])
      rw [current] at exited
      cases exited
  | computes current =>
    have free : state.server.answer = none := by rw [current]; rfl
    constructor
    · exact log
    · refine ⟨counts ++ [state.benchmarker.recordedEvents.length], grows.snoc, ?_⟩
      have whole : computeMetrics state.benchmarker 1 =
          snapshot state.benchmarker.recordedEvents state.benchmarker.recordedEvents.length := by
        rw [snapshot, List.take_length, ← log]
      rw [responses_snoc]
      rw [free, Option.toList_none, List.append_nil] at reads
      simp [Obs.told, reads, ServerPc.answer, whole]
    · rw [responses_snoc]
      simpa [Obs.told] using blocked
    · rw [reports_snoc]
      intro metrics member
      have before : metrics ∈ reports trace := by simpa [Obs.reported] using member
      exact ⟨stays metrics before, (report metrics before).2⟩
  | responds current =>
    rename_i m
    have pending : state.server.answer = some m := by rw [current]; rfl
    constructor
    · exact log
    · refine ⟨counts, grows, ?_⟩
      rw [responses_snoc]
      rw [pending] at reads
      simpa [Obs.told, ServerPc.answer] using reads
    · rw [responses_snoc]
      simpa [Obs.told] using blocked.snoc
    · rw [reports_snoc]
      intro metrics member
      have before : metrics ∈ reports trace := by simpa [Obs.reported] using member
      exact ⟨stays metrics before, (report metrics before).2⟩
  | reports testDurationSeconds current =>
    constructor
    · exact log
    · refine ⟨counts, grows, ?_⟩
      rw [responses_snoc]
      simpa [Obs.told] using reads
    · rw [responses_snoc]
      simpa [Obs.told] using blocked
    · rw [reports_snoc]
      intro metrics member
      rcases List.mem_append.mp member with before | last
      · exact ⟨rfl, (report metrics before).2⟩
      · exact ⟨rfl, testDurationSeconds, by simpa [Obs.reported] using last⟩

theorem run_telemetry {buffer : Fin capacity → BenchmarkEvent} {world : World} {final : State capacity}
    {trace : Trace capacity} (run : Run (machine host capacity) (initial capacity buffer world) trace final) :
    Telemetry trace final := by
  refine run.history ?_ ?_
  · intro trace state label obs next earlier telemetry taken
    exact step_telemetry (run_coordinated earlier).staged telemetry taken
  · refine ⟨rfl, ⟨[], ⟨List.Pairwise.nil, by simp⟩, rfl⟩, ⟨List.Pairwise.nil, by simp [responses]⟩, by simp [reports]⟩

theorem logged_eq (events : List BenchmarkEvent) : logged events = ⟨events.map (·.totalLatencyUs), events⟩ := by
  induction events using List.reverseRecOn with
  | nil => rfl
  | append_singleton events ev ih => rw [logged_append, ih, recordEvent, List.map_append, List.map_singleton]

theorem computeMetrics_totalEvents (benchmarker : Benchmarker) (testDurationSeconds : ℚ) :
    (computeMetrics benchmarker testDurationSeconds).totalEvents = benchmarker.latenciesUs.length := by
  unfold computeMetrics
  dsimp only
  split
  · rfl
  · obtain ⟨truePositives, falsePositives, trueNegatives, falseNegatives, counted⟩ := foldl_tally_fields
      benchmarker.recordedEvents (latencies
        { totalEvents := benchmarker.latenciesUs.length
          throughputEps := if 0 < testDurationSeconds then benchmarker.latenciesUs.length / testDurationSeconds else 0 }
        (benchmarker.latenciesUs.mergeSort fun first second => first ≤ second))
    rw [counted]
    unfold ratios
    dsimp only
    split <;> rfl

/-- Later metrics count no fewer events, in no cell. -/
structure CountsUp (earlier later : BenchmarkMetrics) : Prop where
  total : earlier.totalEvents ≤ later.totalEvents
  truePositives : earlier.truePositives ≤ later.truePositives
  falsePositives : earlier.falsePositives ≤ later.falsePositives
  trueNegatives : earlier.trueNegatives ≤ later.trueNegatives
  falseNegatives : earlier.falseNegatives ≤ later.falseNegatives

theorem countsUp_of_sublist {earlier later : List BenchmarkEvent} (sublist : earlier.Sublist later)
    (earlierSeconds laterSeconds : ℚ) :
    CountsUp (computeMetrics (logged earlier) earlierSeconds) (computeMetrics (logged later) laterSeconds) := by
  have paired (events : List BenchmarkEvent) : (logged events).Paired := by
    rw [logged_eq]
    exact List.length_map _
  have cells (events : List BenchmarkEvent) (seconds : ℚ) :
      (computeMetrics (logged events) seconds).confusionMatrix = matrixOf events := by
    rw [computeMetrics_confusionMatrix (paired events), logged_eq]
  have before := cells earlier earlierSeconds
  have behind := cells later laterSeconds
  simp only [BenchmarkMetrics.confusionMatrix, matrixOf, ConfusionMatrix.mk.injEq] at before behind
  constructor
  · rw [computeMetrics_totalEvents, computeMetrics_totalEvents, logged_eq, logged_eq, List.length_map, List.length_map]
    exact sublist.length_le
  · rw [before.1, behind.1]
    exact sublist.countP_le
  · rw [before.2.1, behind.2.1]
    exact sublist.countP_le
  · rw [before.2.2.1, behind.2.2.1]
    exact sublist.countP_le
  · rw [before.2.2.2, behind.2.2.2]
    exact sublist.countP_le

theorem snapshot_countsUp (events : List BenchmarkEvent) {earlier later : Nat} (order : earlier ≤ later) :
    CountsUp (snapshot events earlier) (snapshot events later) :=
  countsUp_of_sublist (List.take_sublist_take_left order) 1 1

theorem log_accepted {trace : Trace capacity} (balanced : Balanced trace state) :
    state.benchmarker.recordedEvents.map untouched <+: (accepted trace).map untouched := by
  rw [Balanced, State.taken, List.append_assoc, List.map_append] at balanced
  rw [balanced]
  exact List.prefix_append _ _

theorem readings_countUp (events : List BenchmarkEvent) {counts : List Nat} {present : Nat}
    (grows : Grows counts present) : (counts.map (snapshot events)).Pairwise CountsUp := by
  rw [List.pairwise_map]
  exact grows.1.imp fun order => snapshot_countsUp events order

/-- The metrics are those of an initial part of the accepted events. -/
def DescribesPrefix (accepted : List BenchmarkEvent) (metrics : BenchmarkMetrics) (testDurationSeconds : ℚ) : Prop :=
  ∃ events : List BenchmarkEvent, events.map untouched <+: accepted.map untouched ∧
    metrics = computeMetrics (logged events) testDurationSeconds

section Runs

variable {buffer : Fin capacity → BenchmarkEvent} {world : World} {trace : Trace capacity} {final : State capacity}

theorem response_snapshot (run : Run (machine host capacity) (initial capacity buffer world) trace final) :
    ∀ response ∈ responses trace, ∃ count, response.1 = snapshot final.benchmarker.recordedEvents count := by
  obtain ⟨_, ⟨counts, _, reads⟩, _, _⟩ := run_telemetry run
  intro response member
  have inside : response.1 ∈ counts.map (snapshot final.benchmarker.recordedEvents) := by
    rw [← reads]
    exact List.mem_append_left _ (List.mem_map_of_mem member)
  obtain ⟨count, _, same⟩ := List.mem_map.mp inside
  exact ⟨count, same.symm⟩

theorem responses_ordered (run : Run (machine host capacity) (initial capacity buffer world) trace final) :
    (responses trace).Pairwise fun earlier later => CountsUp earlier.1 later.1 ∧ earlier.2 ≤ later.2 := by
  obtain ⟨_, ⟨counts, grows, reads⟩, blocked, _⟩ := run_telemetry run
  have metrics : ((responses trace).map (·.1)).Pairwise CountsUp := by
    have all := readings_countUp final.benchmarker.recordedEvents grows
    rw [← reads] at all
    exact (List.pairwise_append.mp all).1
  exact (List.pairwise_map.mp metrics).and (List.pairwise_map.mp blocked.1)

theorem response_describes (run : Run (machine host capacity) (initial capacity buffer world) trace final) :
    ∀ response ∈ responses trace, DescribesPrefix (accepted trace) response.1 1 := by
  intro response member
  obtain ⟨count, same⟩ := response_snapshot run response member
  refine ⟨final.benchmarker.recordedEvents.take count, ?_, same⟩
  rw [List.map_take]
  exact (List.take_prefix _ _).trans (log_accepted (run_balanced run))

end Runs

def asked : List Label := [.connection] ++ turns .server 6

def served : List Label :=
  turns .main 3 ++ turns .server 1 ++ turns .listener 2 ++ asked ++
    [.datagram ⟨(0xC3, 0x50), ⟨10, 0, 0, 1⟩⟩
      [0x53, 0x4C, 0x41, 0x42, 0, 0, 0, 0, 0, 0, 0, 1, 0, 0, 0, 0, 0, 0, 0, 1, 0, 0, 0x80, 0x3F]] ++
    turns .listener 5 ++ turns .worker 8 ++ asked

/-- Every listed address was listed at the start, or is the source of an event that was judged to
be dropped. -/
def Caused (world : World) (state : State capacity) : Prop :=
  ∀ ip ∈ state.world.harness.blockedIps, ip ∈ world.harness.blockedIps ∨
    ∃ ev ∈ state.benchmarker.recordedEvents ++ state.worker.judged, ev.action = .kernelDropped ∧ ev.sourceIp = ip

theorem mem_blockedIps_evaluate (inetPton : String → Option Inet.Key) (world : World) (ev : BenchmarkEvent)
    (answers : Answers) {ip : String}
    (listed : ip ∈ (Worker.evaluate inetPton world ev answers.anomalyScore answers.tInferDone
      answers.tMitigated answers.succeeds).1.harness.blockedIps) :
    ip ∈ world.harness.blockedIps ∨
      (Worker.evaluate inetPton world ev answers.anomalyScore answers.tInferDone answers.tMitigated
        answers.succeeds).2.action = .kernelDropped ∧ ev.sourceIp = ip := by
  by_cases high : Library.SinglePrecision.ge answers.anomalyScore Worker.dropThreshold = true
  · rw [Worker.evaluate_world_of_high inetPton world ev _ _ _ _ high] at listed
    rw [Worker.evaluate_dropped_iff]
    rcases blockIp_cases inetPton world ev.sourceIp answers.succeeds with
      ⟨_, done⟩ | ⟨_, _, key, map, _, _, done⟩ | ⟨_, _, done⟩
    · rw [done] at listed
      exact Or.inl listed
    · rw [done] at listed
      rcases Finset.mem_insert.mp listed with same | before
      · exact Or.inr ⟨high, same.symm⟩
      · exact Or.inl before
    · rw [done] at listed
      exact Or.inl listed
  · rw [Worker.evaluate_world_of_low inetPton world ev _ _ _ _ (by simpa using high)] at listed
    exact Or.inl listed

theorem step_caused {world : World} {label : Label} (staged : Staged state) (caused : Caused world state)
    (taken : step host state label = some (after, obs)) : Caused world after := by
  intro ip listed
  cases step_effect staged taken with
  | unseen unseen =>
    rw [unseen.world] at listed
    rw [unseen.benchmarker, unseen.judged]
    exact caused ip listed
  | judges answers current =>
    rcases mem_blockedIps_evaluate _ _ _ _ listed with before | ⟨dropped, source⟩
    · rcases caused ip before with initially | ⟨ev, member, judged⟩
      · exact Or.inl initially
      · simp only [current, WorkerPc.judged, List.append_nil] at member
        exact Or.inr ⟨ev, List.mem_append_left _ member, judged⟩
    · exact Or.inr ⟨_, List.mem_append_right _ (List.mem_singleton.mpr rfl), dropped, source⟩
  | records current =>
    rcases caused ip listed with initially | ⟨ev, member, judged⟩
    · exact Or.inl initially
    · rw [current] at member
      exact Or.inr ⟨ev, by simpa [recordEvent, WorkerPc.judged] using member, judged⟩
  | computes current | responds current => exact caused ip listed
  | reports testDurationSeconds current => exact caused ip listed

/-- Over every interleaving of the threads: an address on the block list was on it when the
program started, or an event that was accepted from it has been judged to be dropped, and that
event is recorded or about to be. -/
theorem blocked_has_cause (host : Host) (capacity : ℕ+) (buffer : Fin capacity → BenchmarkEvent) (world : World)
    (trace : Trace capacity) (final : State capacity)
    (run : Run (machine host capacity) (initial capacity buffer world) trace final) (ip : String)
    (listed : ip ∈ final.world.harness.blockedIps) :
    ip ∈ world.harness.blockedIps ∨
      ∃ judged ∈ final.benchmarker.recordedEvents ++ final.worker.judged, judged.action = .kernelDropped ∧
        judged.sourceIp = ip ∧ ∃ ev ∈ accepted trace, untouched ev = untouched judged := by
  have caused : Caused world final := by
    refine run.history (fun trace state label obs next earlier caused taken =>
      step_caused (run_coordinated earlier).staged caused taken) ?_
    intro ip listed
    exact Or.inl listed
  rcases caused ip listed with initially | ⟨judged, member, dropped, source⟩
  · exact Or.inl initially
  · refine Or.inr ⟨judged, member, dropped, source, ?_⟩
    have taken : judged ∈ final.taken := by
      rcases List.mem_append.mp member with recorded | held
      · exact List.mem_append_left _ recorded
      · cases current : final.worker <;> simp only [current, WorkerPc.judged, List.not_mem_nil] at held
        all_goals
          apply List.mem_append_right
          rw [current]
          exact held
    have inside : untouched judged ∈ (accepted trace).map untouched := by
      rw [run_balanced run]
      exact List.mem_map_of_mem (List.mem_append_left _ taken)
    obtain ⟨ev, was_accepted, same⟩ := List.mem_map.mp inside
    exact ⟨ev, was_accepted, same⟩

/-! The filter is loaded, and the one event comes from 10.0.0.1 with score 1.0. -/

private def guarded : World :=
  ⟨{ EBPFFilterHarness.create (fun _ => 2) "ens33" with mapFd := 3, progFd := 5, bpfObj := some ⟨some 3⟩ },
    ⟨Function.update (fun _ => none) 3 (some KernelMap.empty), some 5⟩⟩

private def attacked : List Label :=
  turns .main 3 ++ turns .listener 2 ++
    [.datagram ⟨(0xC3, 0x50), ⟨10, 0, 0, 1⟩⟩
      [0x53, 0x4C, 0x41, 0x42, 0, 0, 0, 0, 0, 0, 0, 1, 0, 0, 0, 1, 0, 0, 0, 1, 0, 0, 0x80, 0x3F]] ++
    turns .listener 5 ++ turns .worker 5 ++ [.thread .worker { anomalyScore := 0x3F800000 }]

theorem blocked_has_cause_attack :
    ∃ trace final, Run (machine littleHost 65536) (initial 65536 (fun _ => {}) guarded) trace final ∧
      ∃ judged ∈ final.benchmarker.recordedEvents ++ final.worker.judged, judged.action = .kernelDropped ∧
        judged.sourceIp = Inet.dottedQuad.ntop ⟨10, 0, 0, 1⟩ ∧ ∃ ev ∈ accepted trace, untouched ev = untouched judged := by
  obtain ⟨⟨trace, final⟩, executed⟩ : ∃ result,
      (machine littleHost 65536).exec (initial 65536 (fun _ => {}) guarded) attacked = some result := ⟨_, rfl⟩
  have listed : Inet.dottedQuad.ntop ⟨10, 0, 0, 1⟩ ∈ final.world.harness.blockedIps := by
    cases executed
    apply (mem_blockIp_iff (Inet.dottedQuad.key .little) guarded (Inet.dottedQuad.ntop ⟨10, 0, 0, 1⟩) true).mpr
    simp [guarded, World.openMap]
  have caused := blocked_has_cause littleHost 65536 _ guarded trace final (Machine.exec_run executed) _ listed
  exact ⟨trace, final, Machine.exec_run executed, caused.resolve_left (Finset.notMem_empty _)⟩

end SentinelLab.Daemon
