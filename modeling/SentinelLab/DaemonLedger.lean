import SentinelLab.DaemonThreads

/-! Where the accepted events are. At every instant an event whose `push` returned true is
recorded, in the hands of the worker or still in the queue, and the worker leaves its loop on
the flag alone, whatever the queue holds. -/

namespace SentinelLab.Daemon
open Benchmark NetworkIngest Library.Transition

variable {capacity : ℕ+} {host : Host} {state after : State capacity} {answers : Answers} {obs : Obs}

abbrev Trace (capacity : ℕ+) := List (Entry (State capacity) Label Obs)

/-- The events whose `push` returned true, in the order of the returns. -/
def accepted (trace : Trace capacity) : List BenchmarkEvent := trace.filterMap fun entry => entry.obs.pushed

def untouched (ev : BenchmarkEvent) : BenchmarkEvent :=
  { ev with anomalyScore := 0, action := .passed, tInferDone := 0, tMitigated := 0, totalLatencyUs := 0 }

/-- The recorded events are the accepted ones, each as often as it was accepted. -/
def RecordedOnce (trace : Trace capacity) (state : State capacity) : Prop :=
  (state.benchmarker.recordedEvents.map untouched).Perm ((accepted trace).map untouched)

/-- The event the worker has popped and not yet recorded. -/
def WorkerPc.held : WorkerPc → List BenchmarkEvent
  | .evaluating ev | .locking ev | .recording ev => [ev]
  | _ => []

def State.taken (state : State capacity) : List BenchmarkEvent :=
  state.benchmarker.recordedEvents ++ state.worker.held

def WorkerKeeps (state : State capacity) (obs : Obs) (after : State capacity) : Prop :=
  after.taken.map untouched = (state.taken ++ obs.popped.toList).map untouched

theorem afterPop_held (obs : RingBuffer.Obs BenchmarkEvent) :
    (WorkerPc.afterPop obs).held = obs.popped.toList := by
  cases obs with
  | popReturned result => cases result <;> rfl
  | _ => rfl

theorem Access.conserves (access : Access state obs after) (consistent : RingBuffer.Consistent state.queue) :
    state.queue.queue.contents ++ obs.pushed.toList = obs.popped.toList ++ after.queue.queue.contents := by
  cases access with
  | none same pushed popped => simp [same, pushed, popped]
  | one label returned accessed seen =>
    subst seen
    exact RingBuffer.step_conserves consistent accessed

theorem WorkerKeeps.of_same (benchmarker : after.benchmarker = state.benchmarker)
    (held : after.worker.held = state.worker.held) (nothing : obs.popped = none) : WorkerKeeps state obs after := by
  simp [WorkerKeeps, State.taken, benchmarker, held, nothing]

@[simp] theorem untouched_evaluate (inetPton : String → Option Inet.Key) (world : EbpfFilter.World)
    (ev : BenchmarkEvent) (anomalyScore : Library.SinglePrecision.Binary32) (tInferDone tMitigated : Int)
    (succeeds : Bool) :
    untouched (Worker.evaluate inetPton world ev anomalyScore tInferDone tMitigated succeeds).2 = untouched ev :=
  rfl

theorem stepWorker_keeps (taken : stepWorker host state answers = some (after, obs)) :
    WorkerKeeps state obs after := by
  unfold stepWorker at taken
  cases current : state.worker <;> simp only [current] at taken
  case notStarted | exited => cases taken
  case test =>
    split at taken
    · rcases access_eq_some taken with ⟨queue, returned, accessed, rfl, rfl⟩
      rcases (RingBuffer.callPop_opens accessed).2.2 with rfl
      exact WorkerKeeps.of_same rfl (by simp [current, WorkerPc.held]) rfl
    · cases taken
      exact WorkerKeeps.of_same rfl (by simp [current, WorkerPc.held]) rfl
  case popping =>
    rcases access_eq_some taken with ⟨queue, returned, _, rfl, rfl⟩
    have free : state.worker.held = [] := by rw [current]; rfl
    simp only [WorkerKeeps, State.taken, afterPop_held, free, List.append_nil, Obs.popped]
  case evaluating ev =>
    cases taken
    simp [WorkerKeeps, State.taken, current, WorkerPc.held, Obs.popped]
  case locking ev =>
    split at taken <;> cases taken
    exact WorkerKeeps.of_same rfl (by simp [current, WorkerPc.held]) rfl
  case recording ev =>
    cases taken
    simp [WorkerKeeps, State.taken, current, recordEvent, WorkerPc.held, Obs.popped]
  case sleeping =>
    cases taken
    exact WorkerKeeps.of_same rfl (by simp [current, WorkerPc.held]) rfl

theorem stepMain_keeps (staged : Staged state) (taken : stepMain state answers = some (after, obs)) :
    WorkerKeeps state obs after := by
  have moves := stepMain_moves taken
  apply WorkerKeeps.of_same moves.benchmarker _ moves.popped
  rcases moves.worker with same | ⟨starting, started⟩
  · rw [same]
  · have unstarted : state.worker = .notStarted := staged.worker_started.mpr (by simp [starting, MainPc.stage])
    simp [started, unstarted, WorkerPc.held]

theorem step_workerKeeps {label : Label} (coordinated : Coordinated state)
    (taken : step host state label = some (after, obs)) : WorkerKeeps state obs after := by
  cases label with
  | thread thread answers =>
    cases thread with
    | main => exact stepMain_keeps coordinated.staged taken
    | worker => exact stepWorker_keeps taken
    | listener =>
      have moves := stepListener_moves taken
      exact WorkerKeeps.of_same moves.benchmarker (by rw [moves.worker]) moves.popped
    | server =>
      have moves := stepServer_moves taken
      exact WorkerKeeps.of_same moves.benchmarker (by rw [moves.worker]) moves.popped
  | scribble garbage =>
    have moves := step_scribbleMoves taken
    exact WorkerKeeps.of_same moves.benchmarker (by rw [moves.worker]) moves.popped
  | _ =>
    have moves := step_outsideMoves rfl taken
    rcases moves.silent with rfl
    exact WorkerKeeps.of_same moves.benchmarker (by rw [moves.worker]) rfl

/-! ## The whole run -/

/-- The ledger: what was accepted is what the worker took, in the same order, and then what the
queue holds. -/
def Balanced (trace : Trace capacity) (state : State capacity) : Prop :=
  (accepted trace).map untouched = (state.taken ++ state.queue.queue.contents).map untouched

theorem step_balanced {trace : Trace capacity} {label : Label} (coordinated : Coordinated state)
    (balanced : Balanced trace state) (taken : step host state label = some (after, obs)) :
    Balanced (trace ++ [⟨state, label, obs, after⟩]) after := by
  have queue : state.queue.queue.contents ++ obs.pushed.toList =
      obs.popped.toList ++ after.queue.queue.contents :=
    (step_access taken).conserves coordinated.consistent
  have worker : after.taken.map untouched = (state.taken ++ obs.popped.toList).map untouched :=
    step_workerKeeps coordinated taken
  have longer : accepted (trace ++ [⟨state, label, obs, after⟩]) = accepted trace ++ obs.pushed.toList := by
    cases pushed : obs.pushed <;> simp [accepted, pushed]
  unfold Balanced at balanced ⊢
  calc (accepted (trace ++ [⟨state, label, obs, after⟩])).map untouched
    _ = (state.taken ++ state.queue.queue.contents).map untouched ++ obs.pushed.toList.map untouched := by
      rw [longer, List.map_append, balanced]
    _ = state.taken.map untouched ++ (state.queue.queue.contents ++ obs.pushed.toList).map untouched := by
      simp only [List.map_append, List.append_assoc]
    _ = (state.taken ++ obs.popped.toList).map untouched ++ after.queue.queue.contents.map untouched := by
      simp only [queue, List.map_append, List.append_assoc]
    _ = (after.taken ++ after.queue.queue.contents).map untouched := by
      rw [← worker, List.map_append]

theorem run_balanced {buffer : Fin capacity → BenchmarkEvent} {world : EbpfFilter.World} {final : State capacity}
    {trace : Trace capacity} (run : Run (machine host capacity) (initial capacity buffer world) trace final) :
    Balanced trace final := by
  refine run.history ?_ ?_
  · intro trace state label obs next earlier balanced taken
    exact step_balanced (run_coordinated earlier) balanced taken
  · simp [Balanced, accepted, State.taken, initial, WorkerPc.held, RingBuffer.initial_contents]

/-! ## The end of the worker -/

/-- The worker does not leave its loop while the queue holds an event, and no `push` is completed
after it has left. -/
def Drains (state : State capacity) : Label → Prop
  | .thread .worker _ =>
      state.worker = .test → state.gLabRunning = false → state.queue.queue.contents = []
  | .thread .listener _ =>
      state.worker = .exited → ∀ ev nextTail, state.queue.producer ≠ .push (.storeTail ev nextTail)
  | _ => True

def AllDrain (trace : Trace capacity) : Prop := ∀ entry ∈ trace, Drains entry.before entry.label

theorem allDrain_snoc {trace : Trace capacity} {label : Label} :
    AllDrain (trace ++ [⟨state, label, obs, after⟩]) ↔ AllDrain trace ∧ Drains state label := by
  simp only [AllDrain, List.mem_append, List.mem_singleton, or_imp, forall_and, forall_eq]

theorem stepListener_pushed (calls : Calls state) (taken : stepListener host state answers = some (after, obs)) :
    obs.pushed.isSome ↔ ∃ ev nextTail, state.queue.producer = .push (.storeTail ev nextTail) := by
  by_cases pushing : state.listener = .pushing
  · simp only [stepListener, pushing] at taken
    rcases access_eq_some taken with ⟨queue, returned, accessed, rfl, rfl⟩
    exact RingBuffer.stepProducer_pushed accessed
  · have silent := (stepListener_moves taken).pushed pushing
    simp [silent, calls.idle pushing]

theorem stepWorker_exits (taken : stepWorker host state answers = some (after, obs)) :
    after.worker = .exited ↔ state.worker = .test ∧ state.gLabRunning = false := by
  unfold stepWorker at taken
  cases current : state.worker <;> simp only [current] at taken
  case notStarted | exited => cases taken
  case test =>
    split at taken
    next running =>
      rcases access_eq_some taken with ⟨_, _, _, rfl, rfl⟩
      simp [running]
    next stopped =>
      cases taken
      simp [stopped]
  case popping =>
    rcases access_eq_some taken with ⟨_, returned, _, rfl, rfl⟩
    simp only [WorkerPc.afterPop, reduceCtorEq, false_and, iff_false]
    split <;> simp
  case locking ev =>
    split at taken <;> cases taken
    simp
  all_goals
    cases taken
    simp

theorem stepWorker_exit_queue (taken : stepWorker host state answers = some (after, obs))
    (leaving : state.worker = .test ∧ state.gLabRunning = false) : after.queue = state.queue := by
  simp only [stepWorker, leaving.1, leaving.2, Bool.false_eq_true, if_false] at taken
  cases taken
  rfl

theorem still_running {label : Label} (running : state.worker ≠ .exited) (same : after.worker = state.worker)
    (drains : Drains state label) :
    (after.worker ≠ .exited → Drains state label) ∧
      (after.worker = .exited → (after.queue.queue.contents = [] ↔ Drains state label)) := by
  constructor
  · intro _
    exact drains
  · intro ended
    exact absurd (same ▸ ended) running

theorem step_while_running {label : Label} (running : state.worker ≠ .exited)
    (taken : step host state label = some (after, obs)) :
    (after.worker ≠ .exited → Drains state label) ∧
      (after.worker = .exited → (after.queue.queue.contents = [] ↔ Drains state label)) := by
  cases label with
  | thread thread answers =>
    cases thread with
    | main =>
      rcases (stepMain_moves taken).worker with same | ⟨_, started⟩
      · exact still_running running same trivial
      · simp [started, Drains]
    | worker =>
      have exits := stepWorker_exits taken
      constructor
      · intro stays atTest stopped
        exact absurd (exits.mpr ⟨atTest, stopped⟩) stays
      · intro ended
        have leaving := exits.mp ended
        simp [Drains, leaving, stepWorker_exit_queue taken leaving]
    | listener =>
      apply still_running running (stepListener_moves taken).worker
      intro exited
      exact absurd exited running
    | server => exact still_running running (stepServer_moves taken).worker trivial
  | scribble garbage => exact still_running running (step_scribbleMoves taken).worker trivial
  | _ => exact still_running running (step_outsideMoves rfl taken).worker trivial

theorem step_after_exit {label : Label} (coordinated : Coordinated state) (exited : state.worker = .exited)
    (taken : step host state label = some (after, obs)) :
    after.worker = .exited ∧ obs.popped = none ∧ (obs.pushed = none ↔ Drains state label) := by
  cases label with
  | thread thread answers =>
    cases thread with
    | main =>
      have moves := stepMain_moves taken
      refine ⟨?_, moves.popped, by simp [moves.pushed, Drains]⟩
      rcases moves.worker with same | ⟨starting, _⟩
      · exact same.trans exited
      · have unstarted : state.worker = .notStarted :=
          coordinated.staged.worker_started.mpr (by simp [starting, MainPc.stage])
        rw [exited] at unstarted
        cases unstarted
    | worker => exact absurd exited (stepWorker_moves taken).running.2
    | listener =>
      have moves := stepListener_moves taken
      refine ⟨moves.worker.trans exited, moves.popped, ?_⟩
      have completes := stepListener_pushed coordinated.calls taken
      rw [← Option.not_isSome_iff_eq_none, completes]
      simp [Drains, exited]
    | server =>
      have moves := stepServer_moves taken
      exact ⟨moves.worker.trans exited, moves.popped, by simp [moves.pushed, Drains]⟩
  | scribble garbage =>
    have moves := step_scribbleMoves taken
    exact ⟨moves.worker.trans exited, moves.popped, by simp [moves.pushed, Drains]⟩
  | _ =>
    have moves := step_outsideMoves rfl taken
    rcases moves.silent with rfl
    exact ⟨moves.worker.trans exited, rfl, by simp [Drains, Obs.pushed]⟩

/-- Up to the exit of the worker every step is good; from then on the queue tells whether all were. -/
def Settled (trace : Trace capacity) (state : State capacity) : Prop :=
  (state.worker ≠ .exited → AllDrain trace) ∧
    (state.worker = .exited → (state.queue.queue.contents = [] ↔ AllDrain trace))

theorem step_settled {trace : Trace capacity} {label : Label} (coordinated : Coordinated state)
    (settled : Settled trace state) (taken : step host state label = some (after, obs)) :
    Settled (trace ++ [⟨state, label, obs, after⟩]) after := by
  unfold Settled
  rw [allDrain_snoc]
  by_cases exited : state.worker = .exited
  · rcases step_after_exit coordinated exited taken with ⟨still, popped, completes⟩
    have conserved := (step_access taken).conserves coordinated.consistent
    have before := settled.2 exited
    constructor
    · intro running
      exact absurd still running
    · intro _
      rw [← before, ← completes]
      simp only [popped, Option.toList_none, List.nil_append] at conserved
      rw [← conserved, List.append_eq_nil_iff, Option.toList_eq_nil_iff]
  · have before := settled.1 exited
    rcases step_while_running exited taken with ⟨stays, leaves⟩
    constructor
    · intro running
      exact ⟨before, stays running⟩
    · intro ended
      rw [leaves ended]
      simp [before]

theorem run_settled {buffer : Fin capacity → BenchmarkEvent} {world : EbpfFilter.World} {final : State capacity}
    {trace : Trace capacity} (run : Run (machine host capacity) (initial capacity buffer world) trace final) :
    Settled trace final := by
  refine run.history ?_ ?_
  · intro trace state label obs next earlier settled taken
    exact step_settled (run_coordinated earlier) settled taken
  · simp [Settled, AllDrain, initial]

theorem recordedOnce_iff_empty {trace : Trace capacity} (balanced : Balanced trace state)
    (free : state.worker.held = []) : RecordedOnce trace state ↔ state.queue.queue.contents = [] := by
  simp only [Balanced, State.taken, free, List.append_nil] at balanced
  unfold RecordedOnce
  rw [balanced]
  constructor
  · intro same
    have lengths := same.length_eq
    simp only [List.length_map, List.length_append] at lengths
    exact List.eq_nil_of_length_eq_zero (by omega)
  · intro empty
    rw [empty, List.append_nil]

/-- Over every run of the four threads that comes to the final report: the accepted events are
recorded, each exactly once, if and only if the worker found the queue empty when it saw the
cleared flag and no `push` was completed later. -/
theorem recorded_once_iff_drained (host : Host) (capacity : ℕ+) (buffer : Fin capacity → BenchmarkEvent)
    (world : EbpfFilter.World) (trace : Trace capacity) (final : State capacity)
    (run : Run (machine host capacity) (initial capacity buffer world) trace final)
    (reporting : final.main = .report) :
    RecordedOnce trace final ↔ ∀ entry ∈ trace, Drains entry.before entry.label := by
  have coordinated := run_coordinated run
  have exited : final.worker = .exited := coordinated.staged.worker_joined (by simp [reporting, MainPc.stage])
  rw [recordedOnce_iff_empty (run_balanced run) (by simp [exited, WorkerPc.held])]
  exact (run_settled run).2 exited

/-! A benign event with one feature arrives; it is popped or not before the signal comes. -/

private def event : Label :=
  .datagram ⟨(0xC3, 0x50), ⟨10, 0, 0, 1⟩⟩
    [0x53, 0x4C, 0x41, 0x42, 0, 0, 0, 0, 0, 0, 0, 1, 0, 0, 0, 0, 0, 0, 0, 1, 0, 0, 0x80, 0x3F]

private def accept : List Label :=
  turns .main 3 ++ turns .server 2 ++ turns .listener 2 ++ [event] ++ turns .listener 5

private def shutdown : List Label :=
  [.signal] ++ turns .worker 1 ++ turns .main 2 ++ turns .listener 1 ++ turns .main 2 ++ [.connection] ++
    turns .server 6 ++ turns .main 2

theorem recorded_once_iff_drained_one :
    ∃ trace final, (machine littleHost 65536).exec launched (accept ++ turns .worker 8 ++ shutdown) = some (trace, final) ∧
      (accepted trace).length = 1 ∧ RecordedOnce trace final ∧ AllDrain trace := by
  obtain ⟨⟨trace, final⟩, executed⟩ : ∃ result,
      (machine littleHost 65536).exec launched (accept ++ turns .worker 8 ++ shutdown) = some result := ⟨_, rfl⟩
  have ends : final.main = .report ∧ (accepted trace).length = 1 ∧ RecordedOnce trace final := by
    cases executed
    exact ⟨rfl, rfl, List.Perm.of_eq rfl⟩
  have drained := recorded_once_iff_drained littleHost 65536 _ _ trace final (Machine.exec_run executed) ends.1
  exact ⟨trace, final, executed, ends.2.1, ends.2.2, drained.mp ends.2.2⟩

/-- The worker sees the cleared flag before the event, and the report misses it. -/
theorem accepted_event_lost :
    ∃ trace final, Run (machine littleHost 65536) launched trace final ∧ final.main = .report ∧
      ¬RecordedOnce trace final := by
  obtain ⟨⟨trace, final⟩, executed⟩ : ∃ result,
      (machine littleHost 65536).exec launched (accept ++ shutdown) = some result := ⟨_, rfl⟩
  refine ⟨trace, final, Machine.exec_run executed, ?_⟩
  cases executed
  exact ⟨rfl, fun same => absurd same.length_eq Nat.zero_ne_one⟩

end SentinelLab.Daemon
