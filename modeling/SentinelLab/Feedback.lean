import SentinelLab.NetworkIngest
import SentinelLab.Worker
import SentinelLab.XdpFilter

/-! A dataset sent frame by frame from one address through the whole testbed: XDP filter, ingest
socket, queue, worker, benchmarker. The worker blocks the source of an event with a high score,
and from then on the filter decides which of the later frames are seen at all. -/

namespace SentinelLab.Feedback
open Inet EbpfFilter Benchmark NetworkIngest XdpFilter Worker
open Library.Transition Library.Bytes Library.SinglePrecision

/-- What is fixed during a run. `deliver` is the network stack between the filter and the socket,
`predictAnomaly` the model. -/
structure Testbed where
  codec : Codec
  host : Endian
  deliver : List Byte → Option (SockaddrIn × List Byte)
  predictAnomaly : List Binary32 → Binary32

/-- The queue is a list, as which the ring buffer behaves for one producer and one consumer. -/
structure State where
  world : World
  toSend : List (List Byte)
  socket : List (SockaddrIn × List Byte) := []
  queue : List BenchmarkEvent := []
  evaluated : Option BenchmarkEvent := none
  benchmarker : Benchmarker := {}

inductive Label where
  | arrive
  | listen (now : Int)
  | evaluate (tInferDone tMitigated : Int)
  | record
  deriving DecidableEq, Repr

variable (testbed : Testbed)

def stepArrive (state : State) : Option State :=
  match state.toSend with
  | [] => none
  | frame :: toSend =>
      (receive testbed.host state.world frame).map fun (world, action) =>
        match action with
        | .pass => { state with world, toSend, socket := state.socket ++ (testbed.deliver frame).toList }
        | .drop => { state with world, toSend }

def stepListen (state : State) (now : Int) : Option State :=
  match state.socket with
  | [] => none
  | (clientAddr, datagram) :: socket =>
      (ingest testbed.host testbed.codec.ntop now clientAddr datagram).map fun offered =>
        { state with socket, queue := state.queue ++ offered.toList }

def stepEvaluate (state : State) (tInferDone tMitigated : Int) : Option State :=
  match state.queue, state.evaluated with
  | ev :: queue, none =>
      let evaluated := evaluate (testbed.codec.key testbed.host) state.world ev
        (testbed.predictAnomaly ev.features) tInferDone tMitigated true
      some { state with world := evaluated.1, queue, evaluated := some evaluated.2 }
  | _, _ => none

def stepRecord (state : State) : Option State :=
  state.evaluated.map fun ev =>
    { state with evaluated := none, benchmarker := recordEvent state.benchmarker ev }

def step (state : State) : Label → Option State
  | .arrive => stepArrive testbed state
  | .listen now => stepListen testbed state now
  | .evaluate tInferDone tMitigated => stepEvaluate testbed state tInferDone tMitigated
  | .record => stepRecord state

def machine : Machine State Label Unit := ⟨fun state label => (step testbed state label).map (·, ())⟩

/-- Everything sent has been seen, and everything queued has been recorded. -/
def Complete (state : State) : Prop :=
  state.toSend = [] ∧ state.socket = [] ∧ state.queue = [] ∧ state.evaluated = none

/-- The harness of `main` after every call of `load_and_attach` succeeded. -/
def Attached (world : World) : Prop :=
  ∃ ifNametoindex kernel progFd fd, loadAndAttach ⟨EBPFFilterHarness.create ifNametoindex "ens33", kernel⟩
    (.loaded progFd (some fd) true) = some (world, true)

/-! ## What a frame stands for -/

def timeless (ev : BenchmarkEvent) : BenchmarkEvent :=
  { ev with tIngest := 0, tInferDone := 0, tMitigated := 0, totalLatencyUs := 0 }

def readDatagram (datagram : SockaddrIn × List Byte) : Option BenchmarkEvent :=
  (ingest testbed.host testbed.codec.ntop 0 datagram.1 datagram.2).join.map timeless

def eventOf (frame : List Byte) : Option BenchmarkEvent :=
  (testbed.deliver frame).bind (readDatagram testbed)

def judge (ev : BenchmarkEvent) : BenchmarkEvent :=
  { ev with
    anomalyScore := testbed.predictAnomaly ev.features
    action := actionFor (testbed.predictAnomaly ev.features) }

def judged (frame : List Byte) : Option BenchmarkEvent := (eventOf testbed frame).map (judge testbed)

/-- The frame's score makes the worker block its source. -/
def Hot (frame : List Byte) : Prop :=
  ∃ ev, eventOf testbed frame = some ev ∧ ge (testbed.predictAnomaly ev.features) dropThreshold = true

/-- An IPv4 frame from `source` whose datagram the listener accepts. -/
structure WellFormed (source : InAddr) (frame : List Byte) : Prop where
  ipv4 : IsIpv4 frame
  address : sourceAddr frame = source
  delivered : ∃ clientAddr datagram ev, testbed.deliver frame = some (clientAddr, datagram) ∧
    clientAddr.sinAddr = source ∧ ingest testbed.host testbed.codec.ntop 0 clientAddr datagram = some (some ev)

/-- The recorded events are those of the first `count` frames, each once and in the order of
sending; no frame is missing before the first hot one is through. -/
def RecordsPrefix (frames : List (List Byte)) (state : State) : Prop :=
  ∃ count ≤ frames.length,
    state.benchmarker.recordedEvents.map (fun ev => some (timeless ev)) =
      (frames.take count).map (judged testbed) ∧
    ∀ index < frames.length, (∀ earlier ∈ frames.take index, ¬Hot testbed earlier) → index < count

/-! ## The invariant -/

def inFlight (state : State) : List (Option BenchmarkEvent) :=
  state.benchmarker.recordedEvents.map (fun ev => some (timeless ev)) ++
    state.evaluated.toList.map (fun ev => some (timeless ev)) ++
    state.queue.map (fun ev => some (judge testbed (timeless ev))) ++
    state.socket.map (fun datagram => (readDatagram testbed datagram).map (judge testbed))

/-- A frame passed exactly if it came before the block of the source, and that block is owed to a
frame that passed. -/
structure Flow (source : InAddr) (frames : List (List Byte)) (state : State) : Prop where
  installed : Installed testbed.codec testbed.host state.world
  paired : state.benchmarker.Paired
  passed : ∃ passed rest, frames = passed ++ rest ∧ inFlight testbed state = passed.map (judged testbed) ∧
    ((testbed.codec.ntop source ∉ state.world.harness.blockedIps ∧ rest = state.toSend) ∨
      (testbed.codec.ntop source ∈ state.world.harness.blockedIps ∧ state.toSend <:+ rest ∧
        ∃ frame ∈ passed, Hot testbed frame))

variable {testbed} {source : InAddr} {frames : List (List Byte)} {state next : State}

theorem WellFormed.eventOf_eq {frame : List Byte} (wellFormed : WellFormed testbed source frame) :
    ∃ clientAddr datagram ev, testbed.deliver frame = some (clientAddr, datagram) ∧
      eventOf testbed frame = some ev ∧ ev.sourceIp = testbed.codec.ntop source := by
  obtain ⟨clientAddr, datagram, ev, delivered, from_source, parsed⟩ := wellFormed.delivered
  refine ⟨clientAddr, datagram, timeless ev, delivered, ?_, ?_⟩
  · simp [eventOf, delivered, readDatagram, parsed]
  · rw [← from_source]
    change ev.sourceIp = _
    exact parse_sourceIp parsed

theorem origin {passed : List (List Byte)} {ev : BenchmarkEvent}
    (wellFormed : ∀ frame ∈ passed, WellFormed testbed source frame)
    (same : inFlight testbed state = passed.map (judged testbed))
    (member : some (judge testbed ev) ∈ inFlight testbed state) :
    ev.sourceIp = testbed.codec.ntop source ∧
      (ge (testbed.predictAnomaly ev.features) dropThreshold = true → ∃ frame ∈ passed, Hot testbed frame) := by
  rw [same] at member
  obtain ⟨frame, inside, judged_eq⟩ := List.mem_map.mp member
  obtain ⟨_, _, original, _, event, address⟩ := (wellFormed frame inside).eventOf_eq
  simp only [judged, event, Option.map_some, Option.some.injEq] at judged_eq
  have features := congrArg BenchmarkEvent.features judged_eq
  have addresses := congrArg BenchmarkEvent.sourceIp judged_eq
  change original.features = ev.features at features
  change original.sourceIp = ev.sourceIp at addresses
  refine ⟨addresses ▸ address, ?_⟩
  intro high
  exact ⟨frame, inside, original, event, features ▸ high⟩

theorem timeless_evaluate (inetPton : String → Option Key) (world : World) (ev : BenchmarkEvent)
    (tInferDone tMitigated : Int) (succeeds : Bool) :
    timeless (evaluate inetPton world ev (testbed.predictAnomaly ev.features) tInferDone tMitigated succeeds).2 =
      judge testbed (timeless ev) := by
  have action := evaluate_action inetPton world ev (testbed.predictAnomaly ev.features) tInferDone tMitigated
    succeeds
  simp only [judge, timeless, ← action]
  rfl

theorem stepArrive_flow (wellFormed : ∀ frame ∈ frames, WellFormed testbed source frame)
    (flow : Flow testbed source frames state) (taken : stepArrive testbed state = some next) :
    Flow testbed source frames next := by
  unfold stepArrive at taken
  split at taken
  · cases taken
  next frame toSend sending =>
    obtain ⟨passed, rest, rfl, same, phase⟩ := flow.passed
    obtain ⟨map, action, received, dropped_iff⟩ := receive_spec flow.installed frame
    have installed := receive_installed flow.installed received
    rw [received, Option.map_some, Option.some.injEq] at taken
    rcases phase with ⟨unlisted, rfl⟩ | ⟨listed, later, hot⟩
    · have frameFormed := wellFormed frame (by simp [sending])
      have pass : action = .pass := by
        cases action with
        | pass => rfl
        | drop =>
          have listed := (dropped_iff.mp rfl).2
          rw [frameFormed.address] at listed
          exact absurd listed unlisted
      obtain ⟨clientAddr, datagram, ev, delivered, _, _⟩ := frameFormed.eventOf_eq
      subst pass
      subst taken
      refine ⟨installed, flow.paired, passed ++ [frame], toSend, by simp [sending], ?_, Or.inl ⟨unlisted, rfl⟩⟩
      rw [List.map_append, ← same]
      simp [inFlight, delivered, judged, eventOf]
    · have inside : frame ∈ rest := later.subset (by simp [sending])
      have frameFormed := wellFormed frame (List.mem_append_right passed inside)
      have drop : action = .drop := dropped_iff.mpr ⟨frameFormed.ipv4, frameFormed.address ▸ listed⟩
      subst drop
      subst taken
      have shorter : toSend <:+ rest := (List.suffix_cons frame toSend).trans (sending ▸ later)
      exact ⟨installed, flow.paired, passed, rest, rfl, same, Or.inr ⟨listed, shorter, hot⟩⟩

theorem stepListen_flow (wellFormed : ∀ frame ∈ frames, WellFormed testbed source frame)
    (flow : Flow testbed source frames state) {now : Int} (taken : stepListen testbed state now = some next) :
    Flow testbed source frames next := by
  unfold stepListen at taken
  split at taken
  · cases taken
  next clientAddr datagram socket waiting =>
    obtain ⟨passed, rest, rfl, same, phase⟩ := flow.passed
    have member : (readDatagram testbed (clientAddr, datagram)).map (judge testbed) ∈
        inFlight testbed state := by simp [inFlight, waiting]
    rw [same] at member
    obtain ⟨frame, inside, judged_eq⟩ := List.mem_map.mp member
    obtain ⟨_, _, original, _, event, _⟩ :=
      (wellFormed frame (List.mem_append_left rest inside)).eventOf_eq
    have accepted : ∃ ev, ingest testbed.host testbed.codec.ntop 0 clientAddr datagram = some (some ev) := by
      cases parsed : (ingest testbed.host testbed.codec.ntop 0 clientAddr datagram).join with
      | none => simp [judged, event, readDatagram, parsed] at judged_eq
      | some ev => exact ⟨ev, Option.join_eq_some_iff.mp parsed⟩
    obtain ⟨ev, parsed⟩ := accepted
    rw [ingest_now now, parsed] at taken
    simp only [Option.map_some, Option.toList_some, Option.some.injEq] at taken
    subst taken
    refine ⟨flow.installed, flow.paired, passed, rest, rfl, ?_, phase⟩
    rw [← same]
    simp [inFlight, waiting, readDatagram, parsed, timeless]

theorem stepEvaluate_flow (wellFormed : ∀ frame ∈ frames, WellFormed testbed source frame)
    (flow : Flow testbed source frames state) {tInferDone tMitigated : Int}
    (taken : stepEvaluate testbed state tInferDone tMitigated = some next) :
    Flow testbed source frames next := by
  unfold stepEvaluate at taken
  split at taken
  next ev queue queued idle =>
    obtain ⟨passed, rest, rfl, same, phase⟩ := flow.passed
    have member : some (judge testbed (timeless ev)) ∈ inFlight testbed state := by simp [inFlight, queued]
    obtain ⟨address, hot_of_high⟩ := origin (fun frame inside => wellFormed frame (List.mem_append_left rest inside))
      same member
    change ev.sourceIp = _ at address
    have moved : ∀ world, inFlight testbed { state with
        world, queue, evaluated := some (evaluate (testbed.codec.key testbed.host) state.world ev
          (testbed.predictAnomaly ev.features) tInferDone tMitigated true).2 } = passed.map (judged testbed) := by
      intro world
      rw [← same]
      simp [inFlight, queued, idle, timeless_evaluate]
    simp only [Option.some.injEq] at taken
    by_cases high : ge (testbed.predictAnomaly ev.features) dropThreshold = true
    · rw [evaluate_world_of_high _ _ _ _ _ _ _ high] at taken
      have installed := blockIp_installed flow.installed ⟨ev.sourceIp, source, address.symm⟩
      have listed : testbed.codec.ntop source ∈
          (blockIp (testbed.codec.key testbed.host) state.world ev.sourceIp true).1.harness.blockedIps := by
        obtain ⟨map, isOpen, _⟩ := flow.installed.listed
        rw [address, mem_blockIp_iff]
        exact Or.inr ⟨by simp, by simp [isOpen], rfl⟩
      have later : state.toSend <:+ rest := by
        rcases phase with ⟨_, all_left⟩ | ⟨_, later, _⟩
        · rw [all_left]
        · exact later
      subst taken
      exact ⟨installed, flow.paired, passed, rest, rfl, moved _, Or.inr ⟨listed, later, hot_of_high high⟩⟩
    · rw [evaluate_world_of_low _ _ _ _ _ _ _ (by simpa using high)] at taken
      subst taken
      exact ⟨flow.installed, flow.paired, passed, rest, rfl, moved _, phase⟩
  · cases taken

theorem stepRecord_flow (flow : Flow testbed source frames state) (taken : stepRecord state = some next) :
    Flow testbed source frames next := by
  obtain ⟨ev, evaluated, rfl⟩ := Option.map_eq_some_iff.mp taken
  obtain ⟨passed, rest, rfl, same, phase⟩ := flow.passed
  refine ⟨flow.installed, flow.paired.recordEvent ev, passed, rest, rfl, ?_, phase⟩
  rw [← same]
  simp [inFlight, evaluated, recordEvent]

theorem step_flow (wellFormed : ∀ frame ∈ frames, WellFormed testbed source frame) (state : State)
    (label : Label) (obs : Unit) (next : State) (flow : Flow testbed source frames state)
    (taken : (machine testbed).step state label = some (next, obs)) : Flow testbed source frames next := by
  obtain ⟨after, stepped, same⟩ := Option.map_eq_some_iff.mp taken
  cases same
  cases label with
  | arrive => exact stepArrive_flow wellFormed flow stepped
  | listen now => exact stepListen_flow wellFormed flow stepped
  | evaluate tInferDone tMitigated => exact stepEvaluate_flow wellFormed flow stepped
  | record => exact stepRecord_flow flow stepped

theorem initial_flow {world : World} (attached : Attached world) :
    Flow testbed source frames { world, toSend := frames } := by
  obtain ⟨ifNametoindex, kernel, progFd, fd, loaded⟩ := attached
  have unlisted := (loadAndAttach_blockedIps loaded).trans (create_blockedIps ifNametoindex "ens33")
  exact ⟨loadAndAttach_installed (create_blockedIps ifNametoindex "ens33") loaded, rfl, [], frames, rfl, rfl,
    Or.inl ⟨by simp [unlisted], rfl⟩⟩

theorem Flow.recordsPrefix (flow : Flow testbed source frames state) (complete : Complete state) :
    RecordsPrefix testbed frames state := by
  obtain ⟨passed, rest, rfl, same, phase⟩ := flow.passed
  obtain ⟨sent, received, evaluated, recorded⟩ := complete
  refine ⟨passed.length, by simp, ?_, ?_⟩
  · rw [List.take_left, ← same]
    simp [inFlight, received, evaluated, recorded]
  · intro index inside cold
    rcases phase with ⟨_, all_left⟩ | ⟨_, _, frame, through, hot⟩
    · simpa [all_left, sent] using inside
    · by_contra missing
      have reached : passed <+: (passed ++ rest).take index := by
        rw [List.take_append]
        have whole : passed.take index = passed := List.take_of_length_le (Nat.le_of_not_lt missing)
        rw [whole]
        exact List.prefix_append _ _
      exact cold frame (reached.subset through) hot

/-! ## Two orders -/

theorem matrixOf_timeless (events : List BenchmarkEvent) : matrixOf (events.map timeless) = matrixOf events := by
  have same (label : Int) (dropped : Bool) : cell (events.map timeless) label dropped = cell events label dropped := by
    unfold cell
    rw [List.countP_map]
    rfl
  simp only [matrixOf, same]

theorem matrixOf_perm {events events' : List BenchmarkEvent} (reordered : events.Perm events') :
    matrixOf events = matrixOf events' := by
  simp only [matrixOf, cell, reordered.countP_eq]

theorem RecordsPrefix.all_recorded (recorded : RecordsPrefix testbed frames state)
    (cold : ∀ frame ∈ frames, ¬Hot testbed frame) :
    state.benchmarker.recordedEvents.map (fun ev => some (timeless ev)) = frames.map (judged testbed) := by
  obtain ⟨count, bound, same, reaches⟩ := recorded
  have whole : count = frames.length := by
    by_contra short
    have inside : count < frames.length := by omega
    exact absurd (reaches count inside fun frame member => cold frame (List.mem_of_mem_take member))
      (Nat.lt_irrefl count)
  rw [same, whole, List.take_length]

theorem matrixOf_recorded (same : state.benchmarker.recordedEvents.map (fun ev => some (timeless ev)) =
    frames.map (judged testbed)) :
    matrixOf state.benchmarker.recordedEvents = matrixOf (frames.filterMap (judged testbed)) := by
  have events : state.benchmarker.recordedEvents.map timeless = frames.filterMap (judged testbed) := by
    have dropped := congrArg (List.filterMap id) same
    simpa [List.filterMap_map, Function.comp_def] using dropped
  rw [← matrixOf_timeless, events]

/-- What survives of order independence: every complete run records the events of an initial
part of its frames, up to the first hot one at least; so without hot frames every frame is
recorded exactly once, and the matrix is the same for any two orders and interleavings. -/
theorem confusionMatrix_order_independent (testbed : Testbed) (source : InAddr) (world world' : World)
    (attached : Attached world) (attached' : Attached world') (frames frames' : List (List Byte))
    (reordered : frames.Perm frames') (wellFormed : ∀ frame ∈ frames, WellFormed testbed source frame)
    (trace trace' : List (Entry State Label Unit)) (final final' : State)
    (run : Run (machine testbed) { world, toSend := frames } trace final)
    (run' : Run (machine testbed) { world := world', toSend := frames' } trace' final')
    (complete : Complete final) (complete' : Complete final') :
    RecordsPrefix testbed frames final ∧ RecordsPrefix testbed frames' final' ∧
      ((∀ frame ∈ frames, ¬Hot testbed frame) →
        final.benchmarker.recordedEvents.map (fun ev => some (timeless ev)) = frames.map (judged testbed) ∧
        final'.benchmarker.recordedEvents.map (fun ev => some (timeless ev)) = frames'.map (judged testbed) ∧
        ∀ testDurationSeconds testDurationSeconds' : ℚ,
          (computeMetrics final.benchmarker testDurationSeconds).confusionMatrix =
            (computeMetrics final'.benchmarker testDurationSeconds').confusionMatrix) := by
  have wellFormed' : ∀ frame ∈ frames', WellFormed testbed source frame :=
    fun frame member => wellFormed frame (reordered.mem_iff.mpr member)
  have flow := run.invariant (Flow testbed source frames) (step_flow wellFormed) (initial_flow attached)
  have flow' := run'.invariant (Flow testbed source frames') (step_flow wellFormed') (initial_flow attached')
  have recorded := flow.recordsPrefix complete
  have recorded' := flow'.recordsPrefix complete'
  refine ⟨recorded, recorded', ?_⟩
  intro cold
  have all := recorded.all_recorded cold
  have all' := recorded'.all_recorded fun frame member => cold frame (reordered.mem_iff.mpr member)
  refine ⟨all, all', ?_⟩
  intro testDurationSeconds testDurationSeconds'
  calc
    (computeMetrics final.benchmarker testDurationSeconds).confusionMatrix =
        matrixOf (frames.filterMap (judged testbed)) := by
      rw [computeMetrics_confusionMatrix flow.paired, matrixOf_recorded all]
    _ = matrixOf (frames'.filterMap (judged testbed)) := matrixOf_perm (reordered.filterMap _)
    _ = (computeMetrics final'.benchmarker testDurationSeconds').confusionMatrix := by
      rw [computeMetrics_confusionMatrix flow'.paired, matrixOf_recorded all']

/-! ## A testbed -/

private def udp (frame : List Byte) : Option (SockaddrIn × List Byte) :=
  if 42 ≤ frame.length then
    some (⟨(frame.getD 34 0, frame.getD 35 0), sourceAddr frame⟩, frame.drop 42)
  else none

/-- The score of the model is the first feature. -/
private def firstFeature : Testbed := ⟨dottedQuad, .little, udp, fun features => features.headD 0⟩

private def slabFrame (label : Byte) (score : List Byte) : List Byte :=
  List.replicate 12 0 ++ [0x08, 0x00] ++ List.replicate 12 0 ++ [10, 0, 0, 1] ++ List.replicate 12 0 ++
    slab ++ List.replicate 8 0 ++ [0, 0, 0, label] ++ [0, 0, 0, 1] ++ score

private def caught : List Byte := slabFrame 1 [0x00, 0x00, 0x80, 0x3F]
private def missed : List Byte := slabFrame 1 [0x00, 0x00, 0x00, 0x00]
private def benign : List Byte := slabFrame 0 [0x00, 0x00, 0x00, 0x00]

private def loaded : World :=
  ⟨⟨"ens33", 2, 3, 5, some ⟨some 3⟩, ∅⟩, ⟨Function.update (fun _ => none) 3 (some KernelMap.empty), some 5⟩⟩

private theorem loaded_attached : Attached loaded := ⟨fun _ => 2, ⟨fun _ => none, none⟩, 5, 3, rfl⟩

private theorem slabFrame_wellFormed :
    ∀ frame ∈ [caught, missed, benign], WellFormed firstFeature ⟨10, 0, 0, 1⟩ frame := by
  intro frame member
  simp only [List.mem_cons, List.not_mem_nil, or_false] at member
  rcases member with rfl | rfl | rfl <;>
    exact ⟨⟨by decide, rfl, rfl⟩, rfl, _, _, _, rfl, rfl, rfl⟩

private theorem benign_missed_cold : ∀ frame ∈ [benign, missed], ¬Hot firstFeature frame := by
  intro frame member hot
  simp only [List.mem_cons, List.not_mem_nil, or_false] at member
  obtain ⟨ev, event, high⟩ := hot
  rcases member with rfl | rfl <;> cases event <;> exact absurd high (by decide)

set_option maxRecDepth 4000 in
theorem confusionMatrix_order_independent_cold :
    ∃ trace final trace' final', Run (machine firstFeature) { world := loaded, toSend := [benign, missed] } trace final ∧
      Run (machine firstFeature) { world := loaded, toSend := [missed, benign] } trace' final' ∧
      Complete final ∧ Complete final' ∧
      (computeMetrics final.benchmarker 1).confusionMatrix = (computeMetrics final'.benchmarker 1).confusionMatrix := by
  obtain ⟨⟨trace, final⟩, executed, complete⟩ : ∃ result, (machine firstFeature).exec
      { world := loaded, toSend := [benign, missed] } [.arrive, .arrive, .listen 0, .listen 0, .evaluate 0 0,
        .record, .evaluate 0 0, .record] = some result ∧ Complete result.2 := ⟨_, rfl, rfl, rfl, rfl, rfl⟩
  obtain ⟨⟨trace', final'⟩, executed', complete'⟩ : ∃ result, (machine firstFeature).exec
      { world := loaded, toSend := [missed, benign] } [.arrive, .listen 0, .arrive, .evaluate 0 0, .listen 0,
        .record, .evaluate 0 0, .record] = some result ∧ Complete result.2 := ⟨_, rfl, rfl, rfl, rfl, rfl⟩
  have run := Machine.exec_run executed
  have run' := Machine.exec_run executed'
  have independent := confusionMatrix_order_independent firstFeature ⟨10, 0, 0, 1⟩ loaded loaded loaded_attached
    loaded_attached [benign, missed] [missed, benign] (List.Perm.swap _ _ _)
    (fun frame member => slabFrame_wellFormed frame (by simp only [List.mem_cons] at member ⊢; tauto))
    trace trace' final final' run run' complete complete'
  exact ⟨trace, final, trace', final', run, run', complete, complete',
    (independent.2.2 benign_missed_cold).2.2 1 1⟩

set_option maxRecDepth 4000 in
/-- One caught attack and one benign frame: sent in this order, the benign frame is never seen. -/
theorem confusionMatrix_depends_on_order :
    Attached loaded ∧ (∀ frame ∈ [caught, benign], WellFormed firstFeature ⟨10, 0, 0, 1⟩ frame) ∧
    ∃ trace final trace' final', Run (machine firstFeature) { world := loaded, toSend := [caught, benign] } trace final ∧
      Run (machine firstFeature) { world := loaded, toSend := [benign, caught] } trace' final' ∧
      Complete final ∧ Complete final' ∧
      (computeMetrics final.benchmarker 1).confusionMatrix ≠ (computeMetrics final'.benchmarker 1).confusionMatrix := by
  obtain ⟨⟨trace, final⟩, executed, complete, paired, matrix⟩ : ∃ result, (machine firstFeature).exec
      { world := loaded, toSend := [caught, benign] } [.arrive, .listen 0, .evaluate 0 0, .record, .arrive] =
        some result ∧ Complete result.2 ∧ result.2.benchmarker.Paired ∧
        matrixOf result.2.benchmarker.recordedEvents = ⟨1, 0, 0, 0⟩ :=
    ⟨_, rfl, ⟨rfl, rfl, rfl, rfl⟩, rfl, rfl⟩
  obtain ⟨⟨trace', final'⟩, executed', complete', paired', matrix'⟩ : ∃ result, (machine firstFeature).exec
      { world := loaded, toSend := [benign, caught] } [.arrive, .listen 0, .evaluate 0 0, .record, .arrive,
        .listen 0, .evaluate 0 0, .record] = some result ∧ Complete result.2 ∧ result.2.benchmarker.Paired ∧
        matrixOf result.2.benchmarker.recordedEvents = ⟨1, 0, 1, 0⟩ :=
    ⟨_, rfl, ⟨rfl, rfl, rfl, rfl⟩, rfl, rfl⟩
  refine ⟨loaded_attached, fun frame member => slabFrame_wellFormed frame (by simp only [List.mem_cons] at member ⊢; tauto),
    trace, final, trace', final', Machine.exec_run executed, Machine.exec_run executed', complete, complete', ?_⟩
  rw [computeMetrics_confusionMatrix paired, computeMetrics_confusionMatrix paired', matrix, matrix']
  decide

end SentinelLab.Feedback
