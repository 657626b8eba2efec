import SentinelLab.Daemon

/-! What the threads of the program know of each other: which of them run at each stage of `main`,
and which call on the queue is open. -/

namespace SentinelLab.Daemon
open Benchmark NetworkIngest Library.Transition

variable {capacity : ℕ+} {host : Host} {state after : State capacity} {answers : Answers} {obs : Obs}

theorem access_eq_some {label : RingBuffer.Label BenchmarkEvent}
    {move : State capacity → RingBuffer.Obs BenchmarkEvent → State capacity}
    (taken : state.access label move = some (after, obs)) :
    ∃ queue returned, RingBuffer.step state.queue label = some (queue, returned) ∧
      after = move { state with queue } returned ∧ obs = .queue returned := by
  simp only [State.access, Option.map_eq_some_iff, Prod.exists, Prod.mk.injEq] at taken
  rcases taken with ⟨queue, returned, accessed, moved, observed⟩
  exact ⟨queue, returned, accessed, moved.symm, observed.symm⟩

def Obs.pushed : Obs → Option BenchmarkEvent
  | .queue obs => obs.pushed
  | _ => none

def Obs.popped : Obs → Option BenchmarkEvent
  | .queue obs => obs.popped
  | _ => none

inductive Access (state : State capacity) (obs : Obs) (after : State capacity) : Prop where
  | none (same : after.queue = state.queue) (pushed : obs.pushed = none) (popped : obs.popped = none)
  | one (label : RingBuffer.Label BenchmarkEvent) (returned : RingBuffer.Obs BenchmarkEvent)
      (accessed : RingBuffer.step state.queue label = some (after.queue, returned)) (seen : obs = .queue returned)

/-- What the steps of one thread leave alone in the others. -/
structure MainMoves (state : State capacity) (obs : Obs) (after : State capacity) : Prop where
  queue : after.queue = state.queue
  pushed : obs.pushed = none
  popped : obs.popped = none
  benchmarker : after.benchmarker = state.benchmarker
  worker : after.worker = state.worker ∨ state.main = .startWorker ∧ after.worker = .test
  listener : after.listener = state.listener ∨ state.main = .startReceiver ∧ after.listener = .setup

structure WorkerMoves (state : State capacity) (obs : Obs) (after : State capacity) : Prop where
  access : Access state obs after
  main : after.main = state.main
  listener : after.listener = state.listener
  server : after.server = state.server
  running : state.worker ≠ .notStarted ∧ state.worker ≠ .exited
  started : after.worker ≠ .notStarted

structure ListenerMoves (state : State capacity) (obs : Obs) (after : State capacity) : Prop where
  access : Access state obs after
  main : after.main = state.main
  worker : after.worker = state.worker
  server : after.server = state.server
  benchmarker : after.benchmarker = state.benchmarker
  popped : obs.popped = none
  pushed : state.listener ≠ .pushing → obs.pushed = none
  running : state.listener ≠ .notStarted ∧ state.listener ≠ .exited
  started : after.listener ≠ .notStarted

structure ServerMoves (state : State capacity) (obs : Obs) (after : State capacity) : Prop where
  main : after.main = state.main
  worker : after.worker = state.worker
  listener : after.listener = state.listener
  benchmarker : after.benchmarker = state.benchmarker
  queue : after.queue = state.queue
  pushed : obs.pushed = none
  popped : obs.popped = none
  running : state.server ≠ .notStarted ∧ state.server ≠ .exited
  started : after.server ≠ .notStarted

structure ScribbleMoves (state : State capacity) (obs : Obs) (after : State capacity) : Prop where
  access : Access state obs after
  main : after.main = state.main
  worker : after.worker = state.worker
  listener : after.listener = state.listener
  server : after.server = state.server
  benchmarker : after.benchmarker = state.benchmarker
  producer : after.queue.producer = state.queue.producer
  consumer : after.queue.consumer = state.queue.consumer
  pushed : obs.pushed = none
  popped : obs.popped = none

structure OutsideMoves (state : State capacity) (obs : Obs) (after : State capacity) : Prop where
  main : after.main = state.main
  worker : after.worker = state.worker
  listener : after.listener = state.listener
  benchmarker : after.benchmarker = state.benchmarker
  queue : after.queue = state.queue
  silent : obs = .silent
  server : after.server = state.server ∨ state.server = .reading false ∧ after.server = .reading true

theorem stepMain_moves (taken : stepMain state answers = some (after, obs)) : MainMoves state obs after := by
  unfold stepMain at taken
  cases current : state.main <;> simp only [current] at taken
  case startReceiver =>
    cases taken
    exact ⟨rfl, rfl, rfl, rfl, Or.inl rfl, Or.inr ⟨current, rfl⟩⟩
  case startWorker =>
    cases taken
    exact ⟨rfl, rfl, rfl, rfl, Or.inr ⟨current, rfl⟩, Or.inl rfl⟩
  case joinReceiver | joinServer | joinWorker | report =>
    split at taken <;> cases taken
    exact ⟨rfl, rfl, rfl, rfl, Or.inl rfl, Or.inl rfl⟩
  case returned => cases taken
  all_goals
    cases taken
    exact ⟨rfl, rfl, rfl, rfl, Or.inl rfl, Or.inl rfl⟩

theorem stepWorker_moves (taken : stepWorker host state answers = some (after, obs)) :
    WorkerMoves state obs after := by
  unfold stepWorker at taken
  cases current : state.worker <;> simp only [current] at taken
  case notStarted => cases taken
  case exited => cases taken
  case test =>
    split at taken
    · rcases access_eq_some taken with ⟨_, returned, accessed, rfl, rfl⟩
      exact ⟨.one _ returned accessed rfl, rfl, rfl, rfl, by simp [current], by simp⟩
    · cases taken
      exact ⟨.none rfl rfl rfl, rfl, rfl, rfl, by simp [current], by simp⟩
  case popping =>
    rcases access_eq_some taken with ⟨_, returned, accessed, rfl, rfl⟩
    refine ⟨.one _ returned accessed rfl, rfl, rfl, rfl, by simp [current], ?_⟩
    dsimp only [WorkerPc.afterPop]
    split <;> simp
  case locking ev =>
    split at taken <;> cases taken
    exact ⟨.none rfl rfl rfl, rfl, rfl, rfl, by simp [current], by simp⟩
  all_goals
    cases taken
    exact ⟨.none rfl rfl rfl, rfl, rfl, rfl, by simp [current], by simp⟩

theorem stepListener_moves (taken : stepListener host state answers = some (after, obs)) :
    ListenerMoves state obs after := by
  unfold stepListener at taken
  cases current : state.listener <;> simp only [current] at taken
  case notStarted => cases taken
  case exited => cases taken
  case setup =>
    cases taken
    exact ⟨.none rfl rfl rfl, rfl, rfl, rfl, rfl, rfl, fun _ => rfl, by simp [current],
      by cases answers.bound <;> simp⟩
  case test =>
    cases taken
    exact ⟨.none rfl rfl rfl, rfl, rfl, rfl, rfl, rfl, fun _ => rfl, by simp [current],
      by cases state.receiverRunning <;> simp⟩
  case receiving =>
    split at taken
    · cases taken
    · split at taken
      · cases taken
      · cases taken
        exact ⟨.none rfl rfl rfl, rfl, rfl, rfl, rfl, rfl, fun _ => rfl, by simp [current], by simp⟩
      · rcases access_eq_some taken with ⟨_, returned, accessed, rfl, rfl⟩
        rcases (RingBuffer.callPush_opens accessed).2.2 with rfl
        exact ⟨.one _ _ accessed rfl, rfl, rfl, rfl, rfl, rfl, fun _ => rfl, by simp [current], by simp⟩
  case pushing =>
    rcases access_eq_some taken with ⟨_, returned, accessed, rfl, rfl⟩
    refine ⟨.one _ returned accessed rfl, rfl, rfl, rfl, rfl, RingBuffer.stepProducer_popped accessed,
      fun other => absurd current other, by simp [current], ?_⟩
    dsimp only [ListenerPc.afterPush]
    split <;> simp

theorem stepServer_moves (taken : stepServer state answers = some (after, obs)) : ServerMoves state obs after := by
  unfold stepServer at taken
  cases current : state.server <;> simp only [current] at taken
  case notStarted => cases taken
  case exited => cases taken
  case setup =>
    cases taken
    exact ⟨rfl, rfl, rfl, rfl, rfl, rfl, rfl, by simp [current], by cases answers.bound <;> simp⟩
  case test =>
    cases taken
    exact ⟨rfl, rfl, rfl, rfl, rfl, rfl, rfl, by simp [current], by cases state.serverRunning <;> simp⟩
  case accepting =>
    split at taken
    · cases taken
    · split at taken <;> cases taken <;> exact ⟨rfl, rfl, rfl, rfl, rfl, rfl, rfl, by simp [current], by simp⟩
  case reading readable =>
    split at taken <;> cases taken
    exact ⟨rfl, rfl, rfl, rfl, rfl, rfl, rfl, by simp [current], by simp⟩
  case locking =>
    split at taken <;> cases taken
    exact ⟨rfl, rfl, rfl, rfl, rfl, rfl, rfl, by simp [current], by simp⟩
  all_goals
    cases taken
    exact ⟨rfl, rfl, rfl, rfl, rfl, rfl, rfl, by simp [current], by simp⟩

theorem step_scribbleMoves {garbage : BenchmarkEvent}
    (taken : step host state (.scribble garbage) = some (after, obs)) : ScribbleMoves state obs after := by
  simp only [step] at taken
  rcases access_eq_some taken with ⟨_, returned, accessed, rfl, rfl⟩
  rcases RingBuffer.scribble_keeps accessed with ⟨producer, consumer, rfl⟩
  exact ⟨.one _ _ accessed rfl, rfl, rfl, rfl, rfl, rfl, producer, consumer, rfl, rfl⟩

theorem step_outsideMoves {label : Label} (outside : label.fromOutside = true)
    (taken : step host state label = some (after, obs)) : OutsideMoves state obs after := by
  cases label <;> simp only [Label.fromOutside, Bool.false_eq_true] at outside <;> simp only [step] at taken
  case signal =>
    cases taken
    exact ⟨rfl, rfl, rfl, rfl, rfl, rfl, Or.inl rfl⟩
  case datagram clientAddr bytes =>
    split at taken <;> cases taken
    exact ⟨rfl, rfl, rfl, rfl, rfl, rfl, Or.inl rfl⟩
  case connection =>
    split at taken <;> cases taken
    exact ⟨rfl, rfl, rfl, rfl, rfl, rfl, Or.inl rfl⟩
  case clientBytes =>
    split at taken <;> cases taken
    next waiting => exact ⟨rfl, rfl, rfl, rfl, rfl, rfl, Or.inr ⟨waiting, rfl⟩⟩

theorem step_access {label : Label} (taken : step host state label = some (after, obs)) :
    Access state obs after := by
  cases label with
  | thread thread answers =>
    cases thread with
    | main =>
      have moves := stepMain_moves taken
      exact .none moves.queue moves.pushed moves.popped
    | worker => exact (stepWorker_moves taken).access
    | listener => exact (stepListener_moves taken).access
    | server =>
      have moves := stepServer_moves taken
      exact .none moves.queue moves.pushed moves.popped
  | scribble garbage => exact (step_scribbleMoves taken).access
  | _ =>
    have moves := step_outsideMoves rfl taken
    rcases moves.silent with rfl
    exact .none moves.queue rfl rfl

/-! ## Starts and joins -/

def MainPc.stage : MainPc → Nat
  | .startServer => 0
  | .startReceiver => 1
  | .startWorker => 2
  | .wait => 3
  | .stopReceiver => 4
  | .joinReceiver => 5
  | .stopServer => 6
  | .joinServer => 7
  | .joinWorker => 8
  | .report => 9
  | .returned => 10

/-- A thread runs from its start on, and a thread that was joined has ended. -/
structure Staged (state : State capacity) : Prop where
  server_started : state.server = .notStarted ↔ state.main.stage = 0
  listener_started : state.listener = .notStarted ↔ state.main.stage ≤ 1
  worker_started : state.worker = .notStarted ↔ state.main.stage ≤ 2
  listener_joined : 6 ≤ state.main.stage → state.listener = .exited
  server_joined : 8 ≤ state.main.stage → state.server = .exited
  worker_joined : 9 ≤ state.main.stage → state.worker = .exited

theorem stepMain_staged (staged : Staged state) (taken : stepMain state answers = some (after, obs)) :
    Staged after := by
  rcases staged with ⟨server, listener, worker, listener_joined, server_joined, worker_joined⟩
  unfold stepMain at taken
  cases current : state.main <;> simp only [current] at taken <;>
    simp only [current, MainPc.stage] at server listener worker listener_joined server_joined worker_joined
  case wait =>
    cases taken
    cases state.gLabRunning <;> constructor <;> simp_all [MainPc.stage]
  case joinReceiver | joinServer | joinWorker | report =>
    split at taken <;> cases taken
    constructor <;> simp_all [MainPc.stage]
  case returned => cases taken
  all_goals
    cases taken
    constructor <;> simp_all [MainPc.stage]

theorem WorkerMoves.staged (moves : WorkerMoves state obs after) (staged : Staged state) : Staged after := by
  constructor <;> simp only [moves.main, moves.listener, moves.server]
  case server_started => exact staged.server_started
  case listener_started => exact staged.listener_started
  case worker_started => simpa only [moves.started, moves.running.1, false_iff] using staged.worker_started
  case listener_joined => exact staged.listener_joined
  case server_joined => exact staged.server_joined
  case worker_joined =>
    intro late
    exact absurd (staged.worker_joined late) moves.running.2

theorem ListenerMoves.staged (moves : ListenerMoves state obs after) (staged : Staged state) : Staged after := by
  constructor <;> simp only [moves.main, moves.worker, moves.server]
  case server_started => exact staged.server_started
  case listener_started => simpa only [moves.started, moves.running.1, false_iff] using staged.listener_started
  case worker_started => exact staged.worker_started
  case listener_joined =>
    intro late
    exact absurd (staged.listener_joined late) moves.running.2
  case server_joined => exact staged.server_joined
  case worker_joined => exact staged.worker_joined

theorem ServerMoves.staged (moves : ServerMoves state obs after) (staged : Staged state) : Staged after := by
  constructor <;> simp only [moves.main, moves.worker, moves.listener]
  case server_started => simpa only [moves.started, moves.running.1, false_iff] using staged.server_started
  case listener_started => exact staged.listener_started
  case worker_started => exact staged.worker_started
  case listener_joined => exact staged.listener_joined
  case server_joined =>
    intro late
    exact absurd (staged.server_joined late) moves.running.2
  case worker_joined => exact staged.worker_joined

theorem ScribbleMoves.staged (moves : ScribbleMoves state obs after) (staged : Staged state) : Staged after := by
  constructor <;> simp only [moves.main, moves.worker, moves.listener, moves.server]
  case server_started => exact staged.server_started
  case listener_started => exact staged.listener_started
  case worker_started => exact staged.worker_started
  case listener_joined => exact staged.listener_joined
  case server_joined => exact staged.server_joined
  case worker_joined => exact staged.worker_joined

theorem OutsideMoves.staged (moves : OutsideMoves state obs after) (staged : Staged state) : Staged after := by
  constructor <;> simp only [moves.main, moves.worker, moves.listener]
  case listener_started => exact staged.listener_started
  case worker_started => exact staged.worker_started
  case listener_joined => exact staged.listener_joined
  case worker_joined => exact staged.worker_joined
  all_goals rcases moves.server with same | ⟨waiting, served⟩
  case server_started.inl => exact same ▸ staged.server_started
  case server_joined.inl => exact same ▸ staged.server_joined
  case server_started.inr => simpa [served, waiting] using staged.server_started
  case server_joined.inr =>
    intro late
    have ended := staged.server_joined late
    rw [waiting] at ended
    cases ended

theorem step_staged {label : Label} (staged : Staged state)
    (taken : step host state label = some (after, obs)) : Staged after := by
  cases label with
  | thread thread answers =>
    cases thread with
    | main => exact stepMain_staged staged taken
    | worker => exact (stepWorker_moves taken).staged staged
    | listener => exact (stepListener_moves taken).staged staged
    | server => exact (stepServer_moves taken).staged staged
  | scribble garbage => exact (step_scribbleMoves taken).staged staged
  | _ => exact (step_outsideMoves rfl taken).staged staged

/-! ## Calls on the queue -/

/-- The open call of each thread is the one its position says. -/
structure Calls (state : State capacity) : Prop where
  popping : state.worker = .popping → ∃ pc, state.queue.consumer = .pop pc
  pushing : state.listener = .pushing → ∃ pc, state.queue.producer = .push pc
  idle : state.listener ≠ .pushing → state.queue.producer = .idle

theorem MainMoves.calls (moves : MainMoves state obs after) (staged : Staged state) (calls : Calls state) :
    Calls after := by
  constructor <;> simp only [moves.queue]
  case popping =>
    rcases moves.worker with same | ⟨_, started⟩
    · exact same ▸ calls.popping
    · simp [started]
  case pushing =>
    rcases moves.listener with same | ⟨_, started⟩
    · exact same ▸ calls.pushing
    · simp [started]
  case idle =>
    rcases moves.listener with same | ⟨starting, _⟩
    · exact same ▸ calls.idle
    · have unstarted : state.listener = .notStarted := staged.listener_started.mpr (by simp [starting, MainPc.stage])
      intro _
      exact calls.idle (by simp [unstarted])

theorem ServerMoves.calls (moves : ServerMoves state obs after) (calls : Calls state) : Calls after := by
  constructor <;> simp only [moves.queue, moves.worker, moves.listener]
  case popping => exact calls.popping
  case pushing => exact calls.pushing
  case idle => exact calls.idle

theorem OutsideMoves.calls (moves : OutsideMoves state obs after) (calls : Calls state) : Calls after := by
  constructor <;> simp only [moves.queue, moves.worker, moves.listener]
  case popping => exact calls.popping
  case pushing => exact calls.pushing
  case idle => exact calls.idle

theorem Access.consistent (access : Access state obs after) (consistent : RingBuffer.Consistent state.queue) :
    RingBuffer.Consistent after.queue := by
  cases access with
  | none same => exact same ▸ consistent
  | one label returned accessed => exact (RingBuffer.step_spec consistent accessed).1

theorem stepWorker_calls (calls : Calls state) (taken : stepWorker host state answers = some (after, obs)) :
    Calls after := by
  unfold stepWorker at taken
  cases current : state.worker <;> simp only [current] at taken
  case notStarted => cases taken
  case exited => cases taken
  case test =>
    split at taken
    · rcases access_eq_some taken with ⟨queue, returned, accessed, rfl, rfl⟩
      rcases RingBuffer.callPop_opens accessed with ⟨producer, opened, _⟩
      exact ⟨fun _ => opened, producer ▸ calls.pushing, producer ▸ calls.idle⟩
    · cases taken
      exact ⟨by simp, calls.pushing, calls.idle⟩
  case popping =>
    rcases access_eq_some taken with ⟨queue, returned, accessed, rfl, rfl⟩
    rcases calls.popping current with ⟨pc, popping⟩
    rcases RingBuffer.stepConsumer_pop popping accessed with ⟨producer, ⟨pc', goes, rfl⟩ | ⟨result, _, rfl⟩⟩
    · exact ⟨fun _ => ⟨pc', goes⟩, producer ▸ calls.pushing, producer ▸ calls.idle⟩
    · refine ⟨?_, producer ▸ calls.pushing, producer ▸ calls.idle⟩
      cases result <;> simp [WorkerPc.afterPop]
  case locking ev =>
    split at taken <;> cases taken
    exact ⟨by simp, calls.pushing, calls.idle⟩
  all_goals
    cases taken
    exact ⟨by simp, calls.pushing, calls.idle⟩

theorem stepListener_calls (calls : Calls state) (taken : stepListener host state answers = some (after, obs)) :
    Calls after := by
  unfold stepListener at taken
  cases current : state.listener <;> simp only [current] at taken
  case notStarted => cases taken
  case exited => cases taken
  case setup =>
    cases taken
    exact ⟨calls.popping, by cases answers.bound <;> simp, fun _ => calls.idle (by simp [current])⟩
  case test =>
    cases taken
    exact ⟨calls.popping, by cases state.receiverRunning <;> simp,
      fun _ => calls.idle (by simp [current])⟩
  case receiving =>
    split at taken
    · cases taken
    · split at taken
      · cases taken
      · cases taken
        exact ⟨calls.popping, by simp, fun _ => calls.idle (by simp [current])⟩
      · rcases access_eq_some taken with ⟨queue, returned, accessed, rfl, rfl⟩
        rcases RingBuffer.callPush_opens accessed with ⟨consumer, opened, _⟩
        exact ⟨consumer ▸ calls.popping, fun _ => opened, by simp⟩
  case pushing =>
    rcases access_eq_some taken with ⟨queue, returned, accessed, rfl, rfl⟩
    rcases calls.pushing current with ⟨pc, pushing⟩
    rcases RingBuffer.stepProducer_push pushing accessed with ⟨consumer, ⟨pc', goes, rfl⟩ | ⟨result, returns, rfl⟩⟩
    · exact ⟨consumer ▸ calls.popping, fun _ => ⟨pc', goes⟩, by simp [ListenerPc.afterPush]⟩
    · exact ⟨consumer ▸ calls.popping, by simp [ListenerPc.afterPush], fun _ => returns⟩

theorem ScribbleMoves.calls (moves : ScribbleMoves state obs after) (calls : Calls state) : Calls after := by
  constructor <;> simp only [moves.producer, moves.consumer, moves.worker, moves.listener]
  case popping => exact calls.popping
  case pushing => exact calls.pushing
  case idle => exact calls.idle

/-- What holds between the threads at every instant of a run. -/
structure Coordinated (state : State capacity) : Prop where
  consistent : RingBuffer.Consistent state.queue
  staged : Staged state
  calls : Calls state

theorem step_coordinated {label : Label} (coordinated : Coordinated state)
    (taken : step host state label = some (after, obs)) : Coordinated after := by
  rcases coordinated with ⟨consistent, staged, calls⟩
  refine ⟨(step_access taken).consistent consistent, step_staged staged taken, ?_⟩
  cases label with
  | thread thread answers =>
    cases thread with
    | main => exact (stepMain_moves taken).calls staged calls
    | worker => exact stepWorker_calls calls taken
    | listener => exact stepListener_calls calls taken
    | server => exact (stepServer_moves taken).calls calls
  | scribble garbage => exact (step_scribbleMoves taken).calls calls
  | _ => exact (step_outsideMoves rfl taken).calls calls

theorem initial_coordinated (capacity : ℕ+) (buffer : Fin capacity → BenchmarkEvent) (world : EbpfFilter.World) :
    Coordinated (initial capacity buffer world) where
  consistent := RingBuffer.initial_consistent buffer
  staged := by constructor <;> simp [initial, MainPc.stage]
  calls := by constructor <;> simp [initial, RingBuffer.initial]

theorem run_coordinated {buffer : Fin capacity → BenchmarkEvent} {world : EbpfFilter.World} {final : State capacity}
    {trace : List (Entry (State capacity) Label Obs)}
    (run : Run (machine host capacity) (initial capacity buffer world) trace final) : Coordinated final := by
  apply run.invariant Coordinated _ (initial_coordinated capacity buffer world)
  intro state label obs next coordinated taken
  exact step_coordinated coordinated taken

end SentinelLab.Daemon
