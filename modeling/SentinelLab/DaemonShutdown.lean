import SentinelLab.DaemonThreads

/-! The shutdown of the program. Its flags are read between calls only, and neither `stop()` closes
a socket, so a thread that is inside `recvfrom`, `accept` or `read` learns of the shutdown when
its call returns. -/

namespace SentinelLab.Daemon
open Benchmark NetworkIngest Library.Transition

variable {capacity : ℕ+} {host : Host} {state : State capacity}

/-- Some thread can take a step though nothing comes from outside. -/
def CanStep (host : Host) (state : State capacity) : Prop :=
  ∃ label : Label, label.fromOutside = false ∧ (step host state label).isSome

def ListenerBlocked (state : State capacity) : Prop := state.listener = .receiving ∧ state.socket = []

/-- The server is inside `accept` with no connection, or inside `read` with a silent client. -/
def ServerBlocked (state : State capacity) : Prop :=
  state.server = .accepting ∧ state.backlog = 0 ∨ state.server = .reading false

/-- The worker has left, and `main` waits in `receiver.stop()` or in `rest_server.stop()` for a
thread that is blocked; while it is in the first, the server has ended or is blocked as well. -/
def Stuck (state : State capacity) : Prop :=
  state.worker = .exited ∧
    (state.main = .joinReceiver ∧ ListenerBlocked state ∧ (state.server = .exited ∨ ServerBlocked state) ∨
      state.main = .joinServer ∧ ServerBlocked state)

theorem CanStep.of_thread (thread : Thread) (enabled : (step host state (.thread thread {})).isSome) :
    CanStep host state :=
  ⟨.thread thread {}, rfl, enabled⟩

theorem access_isSome {label : RingBuffer.Label BenchmarkEvent}
    {move : State capacity → RingBuffer.Obs BenchmarkEvent → State capacity}
    (enabled : ∃ queue returned, RingBuffer.step state.queue label = some (queue, returned)) :
    (state.access label move).isSome := by
  rcases enabled with ⟨queue, returned, accessed⟩
  simp [State.access, accessed]

/-! ## Each thread on its own -/

theorem stepServer_isSome (mutex : state.worker.holdsMutex = false)
    (running : state.server ≠ .notStarted ∧ state.server ≠ .exited) (free : ¬ServerBlocked state) :
    (stepServer state {}).isSome := by
  unfold stepServer
  cases current : state.server
  case notStarted => exact absurd current running.1
  case exited => exact absurd current running.2
  case accepting =>
    cases pending : state.backlog with
    | zero => exact absurd (Or.inl ⟨current, pending⟩) free
    | succ backlog => rfl
  case reading readable =>
    cases readable with
    | false => exact absurd (Or.inr current) free
    | true => rfl
  case locking => simp [State.benchMutexFree, mutex, current, ServerPc.holdsMutex]
  all_goals rfl

theorem stepListener_isSome (calls : Calls state)
    (running : state.listener ≠ .notStarted ∧ state.listener ≠ .exited) (free : ¬ListenerBlocked state) :
    (stepListener host state {}).isSome := by
  unfold stepListener
  cases current : state.listener
  case notStarted => exact absurd current running.1
  case exited => exact absurd current running.2
  case receiving =>
    cases pending : state.socket with
    | nil => exact absurd ⟨current, pending⟩ free
    | cons first rest =>
      have read : (ingest host.endian host.codec.ntop 0 first.1 first.2).isSome := parse_isSome (recvfrom first.2)
      rcases Option.isSome_iff_exists.mp read with ⟨offered, ingested⟩
      cases offered with
      | none => simp [ingested]
      | some ev =>
        simp only [ingested]
        apply access_isSome
        simp [RingBuffer.step, calls.idle (by simp [current])]
  case pushing =>
    rcases calls.pushing current with ⟨pc, pushing⟩
    exact access_isSome (RingBuffer.stepProducer_enabled pushing)
  all_goals rfl

theorem canStep_of_worker (calls : Calls state) (stopping : state.gLabRunning = false)
    (running : state.worker ≠ .notStarted ∧ state.worker ≠ .exited) : CanStep host state := by
  by_cases held : state.server.holdsMutex = true
  · apply CanStep.of_thread .server
    have computing : state.server = .computing := by
      cases current : state.server <;> simp_all [ServerPc.holdsMutex]
    simp [step, stepServer, computing]
  · apply CanStep.of_thread .worker
    simp only [step, stepWorker]
    cases current : state.worker
    case notStarted => exact absurd current running.1
    case exited => exact absurd current running.2
    case test => simp [stopping]
    case popping =>
      rcases calls.popping current with ⟨pc, popping⟩
      exact access_isSome (RingBuffer.stepConsumer_enabled popping)
    case locking ev => simp [State.benchMutexFree, current, WorkerPc.holdsMutex, held]
    all_goals rfl

theorem canStep_of_main (joining : state.main ≠ .report ∧ state.main ≠ .returned)
    (listener : state.main = .joinReceiver → state.listener = .exited)
    (server : state.main = .joinServer → state.server = .exited)
    (worker : state.main = .joinWorker → state.worker = .exited) : CanStep host state := by
  apply CanStep.of_thread .main
  simp only [step, stepMain]
  cases current : state.main
  case joinReceiver => simp [listener current]
  case joinServer => simp [server current]
  case joinWorker => simp [worker current]
  case report => exact absurd current joining.1
  case returned => exact absurd current joining.2
  all_goals rfl

/-! ## The four together -/

theorem canStep_of_not_stuck (coordinated : Coordinated state) (stopping : state.gLabRunning = false)
    (joining : state.main ≠ .report ∧ state.main ≠ .returned) (free : ¬Stuck state) : CanStep host state := by
  rcases coordinated with ⟨_, staged, calls⟩
  by_cases working : state.worker ≠ .notStarted ∧ state.worker ≠ .exited
  · exact canStep_of_worker calls stopping working
  by_cases unstarted : state.worker = .notStarted
  · -- `main` has still to start it
    have early := staged.worker_started.mp unstarted
    apply canStep_of_main joining <;> intro current <;> simp [current, MainPc.stage] at early
  have exited : state.worker = .exited := by
    by_contra running
    exact working ⟨unstarted, running⟩
  have late : 3 ≤ state.main.stage := by
    have started := mt staged.worker_started.mpr unstarted
    omega
  have serving : state.server ≠ .notStarted := by
    intro absent
    have early := staged.server_started.mp absent
    omega
  have listening : state.listener ≠ .notStarted := by
    intro absent
    have early := staged.listener_started.mp absent
    omega
  have server_step (running : state.server ≠ .exited) (open_ : ¬ServerBlocked state) : CanStep host state :=
    CanStep.of_thread .server (stepServer_isSome (by simp [exited, WorkerPc.holdsMutex]) ⟨serving, running⟩ open_)
  by_cases in_receiver : state.main = .joinReceiver
  · by_cases listener_ended : state.listener = .exited
    · exact canStep_of_main joining (fun _ => listener_ended) (by simp [in_receiver]) (by simp [in_receiver])
    by_cases blocked : ListenerBlocked state
    · have server_free : ¬(state.server = .exited ∨ ServerBlocked state) := by
        intro waits
        exact free ⟨exited, Or.inl ⟨in_receiver, blocked, waits⟩⟩
      rw [not_or] at server_free
      exact server_step server_free.1 server_free.2
    · exact CanStep.of_thread .listener (stepListener_isSome calls ⟨listening, listener_ended⟩ blocked)
  by_cases in_server : state.main = .joinServer
  · by_cases server_ended : state.server = .exited
    · exact canStep_of_main joining (by simp [in_server]) (fun _ => server_ended) (by simp [in_server])
    · apply server_step server_ended
      intro blocked
      exact free ⟨exited, Or.inr ⟨in_server, blocked⟩⟩
  · exact canStep_of_main joining (fun current => absurd current in_receiver)
      (fun current => absurd current in_server) (fun _ => exited)

theorem ServerBlocked.stepServer (blocked : ServerBlocked state) (answers : Answers) :
    stepServer state answers = none := by
  rcases blocked with ⟨accepting, empty⟩ | reading
  · simp [Daemon.stepServer, accepting, empty]
  · simp [Daemon.stepServer, reading]

theorem not_canStep_of_stuck (coordinated : Coordinated state) (stuck : Stuck state) : ¬CanStep host state := by
  rcases coordinated with ⟨_, staged, calls⟩
  rcases stuck with ⟨exited, waits⟩
  have worker (answers : Answers) : stepWorker host state answers = none := by simp [stepWorker, exited]
  have main (answers : Answers) : stepMain state answers = none := by
    rcases waits with ⟨current, blocked, _⟩ | ⟨current, blocked⟩
    · simp [stepMain, current, blocked.1]
    · rcases blocked with ⟨accepting, _⟩ | reading
      · simp [stepMain, current, accepting]
      · simp [stepMain, current, reading]
  have listener (answers : Answers) : state.listener ≠ .pushing ∧ stepListener host state answers = none := by
    rcases waits with ⟨_, ⟨receiving, empty⟩, _⟩ | ⟨current, _⟩
    · simp [stepListener, receiving, empty]
    · have ended : state.listener = .exited := staged.listener_joined (by simp [current, MainPc.stage])
      simp [stepListener, ended]
  have server (answers : Answers) : stepServer state answers = none := by
    rcases waits with ⟨_, _, ended | blocked⟩ | ⟨_, blocked⟩
    · simp [stepServer, ended]
    · exact blocked.stepServer answers
    · exact blocked.stepServer answers
  rintro ⟨label, inside, enabled⟩
  cases label with
  | thread thread answers => cases thread <;> simp [step, main, worker, listener, server] at enabled
  | scribble garbage =>
    have idle := calls.idle (listener {}).1
    simp [step, State.access, RingBuffer.step, idle] at enabled
  | _ => cases inside

/-- Over every run of the four threads: once the flag is cleared, and until `main` has returned from
`receiver.stop()`, `rest_server.stop()` and `worker.join()`, some thread can take a step though
nothing comes from outside, if and only if the program is not stuck in one of these joins. -/
theorem canStep_iff_not_stuck (host : Host) (capacity : ℕ+) (buffer : Fin capacity → BenchmarkEvent)
    (world : EbpfFilter.World) (trace : List (Entry (State capacity) Label Obs)) (final : State capacity)
    (run : Run (machine host capacity) (initial capacity buffer world) trace final)
    (stopping : final.gLabRunning = false) (joining : final.main ≠ .report ∧ final.main ≠ .returned) :
    CanStep host final ↔ ¬Stuck final := by
  have coordinated := run_coordinated run
  constructor
  · intro enabled stuck
    exact not_canStep_of_stuck coordinated stuck enabled
  · exact canStep_of_not_stuck coordinated stopping joining

private def quietShutdown : List Label :=
  turns .main 3 ++ turns .server 2 ++ turns .listener 2 ++ [.signal] ++ turns .worker 1 ++ turns .main 2

theorem canStep_iff_not_stuck_datagram :
    ∃ trace final, (machine littleHost 65536).exec launched
        (quietShutdown ++ [.datagram ⟨(0xC3, 0x50), ⟨10, 0, 0, 1⟩⟩ []]) = some (trace, final) ∧
      final.main = .joinReceiver ∧ CanStep littleHost final := by
  obtain ⟨⟨trace, final⟩, executed⟩ : ∃ result, (machine littleHost 65536).exec launched
      (quietShutdown ++ [.datagram ⟨(0xC3, 0x50), ⟨10, 0, 0, 1⟩⟩ []]) = some result := ⟨_, rfl⟩
  have run := Machine.exec_run executed
  have reached : final.gLabRunning = false ∧ final.main = .joinReceiver ∧ final.socket.length = 1 := by
    cases executed
    exact ⟨rfl, rfl, rfl⟩
  rcases reached with ⟨stopping, waiting, pending⟩
  refine ⟨trace, final, executed, waiting, ?_⟩
  apply (canStep_iff_not_stuck littleHost 65536 _ _ trace final run stopping (by simp [waiting])).mpr
  rintro ⟨_, ⟨_, blocked, _⟩ | ⟨elsewhere, _⟩⟩
  · simp [blocked.2] at pending
  · simp [waiting] at elsewhere

/-- Without traffic the signal leaves `main` in `receiver.stop()` for good. -/
theorem quiet_shutdown_stuck :
    ∃ trace final, Run (machine littleHost 65536) launched trace final ∧ final.gLabRunning = false ∧
      final.main = .joinReceiver ∧ ¬CanStep littleHost final := by
  obtain ⟨⟨trace, final⟩, executed⟩ : ∃ result,
      (machine littleHost 65536).exec launched quietShutdown = some result := ⟨_, rfl⟩
  have run := Machine.exec_run executed
  refine ⟨trace, final, run, ?_⟩
  have stuck : final.gLabRunning = false ∧ final.main = .joinReceiver ∧ Stuck final := by
    cases executed
    exact ⟨rfl, rfl, rfl, Or.inl ⟨rfl, ⟨rfl, rfl⟩, Or.inr (Or.inl ⟨rfl, rfl⟩)⟩⟩
  exact ⟨stuck.1, stuck.2.1, not_canStep_of_stuck (run_coordinated run) stuck.2.2⟩

end SentinelLab.Daemon
