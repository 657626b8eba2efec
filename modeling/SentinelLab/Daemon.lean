import SentinelLab.NetworkIngest
import SentinelLab.RingBufferOrder
import SentinelLab.Worker

/-! The program of `main.cpp`: the main thread, its worker, the listener of `network_ingest.cpp`
and the server of `rest_api.cpp`. A step is one access to a shared object or one call to the
host, and any thread may take the next one. -/

namespace SentinelLab.Daemon
open Inet EbpfFilter Benchmark NetworkIngest Library.Transition Library.Bytes Library.SinglePrecision

inductive MainPc where
  | startServer
  | startReceiver
  | startWorker
  | wait
  | stopReceiver
  | joinReceiver
  | stopServer
  | joinServer
  | joinWorker
  | report
  | returned
  deriving DecidableEq, Repr

/-- In `recording` the worker holds `bench_mutex_`. -/
inductive WorkerPc where
  | notStarted
  | test
  | popping
  | evaluating (ev : BenchmarkEvent)
  | locking (ev : BenchmarkEvent)
  | recording (ev : BenchmarkEvent)
  | sleeping
  | exited
  deriving DecidableEq, Repr

inductive ListenerPc where
  | notStarted
  | setup
  | test
  | receiving
  | pushing
  | exited
  deriving DecidableEq, Repr

/-- In `reading` it matters whether the client has sent anything, in `computing` the server holds
`bench_mutex_`. -/
inductive ServerPc where
  | notStarted
  | setup
  | test
  | accepting
  | reading (readable : Bool)
  | locking
  | computing
  | responding (m : BenchmarkMetrics)
  | exited
  deriving DecidableEq, Repr

def WorkerPc.holdsMutex : WorkerPc → Bool
  | .recording _ => true
  | _ => false

def ServerPc.holdsMutex : ServerPc → Bool
  | .computing => true
  | _ => false

/-- The socket is bound, so that datagrams are kept for it. -/
def ListenerPc.bound : ListenerPc → Bool
  | .test | .receiving | .pushing => true
  | _ => false

def ServerPc.listening : ServerPc → Bool
  | .notStarted | .setup | .exited => false
  | _ => true

/-- `receiverRunning` and `serverRunning` are the members `running_`. `socket` holds the datagrams
that wait for `recvfrom`, `backlog` counts the connections that wait for `accept`. -/
structure State (capacity : ℕ+) where
  gLabRunning : Bool
  receiverRunning : Bool
  serverRunning : Bool
  world : World
  queue : RingBuffer.State BenchmarkEvent capacity
  benchmarker : Benchmarker
  socket : List (SockaddrIn × List Byte)
  backlog : Nat
  main : MainPc
  worker : WorkerPc
  listener : ListenerPc
  server : ServerPc

variable {capacity : ℕ+}

def State.benchMutexFree (state : State capacity) : Bool :=
  !state.worker.holdsMutex && !state.server.holdsMutex

structure Host where
  endian : Endian
  codec : Codec

inductive AcceptOutcome where
  | connected (readable : Bool)
  | aborted
  | noDescriptor
  deriving DecidableEq, Repr

/-- What the calls of a step answer: `socket` and `bind`, `accept`, the clock, the model and the
kernel. A step looks at the answers to its own calls only. -/
structure Answers where
  bound : Bool := true
  accepted : AcceptOutcome := .connected true
  now : Int := 0
  anomalyScore : Binary32 := 0
  tInferDone : Int := 0
  tMitigated : Int := 0
  succeeds : Bool := true
  testDurationSeconds : ℚ := 1
  deriving DecidableEq, Repr

inductive Thread where
  | main
  | worker
  | listener
  | server
  deriving DecidableEq, Repr

/-- `scribble` is a moment inside the copy of an event into the queue; the last four come from
outside the process. -/
inductive Label where
  | thread (thread : Thread) (answers : Answers)
  | scribble (garbage : BenchmarkEvent)
  | signal
  | datagram (clientAddr : SockaddrIn) (bytes : List Byte)
  | connection
  | clientBytes

def Label.fromOutside : Label → Bool
  | .signal | .datagram _ _ | .connection | .clientBytes => true
  | _ => false

inductive Obs where
  | silent
  | queue (obs : RingBuffer.Obs BenchmarkEvent)
  | response (m : BenchmarkMetrics) (blockedIpsCount : Nat)
  | report (metrics : BenchmarkMetrics)

/-- An access to the queue, after which the thread that made it goes on as `move` says. -/
def State.access (state : State capacity) (label : RingBuffer.Label BenchmarkEvent)
    (move : State capacity → RingBuffer.Obs BenchmarkEvent → State capacity) : Option (State capacity × Obs) :=
  (RingBuffer.step state.queue label).map fun (queue, obs) => (move { state with queue } obs, .queue obs)

def stepMain (state : State capacity) (answers : Answers) : Option (State capacity × Obs) :=
  match state.main with
  | .startServer =>
      some ({ state with serverRunning := true, server := .setup, main := .startReceiver }, .silent)
  | .startReceiver =>
      some ({ state with receiverRunning := true, listener := .setup, main := .startWorker }, .silent)
  | .startWorker => some ({ state with worker := .test, main := .wait }, .silent)
  | .wait => some ({ state with main := if state.gLabRunning then .wait else .stopReceiver }, .silent)
  | .stopReceiver => some ({ state with receiverRunning := false, main := .joinReceiver }, .silent)
  | .joinReceiver =>
      if state.listener = .exited then some ({ state with main := .stopServer }, .silent) else none
  | .stopServer => some ({ state with serverRunning := false, main := .joinServer }, .silent)
  | .joinServer =>
      if state.server = .exited then some ({ state with main := .joinWorker }, .silent) else none
  | .joinWorker => if state.worker = .exited then some ({ state with main := .report }, .silent) else none
  | .report =>
      if state.benchMutexFree then
        some ({ state with main := .returned },
          .report (computeMetrics state.benchmarker answers.testDurationSeconds))
      else none
  | .returned => none

def WorkerPc.afterPop : RingBuffer.Obs BenchmarkEvent → WorkerPc
  | .popReturned (some ev) => .evaluating ev
  | .popReturned none => .sleeping
  | _ => .popping

def stepWorker (host : Host) (state : State capacity) (answers : Answers) : Option (State capacity × Obs) :=
  match state.worker with
  | .notStarted => none
  | .test =>
      if state.gLabRunning then state.access .callPop fun state _ => { state with worker := .popping }
      else some ({ state with worker := .exited }, .silent)
  | .popping => state.access .consumer fun state obs => { state with worker := .afterPop obs }
  | .evaluating ev =>
      let evaluated := Worker.evaluate (host.codec.key host.endian) state.world ev answers.anomalyScore
        answers.tInferDone answers.tMitigated answers.succeeds
      some ({ state with world := evaluated.1, worker := .locking evaluated.2 }, .silent)
  | .locking ev =>
      if state.benchMutexFree then some ({ state with worker := .recording ev }, .silent) else none
  | .recording ev =>
      some ({ state with benchmarker := recordEvent state.benchmarker ev, worker := .test }, .silent)
  | .sleeping => some ({ state with worker := .test }, .silent)
  | .exited => none

def ListenerPc.afterPush : RingBuffer.Obs BenchmarkEvent → ListenerPc
  | .pushReturned _ _ => .test
  | _ => .pushing

def stepListener (host : Host) (state : State capacity) (answers : Answers) : Option (State capacity × Obs) :=
  match state.listener with
  | .notStarted => none
  | .setup => some ({ state with listener := if answers.bound then .test else .exited }, .silent)
  | .test => some ({ state with listener := if state.receiverRunning then .receiving else .exited }, .silent)
  | .receiving =>
      match state.socket with
      | [] => none
      | (clientAddr, datagram) :: socket =>
          match ingest host.endian host.codec.ntop answers.now clientAddr datagram with
          | none => none
          | some none => some ({ state with socket, listener := .test }, .silent)
          | some (some ev) =>
              state.access (.callPush ev) fun state _ => { state with socket, listener := .pushing }
  | .pushing => state.access .producer fun state obs => { state with listener := .afterPush obs }
  | .exited => none

def stepServer (state : State capacity) (answers : Answers) : Option (State capacity × Obs) :=
  match state.server with
  | .notStarted => none
  | .setup => some ({ state with server := if answers.bound then .test else .exited }, .silent)
  | .test => some ({ state with server := if state.serverRunning then .accepting else .exited }, .silent)
  | .accepting =>
      match state.backlog with
      | 0 => none
      | backlog + 1 =>
          match answers.accepted with
          | .connected readable => some ({ state with backlog, server := .reading readable }, .silent)
          | .aborted => some ({ state with backlog, server := .test }, .silent)
          | .noDescriptor => some ({ state with server := .test }, .silent)
  | .reading readable => if readable then some ({ state with server := .locking }, .silent) else none
  | .locking => if state.benchMutexFree then some ({ state with server := .computing }, .silent) else none
  | .computing => some ({ state with server := .responding (computeMetrics state.benchmarker 1) }, .silent)
  | .responding m =>
      some ({ state with server := .test }, .response m state.world.harness.blockedIps.card)
  | .exited => none

def step (host : Host) (state : State capacity) : Label → Option (State capacity × Obs)
  | .thread .main answers => stepMain state answers
  | .thread .worker answers => stepWorker host state answers
  | .thread .listener answers => stepListener host state answers
  | .thread .server answers => stepServer state answers
  | .scribble garbage => state.access (.scribble garbage) fun state _ => state
  | .signal => some ({ state with gLabRunning := false }, .silent)
  | .datagram clientAddr bytes =>
      if state.listener.bound then some ({ state with socket := state.socket ++ [(clientAddr, bytes)] }, .silent)
      else none
  | .connection =>
      if state.server.listening then some ({ state with backlog := state.backlog + 1 }, .silent) else none
  | .clientBytes =>
      if state.server = .reading false then some ({ state with server := .reading true }, .silent) else none

def machine (host : Host) (capacity : ℕ+) : Machine (State capacity) Label Obs := ⟨step host⟩

def initial (capacity : ℕ+) (buffer : Fin capacity → BenchmarkEvent) (world : World) : State capacity where
  gLabRunning := true
  receiverRunning := false
  serverRunning := false
  world
  queue := RingBuffer.initial capacity buffer
  benchmarker := {}
  socket := []
  backlog := 0
  main := .startServer
  worker := .notStarted
  listener := .notStarted
  server := .notStarted

/-! ## The program as `main.cpp` builds it -/

def littleHost : Host := ⟨.little, Inet.dottedQuad⟩

/-- The queue has its 65536 slots, and no filter could be loaded. -/
def launched : State 65536 :=
  initial 65536 (fun _ => {}) ⟨EBPFFilterHarness.create (fun _ => 2) "ens33", ⟨fun _ => none, none⟩⟩

def turns (thread : Thread) (times : Nat) : List Label := List.replicate times (.thread thread {})

end SentinelLab.Daemon
