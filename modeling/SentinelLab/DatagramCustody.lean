import SentinelLab.DaemonTelemetry

/-! Where the delivered datagrams are. A complete frame waits in the socket, is on its way through
`push`, or its `push` has returned; nothing is lost in between, and the order stays. -/

namespace SentinelLab.Daemon
open Inet Benchmark NetworkIngest Library.Transition Library.Bytes Library.SinglePrecision

/-- The members of an event that its datagram determines. -/
structure Facts where
  eventId : Nat
  label : Int
  features : List Binary32
  deriving DecidableEq

def factsOf (ev : BenchmarkEvent) : Facts := ⟨ev.eventId.toNat, ev.groundTruthLabel, ev.features⟩

def arrival (endian : Endian) (datagram : List Byte) : List Facts :=
  if CompleteFrame (recvfrom datagram) then
    [factsOf (frameEvent endian (fun _ => "") 0 ⟨(0, 0), ⟨0, 0, 0, 0⟩⟩ (recvfrom datagram))]
  else []

def arrivals (endian : Endian) (socket : List (SockaddrIn × List Byte)) : List Facts :=
  socket.flatMap fun entry => arrival endian entry.2

variable {endian : Endian} {inetNtop : InAddr → String} {now : Int} {clientAddr : SockaddrIn} {datagram : List Byte}

theorem arrival_of_offered {ev : BenchmarkEvent}
    (offered : ingest endian inetNtop now clientAddr datagram = some (some ev)) :
    arrival endian datagram = [factsOf ev] := by
  obtain ⟨complete, rfl⟩ := ingest_eq_some.mp offered
  rw [arrival, if_pos complete]
  rfl

theorem arrival_of_ignored (ignored : ingest endian inetNtop now clientAddr datagram = some none) :
    arrival endian datagram = [] := by
  rw [arrival, if_neg (ingest_eq_none.mp ignored)]

theorem factsOf_untouched (ev : BenchmarkEvent) : factsOf (untouched ev) = factsOf ev := rfl

theorem map_factsOf_untouched (events : List BenchmarkEvent) :
    (events.map untouched).map factsOf = events.map factsOf := by
  rw [List.map_map]
  exact List.map_congr_left fun ev _ => factsOf_untouched ev

/-! ## One step -/

variable {capacity : ℕ+} {host : Host} {state after : State capacity} {answers : Answers} {obs : Obs}

def inFlight : RingBuffer.Producer BenchmarkEvent capacity → List BenchmarkEvent
  | .push pc => [pc.event]
  | _ => []

def Label.delivered : Label → List (SockaddrIn × List Byte)
  | .datagram clientAddr bytes => [(clientAddr, bytes)]
  | _ => []

def Label.turnOf (thread : Thread) : Label → Bool
  | .thread taking _ => taking = thread
  | _ => false

theorem eq_of_turnOf {label : Label} {thread : Thread} (turn : label.turnOf thread = true) :
    ∃ answers, label = .thread thread answers := by
  cases label with
  | thread taking answers =>
    simp only [Label.turnOf, decide_eq_true_eq] at turn
    exact ⟨answers, by rw [turn]⟩
  | _ => cases turn

def Obs.offered : Obs → Option BenchmarkEvent
  | .queue (.pushReturned event _) => some event
  | _ => none

/-- What a step offers, leaves on its way and leaves in the socket was there before, or arrives now. -/
def Onward (endian : Endian) (state : State capacity) (label : Label) (obs : Obs) (after : State capacity) : Prop :=
  obs.offered.toList.map factsOf ++ ((inFlight after.queue.producer).map factsOf ++ arrivals endian after.socket) =
    (inFlight state.queue.producer).map factsOf ++ arrivals endian state.socket ++ arrivals endian label.delivered

theorem Obs.offered_of_pushed {ev : BenchmarkEvent} (pushed : obs.pushed = some ev) : obs.offered = some ev := by
  cases obs with
  | queue returned =>
    cases returned with
    | pushReturned event result => cases result <;> simp_all [Obs.pushed, RingBuffer.Obs.pushed, Obs.offered]
    | _ => cases pushed
  | _ => cases pushed

theorem stepProducer_inFlight {queue next : RingBuffer.State BenchmarkEvent capacity}
    {returned : RingBuffer.Obs BenchmarkEvent} (taken : RingBuffer.stepProducer queue = some (next, returned)) :
    (Obs.queue returned).offered.toList ++ inFlight next.producer = inFlight queue.producer := by
  unfold RingBuffer.stepProducer at taken
  split at taken
  · cases taken
  next pc current =>
    split at taken
    next shared pc' goes =>
      cases taken
      have same : pc'.event = pc.event := RingBuffer.LockFreeQueue.push_event (by rw [goes])
      simp [current, inFlight, same, Obs.offered]
    · cases taken
      simp [current, inFlight, Obs.offered]
  next pc current =>
    split at taken <;> cases taken <;> simp [current, inFlight, Obs.offered]

theorem stepConsumer_offered {queue next : RingBuffer.State BenchmarkEvent capacity}
    {returned : RingBuffer.Obs BenchmarkEvent} (taken : RingBuffer.stepConsumer queue = some (next, returned)) :
    (Obs.queue returned).offered = none := by
  unfold RingBuffer.stepConsumer at taken
  split at taken
  · cases taken
  · split at taken <;> cases taken <;> rfl
  · split at taken <;> cases taken <;> rfl

theorem callPush_fresh {queue next : RingBuffer.State BenchmarkEvent capacity} {ev : BenchmarkEvent}
    {returned : RingBuffer.Obs BenchmarkEvent}
    (taken : RingBuffer.step queue (.callPush ev) = some (next, returned)) :
    next.producer = .push (.loadTail ev) ∧ inFlight queue.producer = [] ∧ returned = .silent := by
  cases current : queue.producer with
  | idle =>
    simp only [RingBuffer.step, current] at taken
    cases taken
    exact ⟨rfl, rfl, rfl⟩
  | _ => simp [RingBuffer.step, current] at taken

theorem stepMain_socket (taken : stepMain state answers = some (after, obs)) :
    after.socket = state.socket ∧ obs.offered = none := by
  unfold stepMain at taken
  cases current : state.main <;> simp only [current] at taken
  case joinReceiver | joinServer | joinWorker | report =>
    split at taken <;> cases taken
    exact ⟨rfl, rfl⟩
  case returned => cases taken
  all_goals
    cases taken
    exact ⟨rfl, rfl⟩

theorem stepServer_socket (taken : stepServer state answers = some (after, obs)) :
    after.socket = state.socket ∧ obs.offered = none := by
  unfold stepServer at taken
  cases current : state.server <;> simp only [current] at taken
  case notStarted | exited => cases taken
  case accepting =>
    split at taken
    · cases taken
    · split at taken <;> cases taken <;> exact ⟨rfl, rfl⟩
  case reading readable =>
    split at taken <;> cases taken
    exact ⟨rfl, rfl⟩
  case locking =>
    split at taken <;> cases taken
    exact ⟨rfl, rfl⟩
  all_goals
    cases taken
    exact ⟨rfl, rfl⟩

theorem stepWorker_producer (taken : stepWorker host state answers = some (after, obs)) :
    after.queue.producer = state.queue.producer ∧ after.socket = state.socket ∧ obs.offered = none := by
  unfold stepWorker at taken
  cases current : state.worker <;> simp only [current] at taken
  case notStarted | exited => cases taken
  case test =>
    split at taken
    · rcases access_eq_some taken with ⟨queue, returned, accessed, rfl, rfl⟩
      rcases RingBuffer.callPop_opens accessed with ⟨producer, _, rfl⟩
      exact ⟨producer, rfl, rfl⟩
    · cases taken
      exact ⟨rfl, rfl, rfl⟩
  case popping =>
    rcases access_eq_some taken with ⟨queue, returned, accessed, rfl, rfl⟩
    exact ⟨(RingBuffer.stepConsumer_keeps accessed).1, rfl, stepConsumer_offered accessed⟩
  case locking ev =>
    split at taken <;> cases taken
    exact ⟨rfl, rfl, rfl⟩
  all_goals
    cases taken
    exact ⟨rfl, rfl, rfl⟩

structure Elsewhere (state : State capacity) (label : Label) (obs : Obs) (after : State capacity) : Prop where
  producer : after.queue.producer = state.queue.producer
  socket : after.socket = state.socket ++ label.delivered
  offered : obs.offered = none
  listener : after.listener = state.listener ∨ state.main = .startReceiver ∧ after.listener = .setup

theorem step_elsewhere {label : Label} (other : label.turnOf .listener = false)
    (taken : step host state label = some (after, obs)) : Elsewhere state label obs after := by
  cases label with
  | thread thread answers =>
    cases thread with
    | main =>
      obtain ⟨socket, offered⟩ := stepMain_socket taken
      have moves := stepMain_moves taken
      exact ⟨by rw [moves.queue], socket.trans (List.append_nil _).symm, offered, moves.listener⟩
    | worker =>
      obtain ⟨producer, socket, offered⟩ := stepWorker_producer taken
      exact ⟨producer, socket.trans (List.append_nil _).symm, offered, Or.inl (stepWorker_moves taken).listener⟩
    | listener => cases other
    | server =>
      obtain ⟨socket, offered⟩ := stepServer_socket taken
      have moves := stepServer_moves taken
      exact ⟨by rw [moves.queue], socket.trans (List.append_nil _).symm, offered, Or.inl moves.listener⟩
  | scribble garbage =>
    have moves := step_scribbleMoves taken
    simp only [step] at taken
    rcases access_eq_some taken with ⟨queue, returned, accessed, rfl, rfl⟩
    obtain ⟨_, _, rfl⟩ := RingBuffer.scribble_keeps accessed
    exact ⟨moves.producer, (List.append_nil _).symm, rfl, Or.inl rfl⟩
  | datagram clientAddr bytes =>
    simp only [step] at taken
    split at taken <;> cases taken
    exact ⟨rfl, rfl, rfl, Or.inl rfl⟩
  | signal =>
    cases taken
    exact ⟨rfl, (List.append_nil _).symm, rfl, Or.inl rfl⟩
  | connection | clientBytes =>
    simp only [step] at taken
    split at taken <;> cases taken
    exact ⟨rfl, (List.append_nil _).symm, rfl, Or.inl rfl⟩

theorem stepListener_onward (taken : stepListener host state answers = some (after, obs)) :
    Onward host.endian state (.thread .listener answers) obs after := by
  unfold stepListener at taken
  unfold Onward
  cases current : state.listener <;> simp only [current] at taken
  case notStarted | exited => cases taken
  case setup | test =>
    cases taken
    simp [Obs.offered, arrivals, Label.delivered]
  case receiving =>
    split at taken
    · cases taken
    next clientAddr datagram socket waiting =>
      rw [waiting, arrivals, arrivals, List.flatMap_cons, arrivals]
      split at taken
      · cases taken
      next ignored =>
        cases taken
        rw [arrival_of_ignored ignored]
        simp [Obs.offered, Label.delivered]
      next ev offered =>
        rcases access_eq_some taken with ⟨queue, returned, accessed, rfl, rfl⟩
        obtain ⟨fresh, idle, rfl⟩ := callPush_fresh accessed
        rw [fresh, idle, arrival_of_offered offered]
        simp [inFlight, RingBuffer.PushPc.event, Obs.offered, Label.delivered]
  case pushing =>
    rcases access_eq_some taken with ⟨queue, returned, accessed, rfl, rfl⟩
    have moved := congrArg (List.map factsOf) (stepProducer_inFlight accessed)
    rw [List.map_append] at moved
    rw [← moved, List.append_assoc, List.append_assoc]
    simp [arrivals, Label.delivered]

theorem step_onward {label : Label} (taken : step host state label = some (after, obs)) :
    Onward host.endian state label obs after := by
  cases turn : label.turnOf .listener with
  | true =>
    obtain ⟨answers, rfl⟩ := eq_of_turnOf turn
    exact stepListener_onward taken
  | false =>
    have elsewhere := step_elsewhere turn taken
    unfold Onward
    rw [elsewhere.producer, elsewhere.socket, elsewhere.offered]
    simp [arrivals]

/-! ## The whole run -/

variable {buffer : Fin capacity → BenchmarkEvent} {world : EbpfFilter.World} {trace : Trace capacity}
  {final : State capacity}

def deliveries (trace : Trace capacity) : List (SockaddrIn × List Byte) :=
  trace.flatMap fun entry => entry.label.delivered

/-- The events whose `push` returned, with whatever result. -/
def offered (trace : Trace capacity) : List BenchmarkEvent := trace.filterMap fun entry => entry.obs.offered

/-- What was offered, then what is on its way, then what waits, is what arrived, in this order. -/
def Arrived (endian : Endian) (trace : Trace capacity) (state : State capacity) : Prop :=
  (offered trace).map factsOf ++ ((inFlight state.queue.producer).map factsOf ++ arrivals endian state.socket) =
    arrivals endian (deliveries trace)

theorem step_arrived {label : Label} (arrived : Arrived host.endian trace state)
    (taken : step host state label = some (after, obs)) :
    Arrived host.endian (trace ++ [⟨state, label, obs, after⟩]) after := by
  have longer : offered (trace ++ [⟨state, label, obs, after⟩]) = offered trace ++ obs.offered.toList := by
    cases returned : obs.offered <;> simp [offered, returned]
  have onward : Onward host.endian state label obs after := step_onward taken
  unfold Arrived at arrived ⊢
  calc (offered (trace ++ [⟨state, label, obs, after⟩])).map factsOf ++
        ((inFlight after.queue.producer).map factsOf ++ arrivals host.endian after.socket)
    _ = (offered trace).map factsOf ++ (obs.offered.toList.map factsOf ++
        ((inFlight after.queue.producer).map factsOf ++ arrivals host.endian after.socket)) := by
      rw [longer, List.map_append, List.append_assoc]
    _ = ((offered trace).map factsOf ++ ((inFlight state.queue.producer).map factsOf ++
        arrivals host.endian state.socket)) ++ arrivals host.endian label.delivered := by
      rw [onward]
      simp only [List.append_assoc]
    _ = arrivals host.endian (deliveries (trace ++ [⟨state, label, obs, after⟩])) := by
      rw [arrived]
      simp only [deliveries, arrivals, List.flatMap_append, List.flatMap_singleton]

theorem run_arrived (run : Run (machine host capacity) (initial capacity buffer world) trace final) :
    Arrived host.endian trace final := by
  refine run.history ?_ rfl
  intro trace state label obs next _ arrived taken
  exact step_arrived arrived taken

theorem offered_arrived (run : Run (machine host capacity) (initial capacity buffer world) trace final) :
    (offered trace).map factsOf <+: arrivals host.endian (deliveries trace) :=
  ⟨_, run_arrived run⟩

theorem accepted_sublist (trace : Trace capacity) : (accepted trace).Sublist (offered trace) := by
  induction trace with
  | nil => exact List.Sublist.refl _
  | cons entry trace ih =>
    rw [accepted, offered, List.filterMap_cons, List.filterMap_cons]
    cases pushed : entry.obs.pushed with
    | none =>
      cases entry.obs.offered with
      | none => exact ih
      | some ev => exact ih.cons ev
    | some ev =>
      rw [Obs.offered_of_pushed pushed]
      exact ih.cons_cons ev

theorem accepted_arrived (run : Run (machine host capacity) (initial capacity buffer world) trace final) :
    ((accepted trace).map factsOf).Sublist (arrivals host.endian (deliveries trace)) :=
  ((accepted_sublist trace).map factsOf).trans (offered_arrived run).sublist

end SentinelLab.Daemon
