import SentinelLab.DatagramCustody

/-! How soon an event that was accepted is recorded, and how soon a datagram that was delivered is
offered, counted in the turns of the one thread that does it, whatever the others do in between. -/

namespace SentinelLab.Daemon
open Benchmark NetworkIngest Library.Transition Library.Bytes

variable {capacity : ℕ+} {host : Host} {state after : State capacity} {answers : Answers} {obs : Obs}

def turnsOf (thread : Thread) (trace : Trace capacity) : Nat := trace.countP fun entry => entry.label.turnOf thread

/-! ## The worker -/

def popTurns : RingBuffer.Consumer BenchmarkEvent capacity → Nat
  | .pop (.loadTail _) => 6
  | .pop (.copy _) => 5
  | .pop (.storeHead _ _) => 4
  | _ => 7

/-- The turns of the worker until it has recorded one more event, when the queue holds one. -/
def State.turnsToRecord (state : State capacity) : Nat :=
  match state.worker with
  | .sleeping => 9
  | .popping => popTurns state.queue.consumer
  | .evaluating _ => 3
  | .locking _ => 2
  | .recording _ => 1
  | _ => 8

/-- The turns of the worker until it has recorded `count` events, when as many have been accepted. -/
def State.turnsDue (state : State capacity) (count : Nat) : Nat :=
  8 * (count - 1 - state.benchmarker.recordedEvents.length) + state.turnsToRecord

theorem turnsToRecord_bounds (state : State capacity) : 0 < state.turnsToRecord ∧ state.turnsToRecord ≤ 9 := by
  unfold State.turnsToRecord
  split
  case h_2 => unfold popTurns; split <;> decide
  all_goals decide

theorem access_flag {label : RingBuffer.Label BenchmarkEvent}
    {move : State capacity → RingBuffer.Obs BenchmarkEvent → State capacity}
    (taken : state.access label move = some (after, obs))
    (same : ∀ state returned, (move state returned).gLabRunning = state.gLabRunning) :
    after.gLabRunning = state.gLabRunning := by
  rcases access_eq_some taken with ⟨_, _, _, rfl, _⟩
  exact same _ _

theorem step_flag {label : Label} (handled : label = .signal → False)
    (taken : step host state label = some (after, obs)) : after.gLabRunning = state.gLabRunning := by
  cases label with
  | thread thread answers =>
    cases thread <;> simp only [step] at taken
    case main =>
      unfold stepMain at taken
      split at taken <;> (try split at taken) <;> cases taken <;> rfl
    case worker =>
      unfold stepWorker at taken
      split at taken <;> (try split at taken)
      case h_2.isTrue | h_3 => exact access_flag taken fun _ _ => rfl
      all_goals cases taken <;> rfl
    case listener =>
      unfold stepListener at taken
      split at taken
      case h_4 =>
        split at taken
        · cases taken
        · split at taken
          · cases taken
          · cases taken
            rfl
          · exact access_flag taken fun _ _ => rfl
      case h_5 => exact access_flag taken fun _ _ => rfl
      all_goals cases taken <;> rfl
    case server =>
      unfold stepServer at taken
      split at taken <;> (try split at taken) <;> (try split at taken) <;> cases taken <;> rfl
  | scribble garbage =>
    simp only [step] at taken
    exact access_flag taken fun _ _ => rfl
  | signal => exact absurd rfl handled
  | datagram clientAddr bytes | connection | clientBytes =>
    simp only [step] at taken
    split at taken <;> cases taken
    rfl

theorem step_stopped {label : Label} (stopped : state.gLabRunning = false)
    (taken : step host state label = some (after, obs)) : after.gLabRunning = false := by
  by_cases signalled : label = .signal
  · subst signalled
    cases taken
    rfl
  · rw [step_flag signalled taken, stopped]

theorem step_total {label : Label} (coordinated : Coordinated state)
    (taken : step host state label = some (after, obs)) :
    state.taken.length + state.queue.queue.contents.length ≤ after.taken.length + after.queue.queue.contents.length ∧
      state.taken.length ≤ after.taken.length := by
  have queue := congrArg List.length ((step_access taken).conserves coordinated.consistent)
  have worker : after.taken.map untouched = (state.taken ++ obs.popped.toList).map untouched :=
    step_workerKeeps coordinated taken
  have moved := congrArg List.length worker
  simp only [List.length_append, List.length_map] at queue moved
  omega

theorem turnsDue_of_same {count : Nat} (benchmarker : after.benchmarker = state.benchmarker)
    (turns : after.turnsToRecord ≤ state.turnsToRecord) : after.turnsDue count ≤ state.turnsDue count := by
  unfold State.turnsDue
  rw [benchmarker]
  omega

theorem turnsToRecord_of_same (worker : after.worker = state.worker)
    (consumer : after.queue.consumer = state.queue.consumer) : after.turnsToRecord = state.turnsToRecord := by
  unfold State.turnsToRecord
  rw [worker, consumer]

theorem stepConsumer_turns {queue next : RingBuffer.State BenchmarkEvent capacity}
    {returned : RingBuffer.Obs BenchmarkEvent} {pc : RingBuffer.PopPc BenchmarkEvent capacity}
    (consistent : RingBuffer.Consistent queue) (popping : queue.consumer = .pop pc)
    (occupied : queue.queue.contents ≠ [])
    (taken : RingBuffer.stepConsumer queue = some (next, returned)) :
    (returned = .silent ∧ popTurns next.consumer + 1 = popTurns queue.consumer) ∨
      ((∃ ev, returned = .popReturned (some ev)) ∧ popTurns queue.consumer = 4) := by
  have knows := consistent.consumer
  rw [popping] at knows
  simp only [RingBuffer.stepConsumer, popping] at taken
  cases pc with
  | loadHead =>
    cases taken
    exact Or.inl ⟨rfl, by rw [popping]; rfl⟩
  | loadTail currentHead =>
    have head : currentHead ≠ queue.queue.tail := by
      intro empty
      have same : currentHead = queue.queue.head := knows
      apply occupied
      rw [← List.length_eq_zero_iff, RingBuffer.LockFreeQueue.length_contents, RingBuffer.LockFreeQueue.length_eq_zero, ← same, empty]
    simp only [RingBuffer.LockFreeQueue.pop, if_neg head] at taken
    cases taken
    exact Or.inl ⟨rfl, by rw [popping]; rfl⟩
  | copy currentHead =>
    cases taken
    exact Or.inl ⟨rfl, by rw [popping]; rfl⟩
  | storeHead currentHead event =>
    cases taken
    exact Or.inr ⟨⟨event, rfl⟩, by rw [popping]; rfl⟩

theorem stepWorker_turns {count : Nat} (coordinated : Coordinated state) (running : state.gLabRunning = true)
    (few : state.benchmarker.recordedEvents.length < count)
    (owed : count ≤ state.taken.length + state.queue.queue.contents.length)
    (taken : stepWorker host state answers = some (after, obs)) :
    count ≤ after.benchmarker.recordedEvents.length ∨ after.turnsDue count + 1 ≤ state.turnsDue count := by
  unfold State.turnsDue State.turnsToRecord
  unfold stepWorker at taken
  cases current : state.worker <;> simp only [current] at taken
  case notStarted | exited => cases taken
  case test =>
    rw [if_pos running] at taken
    rcases access_eq_some taken with ⟨queue, returned, accessed, rfl, rfl⟩
    have at_most : popTurns queue.consumer ≤ 7 := by unfold popTurns; split <;> decide
    exact Or.inr (by dsimp only; omega)
  case popping =>
    rcases access_eq_some taken with ⟨queue, returned, accessed, rfl, rfl⟩
    obtain ⟨pc, popping⟩ := coordinated.calls.popping current
    have occupied : state.queue.queue.contents ≠ [] := by
      intro empty
      have held : state.worker.held = [] := by rw [current]; rfl
      simp only [State.taken, held, empty, List.append_nil, List.length_nil] at owed
      omega
    rcases stepConsumer_turns coordinated.consistent popping occupied accessed with
      ⟨rfl, fewer⟩ | ⟨⟨ev, rfl⟩, four⟩
    · exact Or.inr (by dsimp only [WorkerPc.afterPop]; omega)
    · exact Or.inr (by dsimp only [WorkerPc.afterPop]; omega)
  case evaluating ev =>
    cases taken
    exact Or.inr (by dsimp only; omega)
  case locking ev =>
    split at taken <;> cases taken
    exact Or.inr (by dsimp only; omega)
  case recording ev =>
    cases taken
    simp only [recordEvent, List.length_append, List.length_singleton]
    omega
  case sleeping =>
    cases taken
    exact Or.inr (by dsimp only; omega)

theorem stepListener_consumer (calls : Calls state) (taken : stepListener host state answers = some (after, obs)) :
    after.queue.consumer = state.queue.consumer := by
  unfold stepListener at taken
  cases current : state.listener <;> simp only [current] at taken
  case notStarted | exited => cases taken
  case setup | test =>
    cases taken
    rfl
  case receiving =>
    split at taken
    · cases taken
    · split at taken
      · cases taken
      · cases taken
        rfl
      · rcases access_eq_some taken with ⟨queue, returned, accessed, rfl, rfl⟩
        exact (RingBuffer.callPush_opens accessed).1
  case pushing =>
    rcases access_eq_some taken with ⟨queue, returned, accessed, rfl, rfl⟩
    obtain ⟨pc, pushing⟩ := calls.pushing current
    exact (RingBuffer.stepProducer_push pushing accessed).1

theorem step_turns_of_other {label : Label} (count : Nat) (coordinated : Coordinated state)
    (other : label.turnOf .worker = false) (taken : step host state label = some (after, obs)) :
    after.turnsDue count ≤ state.turnsDue count := by
  cases label with
  | thread thread answers =>
    cases thread with
    | worker => cases other
    | main =>
      have moves := stepMain_moves taken
      apply turnsDue_of_same moves.benchmarker
      rcases moves.worker with same | ⟨starting, started⟩
      · exact (turnsToRecord_of_same same (by rw [moves.queue])).le
      · have unstarted : state.worker = .notStarted :=
          coordinated.staged.worker_started.mpr (by simp [starting, MainPc.stage])
        simp [State.turnsToRecord, started, unstarted]
    | listener =>
      have moves := stepListener_moves taken
      exact turnsDue_of_same moves.benchmarker
        (turnsToRecord_of_same moves.worker (stepListener_consumer coordinated.calls taken)).le
    | server =>
      have moves := stepServer_moves taken
      exact turnsDue_of_same moves.benchmarker (turnsToRecord_of_same moves.worker (by rw [moves.queue])).le
  | scribble garbage =>
    have moves := step_scribbleMoves taken
    exact turnsDue_of_same moves.benchmarker (turnsToRecord_of_same moves.worker moves.consumer).le
  | _ =>
    have moves := step_outsideMoves rfl taken
    exact turnsDue_of_same moves.benchmarker (turnsToRecord_of_same moves.worker (by rw [moves.queue])).le

/-- What holds along a run in which the worker still owes a record. -/
structure Owing (count : Nat) (state : State capacity) : Prop where
  coordinated : Coordinated state
  owed : count ≤ state.taken.length + state.queue.queue.contents.length

theorem step_owing {count : Nat} {label : Label} (owing : Owing count state)
    (taken : step host state label = some (after, obs)) : Owing count after :=
  ⟨step_coordinated owing.coordinated taken, owing.owed.trans (step_total owing.coordinated taken).1⟩

def Caught (count : Nat) (state : State capacity) : Prop :=
  count ≤ state.benchmarker.recordedEvents.length ∨ state.gLabRunning = false

theorem recordedEvents_grow {label : Label} (staged : Staged state)
    (taken : step host state label = some (after, obs)) :
    state.benchmarker.recordedEvents.length ≤ after.benchmarker.recordedEvents.length := by
  cases step_effect staged taken with
  | unseen unseen => rw [unseen.benchmarker]
  | records current => simp [recordEvent]
  | _ => exact le_rfl

theorem step_caught {count : Nat} {label : Label} (owing : Owing count state) (caught : Caught count state)
    (taken : step host state label = some (after, obs)) : Caught count after := by
  rcases caught with recorded | stopped
  · exact Or.inl (recorded.trans (recordedEvents_grow owing.coordinated.staged taken))
  · exact Or.inr (step_stopped stopped taken)

theorem step_turns {count : Nat} {label : Label} (owing : Owing count state) (behind : ¬Caught count state)
    (taken : step host state label = some (after, obs)) :
    Caught count after ∨ after.turnsDue count + (label.turnOf .worker).toNat ≤ state.turnsDue count := by
  simp only [Caught, not_or, not_le, Bool.not_eq_false] at behind
  cases turn : label.turnOf .worker with
  | false => exact Or.inr (step_turns_of_other count owing.coordinated turn taken)
  | true =>
    cases label with
    | thread thread answers =>
      have worker : thread = .worker := by simpa [Label.turnOf] using turn
      subst worker
      exact (stepWorker_turns owing.coordinated behind.2 behind.1 owing.owed taken).imp_left Or.inl
    | _ => cases turn

section Runs

variable {buffer : Fin capacity → BenchmarkEvent} {world : EbpfFilter.World} {earlier later : Trace capacity}
  {middle final : State capacity}

/-- While the program is not told to stop, eight turns of the worker record one accepted event, and
one more turn is lost at the start. -/
theorem recorded_in_time (count : Nat) (coordinated : Coordinated middle)
    (owed : count ≤ middle.taken.length + middle.queue.queue.contents.length)
    (goesOn : Run (machine host capacity) middle later final) (running : final.gLabRunning = true)
    (enough : 8 * (count - middle.benchmarker.recordedEvents.length) + 1 ≤ turnsOf .worker later) :
    count ≤ final.benchmarker.recordedEvents.length := by
  have owing : Owing count middle := ⟨coordinated, owed⟩
  have response : Caught count final ∨ ¬Caught count middle ∧
      final.turnsDue count + turnsOf .worker later ≤ middle.turnsDue count := by
    apply goesOn.bounded_response owing (fun _ state => state.turnsDue count) (Label.turnOf .worker)
    · exact fun _ _ _ _ owing taken => step_owing owing taken
    · exact fun _ _ _ _ _ owing caught taken => step_caught owing caught taken
    · exact fun _ _ _ _ _ owing behind taken => step_turns owing behind taken
  rcases response with caught | ⟨behind, unpaid⟩
  · exact caught.resolve_right (by simp [running])
  · have few : middle.benchmarker.recordedEvents.length < count := Nat.lt_of_not_le fun enough => behind (Or.inl enough)
    have last := (turnsToRecord_bounds final).1
    have first := (turnsToRecord_bounds middle).2
    unfold State.turnsDue at unpaid
    omega

theorem accepted_recorded (run : Run (machine host capacity) (initial capacity buffer world) earlier middle)
    (goesOn : Run (machine host capacity) middle later final)
    (enough : (accepted earlier).length ≤ final.benchmarker.recordedEvents.length) :
    (accepted earlier).map untouched <+: final.benchmarker.recordedEvents.map untouched := by
  have log := log_accepted (run_balanced (run.trans goesOn))
  have first : (accepted earlier).map untouched <+: (accepted (earlier ++ later)).map untouched := by
    rw [accepted, accepted, List.filterMap_append, List.map_append]
    exact List.prefix_append _ _
  apply List.prefix_of_prefix_length_le first log
  rw [List.length_map, List.length_map]
  exact enough

end Runs

/-- Bounded response, over every interleaving: while the program is not told to stop, as soon as the
worker has taken eight turns for each accepted event that is not recorded yet, and one more, all of
them are recorded, in the order in which they were accepted. -/
theorem accepted_recorded_in_time (host : Host) (capacity : ℕ+) (buffer : Fin capacity → BenchmarkEvent)
    (world : EbpfFilter.World) (earlier later : Trace capacity) (middle final : State capacity)
    (run : Run (machine host capacity) (initial capacity buffer world) earlier middle)
    (goesOn : Run (machine host capacity) middle later final) (running : final.gLabRunning = true)
    (turns : 8 * ((accepted earlier).length - middle.benchmarker.recordedEvents.length) + 1 ≤
      turnsOf .worker later) :
    (accepted earlier).map untouched <+: final.benchmarker.recordedEvents.map untouched := by
  have owed : (accepted earlier).length ≤ middle.taken.length + middle.queue.queue.contents.length := by
    have balanced := congrArg List.length (run_balanced run)
    simp only [List.length_map, List.length_append] at balanced
    exact balanced.le
  exact accepted_recorded run goesOn (recorded_in_time _ (run_coordinated run) owed goesOn running turns)

/-! One event is accepted, and the worker takes nine turns. -/

private def oneWaits : List Label :=
  turns .main 3 ++ turns .listener 1 ++
    [.datagram ⟨(0xC3, 0x50), ⟨10, 0, 0, 1⟩⟩
      [0x53, 0x4C, 0x41, 0x42, 0, 0, 0, 0, 0, 0, 0, 1, 0, 0, 0, 0, 0, 0, 0, 1, 0, 0, 0x80, 0x3F]]

theorem accepted_recorded_in_time_one :
    ∃ earlier middle later final,
      (machine littleHost 65536).exec launched (oneWaits ++ turns .listener 6) = some (earlier, middle) ∧
        (machine littleHost 65536).exec middle (turns .worker 9) = some (later, final) ∧
        (accepted earlier).length = 1 ∧
        (accepted earlier).map untouched <+: final.benchmarker.recordedEvents.map untouched := by
  obtain ⟨⟨earlier, middle⟩, reached⟩ : ∃ result,
      (machine littleHost 65536).exec launched (oneWaits ++ turns .listener 6) = some result := ⟨_, rfl⟩
  obtain ⟨⟨later, final⟩, executed⟩ : ∃ result,
      (machine littleHost 65536).exec middle (turns .worker 9) = some result := by
    cases reached
    exact ⟨_, rfl⟩
  have seen : final.gLabRunning = true ∧ (accepted earlier).length = 1 ∧
      8 * ((accepted earlier).length - middle.benchmarker.recordedEvents.length) + 1 ≤ turnsOf .worker later := by
    cases reached
    cases executed
    exact ⟨rfl, rfl, le_rfl⟩
  have recorded := accepted_recorded_in_time littleHost 65536 _ _ earlier later middle final
    (Machine.exec_run reached) (Machine.exec_run executed) seen.1 seen.2.2
  exact ⟨earlier, middle, later, final, reached, executed, seen.2.1, recorded⟩

/-! ## The listener -/

/-- The datagrams that are not offered yet, from the one on its way on, are the last that arrived. -/
def Queued (endian : Endian) (trace : Trace capacity) (state : State capacity) : Prop :=
  ∃ current, current ++ state.socket <:+ deliveries trace ∧
    current.length = (inFlight state.queue.producer).length ∧
    arrivals endian current = (inFlight state.queue.producer).map factsOf

def State.waiting (state : State capacity) : Nat := (inFlight state.queue.producer).length + state.socket.length

theorem deliveries_snoc (trace : Trace capacity) (label : Label) :
    deliveries (trace ++ [⟨state, label, obs, after⟩]) = deliveries trace ++ label.delivered := by
  simp only [deliveries, List.flatMap_append, List.flatMap_singleton]

theorem deliveries_of_turn (trace : Trace capacity) (thread : Thread) (answers : Answers) :
    deliveries (trace ++ [⟨state, .thread thread answers, obs, after⟩]) = deliveries trace := by
  rw [deliveries_snoc]
  exact List.append_nil _

theorem stepProducer_return {queue next : RingBuffer.State BenchmarkEvent capacity}
    {returned : RingBuffer.Obs BenchmarkEvent} {pc : RingBuffer.PushPc BenchmarkEvent capacity}
    (pushing : queue.producer = .push pc) (taken : RingBuffer.stepProducer queue = some (next, returned)) :
    (inFlight next.producer = inFlight queue.producer ∧ returned = .silent) ∨
      (inFlight next.producer = [] ∧ ∃ result, returned = .pushReturned pc.event result) := by
  have moved := stepProducer_inFlight taken
  rcases (RingBuffer.stepProducer_push pushing taken).2 with ⟨pc', goes, rfl⟩ | ⟨result, returns, rfl⟩
  · exact Or.inl ⟨moved, rfl⟩
  · exact Or.inr ⟨by rw [returns]; rfl, result, rfl⟩

theorem stepListener_queued {trace : Trace capacity} (calls : Calls state)
    (queued : Queued host.endian trace state) (taken : stepListener host state answers = some (after, obs)) :
    Queued host.endian (trace ++ [⟨state, .thread .listener answers, obs, after⟩]) after := by
  unfold stepListener at taken
  cases current : state.listener <;> simp only [current] at taken
  case notStarted | exited => cases taken
  case setup | test =>
    cases taken
    unfold Queued
    rw [deliveries_of_turn]
    exact queued
  case receiving =>
    split at taken
    · cases taken
    next clientAddr datagram socket pending =>
      have idle : inFlight state.queue.producer = [] := by
        rw [calls.idle (by simp [current])]
        rfl
      obtain ⟨first, suffix, length, _⟩ := queued
      rw [idle, List.length_nil, List.length_eq_zero_iff] at length
      rw [length, List.nil_append, pending] at suffix
      unfold Queued
      rw [deliveries_of_turn]
      split at taken
      · cases taken
      · cases taken
        exact ⟨[], (List.suffix_cons _ _).trans suffix, by rw [idle]; rfl, by rw [idle]; rfl⟩
      next ev offered =>
        rcases access_eq_some taken with ⟨queue, returned, accessed, rfl, rfl⟩
        obtain ⟨fresh, _, _⟩ := callPush_fresh accessed
        refine ⟨[(clientAddr, datagram)], suffix, by rw [fresh]; rfl, ?_⟩
        rw [fresh, arrivals, List.flatMap_singleton, arrival_of_offered offered]
        rfl
  case pushing =>
    rcases access_eq_some taken with ⟨queue, returned, accessed, rfl, rfl⟩
    obtain ⟨pc, pushing⟩ := calls.pushing current
    rcases stepProducer_return pushing accessed with ⟨same, _⟩ | ⟨empty, _⟩
    · obtain ⟨first, suffix, length, facts⟩ := queued
      unfold Queued
      rw [same, deliveries_of_turn]
      exact ⟨first, suffix, length, facts⟩
    · obtain ⟨first, suffix, _, _⟩ := queued
      refine ⟨[], ?_, by rw [empty]; rfl, by rw [empty]; rfl⟩
      rw [deliveries_of_turn]
      exact (List.suffix_append first state.socket).trans suffix

theorem step_queued {trace : Trace capacity} {label : Label} (calls : Calls state)
    (queued : Queued host.endian trace state) (taken : step host state label = some (after, obs)) :
    Queued host.endian (trace ++ [⟨state, label, obs, after⟩]) after := by
  cases turn : label.turnOf .listener with
  | true =>
    obtain ⟨answers, rfl⟩ := eq_of_turnOf turn
    exact stepListener_queued calls queued taken
  | false =>
    have elsewhere := step_elsewhere turn taken
    obtain ⟨current, ⟨handled, suffix⟩, length, facts⟩ := queued
    unfold Queued
    rw [elsewhere.producer, elsewhere.socket, deliveries_snoc, ← suffix]
    exact ⟨current, ⟨handled, by simp only [List.append_assoc]⟩, length, facts⟩

def pushTurns : RingBuffer.Producer BenchmarkEvent capacity → Nat
  | .push (.loadHead _ _ _) => 3
  | .push (.write _ _ _) => 2
  | .push (.storeTail _ _) => 1
  | _ => 4

/-- The turns of the listener until it has offered one more datagram, when one waits. -/
def State.turnsToOffer (state : State capacity) : Nat :=
  match state.listener with
  | .test => 6
  | .receiving => 5
  | .pushing => pushTurns state.queue.producer
  | _ => 7

/-- How many datagrams wait that were there before `later`. -/
def State.behind (later : Trace capacity) (state : State capacity) : Nat := state.waiting - (deliveries later).length

def State.turnsToServe (later : Trace capacity) (state : State capacity) : Nat :=
  6 * (state.behind later - 1) + state.turnsToOffer

def Served (later : Trace capacity) (state : State capacity) : Prop :=
  state.behind later = 0 ∨ state.listener = .exited

theorem turnsToOffer_bounds (state : State capacity) : 0 < state.turnsToOffer ∧ state.turnsToOffer ≤ 7 := by
  unfold State.turnsToOffer
  split
  case h_3 => unfold pushTurns; split <;> decide
  all_goals decide

theorem stepProducer_turns {queue next : RingBuffer.State BenchmarkEvent capacity}
    {returned : RingBuffer.Obs BenchmarkEvent} {pc : RingBuffer.PushPc BenchmarkEvent capacity}
    (pushing : queue.producer = .push pc) (taken : RingBuffer.stepProducer queue = some (next, returned)) :
    (ListenerPc.afterPush returned = .pushing ∧ inFlight next.producer = inFlight queue.producer ∧
        pushTurns next.producer + 1 = pushTurns queue.producer) ∨
      (ListenerPc.afterPush returned = .test ∧ inFlight next.producer = []) := by
  have moved := stepProducer_return pushing taken
  rcases moved with ⟨same, rfl⟩ | ⟨empty, result, rfl⟩
  · refine Or.inl ⟨rfl, same, ?_⟩
    simp only [RingBuffer.stepProducer, pushing] at taken
    rw [pushing]
    cases pc with
    | loadHead event currentTail nextTail =>
      by_cases full : nextTail = queue.queue.head
      · simp only [RingBuffer.LockFreeQueue.push, if_pos full] at taken
        cases taken
      · simp only [RingBuffer.LockFreeQueue.push, if_neg full] at taken
        cases taken
        rfl
    | loadTail event | write event currentTail nextTail =>
      cases taken
      rfl
    | storeTail event nextTail => cases taken
  · exact Or.inr ⟨rfl, empty⟩

theorem stepListener_turns {later : Trace capacity} (calls : Calls state) (behind : 0 < state.behind later)
    (taken : stepListener host state answers = some (after, obs)) :
    Served (later ++ [⟨state, .thread .listener answers, obs, after⟩]) after ∨
      after.turnsToServe (later ++ [⟨state, .thread .listener answers, obs, after⟩]) + 1 ≤ state.turnsToServe later := by
  have waits : (deliveries later).length < (inFlight state.queue.producer).length + state.socket.length :=
    Nat.lt_of_sub_pos behind
  unfold Served State.turnsToServe State.turnsToOffer State.behind State.waiting
  rw [deliveries_of_turn]
  unfold stepListener at taken
  cases current : state.listener <;> simp only [current] at taken
  case notStarted | exited => cases taken
  case setup =>
    cases taken
    cases answers.bound
    · exact Or.inl (Or.inr rfl)
    · exact Or.inr le_rfl
  case test =>
    cases taken
    cases state.receiverRunning
    · exact Or.inl (Or.inr rfl)
    · exact Or.inr le_rfl
  case receiving =>
    have idle : (inFlight state.queue.producer).length = 0 := by
      rw [calls.idle (by simp [current])]
      rfl
    split at taken
    · cases taken
    next clientAddr datagram socket pending =>
      rw [pending, List.length_cons] at waits ⊢
      split at taken
      · cases taken
      · cases taken
        dsimp only
        omega
      next ev offered =>
        rcases access_eq_some taken with ⟨queue, returned, accessed, rfl, rfl⟩
        obtain ⟨fresh, _, _⟩ := callPush_fresh accessed
        have one : (inFlight queue.producer).length = 1 := by rw [fresh]; rfl
        have four : pushTurns queue.producer = 4 := by rw [fresh]; rfl
        dsimp only
        omega
  case pushing =>
    rcases access_eq_some taken with ⟨queue, returned, accessed, rfl, rfl⟩
    obtain ⟨pc, pushing⟩ := calls.pushing current
    have one : (inFlight state.queue.producer).length = 1 := by rw [pushing]; rfl
    rcases stepProducer_turns pushing accessed with ⟨goes, same, fewer⟩ | ⟨returns, empty⟩
    · rw [← same] at one
      dsimp only
      rw [goes, ← same]
      dsimp only
      omega
    · have positive : 0 < pushTurns state.queue.producer := by unfold pushTurns; split <;> decide
      dsimp only
      rw [returns, empty]
      simp only [List.length_nil]
      omega

theorem step_serve_of_other (later : Trace capacity) {label : Label} (staged : Staged state)
    (other : label.turnOf .listener = false) (taken : step host state label = some (after, obs)) :
    after.behind (later ++ [⟨state, label, obs, after⟩]) = state.behind later ∧
      after.turnsToOffer = state.turnsToOffer := by
  have elsewhere := step_elsewhere other taken
  constructor
  · unfold State.behind State.waiting
    rw [deliveries_snoc, elsewhere.producer, elsewhere.socket, List.length_append, List.length_append]
    omega
  · unfold State.turnsToOffer
    rw [elsewhere.producer]
    rcases elsewhere.listener with same | ⟨starting, started⟩
    · rw [same]
    · have unstarted : state.listener = .notStarted :=
        staged.listener_started.mpr (by simp [starting, MainPc.stage])
      rw [started, unstarted]

theorem stepListener_waiting (calls : Calls state) (taken : stepListener host state answers = some (after, obs)) :
    after.waiting ≤ state.waiting := by
  unfold stepListener at taken
  unfold State.waiting
  cases current : state.listener <;> simp only [current] at taken
  case notStarted | exited => cases taken
  case setup | test =>
    cases taken
    exact le_rfl
  case receiving =>
    split at taken
    · cases taken
    next clientAddr datagram socket pending =>
      rw [pending, List.length_cons]
      split at taken
      · cases taken
      · cases taken
        dsimp only
        omega
      · rcases access_eq_some taken with ⟨queue, returned, accessed, rfl, rfl⟩
        have one : (inFlight queue.producer).length = 1 := by
          rw [(callPush_fresh accessed).1]
          rfl
        dsimp only
        omega
  case pushing =>
    rcases access_eq_some taken with ⟨queue, returned, accessed, rfl, rfl⟩
    obtain ⟨pc, pushing⟩ := calls.pushing current
    dsimp only
    rcases stepProducer_return pushing accessed with ⟨same, _⟩ | ⟨empty, _⟩
    · rw [same]
    · rw [empty, List.length_nil]
      omega

theorem step_served {later : Trace capacity} {label : Label} (coordinated : Coordinated state)
    (served : Served later state) (taken : step host state label = some (after, obs)) :
    Served (later ++ [⟨state, label, obs, after⟩]) after := by
  cases turn : label.turnOf .listener with
  | true =>
    obtain ⟨answers, rfl⟩ := eq_of_turnOf turn
    rcases served with none_behind | ended
    · left
      have fewer := stepListener_waiting coordinated.calls taken
      unfold State.behind at none_behind ⊢
      rw [deliveries_of_turn]
      omega
    · exact absurd ended (stepListener_moves taken).running.2
  | false =>
    have same := step_serve_of_other later coordinated.staged turn taken
    rcases served with none_behind | ended
    · exact Or.inl (same.1.trans none_behind)
    · rcases (step_elsewhere turn taken).listener with stays | ⟨starting, _⟩
      · exact Or.inr (stays.trans ended)
      · have unstarted : state.listener = .notStarted :=
          coordinated.staged.listener_started.mpr (by simp [starting, MainPc.stage])
        rw [ended] at unstarted
        cases unstarted

theorem step_serves {later : Trace capacity} {label : Label} (coordinated : Coordinated state)
    (unserved : ¬Served later state) (taken : step host state label = some (after, obs)) :
    Served (later ++ [⟨state, label, obs, after⟩]) after ∨
      after.turnsToServe (later ++ [⟨state, label, obs, after⟩]) + (label.turnOf .listener).toNat ≤
        state.turnsToServe later := by
  cases turn : label.turnOf .listener with
  | true =>
    obtain ⟨answers, rfl⟩ := eq_of_turnOf turn
    have behind : 0 < state.behind later := Nat.pos_of_ne_zero fun none_behind => unserved (Or.inl none_behind)
    exact stepListener_turns coordinated.calls behind taken
  | false =>
    obtain ⟨behind, turns⟩ := step_serve_of_other later coordinated.staged turn taken
    unfold State.turnsToServe
    rw [behind, turns]
    exact Or.inr le_rfl

theorem run_queued {buffer : Fin capacity → BenchmarkEvent} {world : EbpfFilter.World} {trace : Trace capacity}
    {final : State capacity} (run : Run (machine host capacity) (initial capacity buffer world) trace final) :
    Queued host.endian trace final := by
  refine run.history ?_ ⟨[], List.nil_suffix, rfl, rfl⟩
  intro trace state label obs next earlier queued taken
  exact step_queued (run_coordinated earlier).calls queued taken

theorem deliveries_append (earlier later : Trace capacity) :
    deliveries (earlier ++ later) = deliveries earlier ++ deliveries later := List.flatMap_append

theorem offered_of_none_behind {endian : Endian} {earlier later : Trace capacity}
    (arrived : Arrived endian (earlier ++ later) state) (queued : Queued endian (earlier ++ later) state)
    (none_behind : state.behind later = 0) :
    arrivals endian (deliveries earlier) <+: (offered (earlier ++ later)).map factsOf := by
  obtain ⟨current, suffix, length, facts⟩ := queued
  rw [deliveries_append] at suffix
  have short : (current ++ state.socket).length ≤ (deliveries later).length := by
    unfold State.behind State.waiting at none_behind
    rw [List.length_append, length]
    omega
  obtain ⟨handled, split⟩ := List.suffix_of_suffix_length_le suffix (List.suffix_append _ _) short
  have waiting : (inFlight state.queue.producer).map factsOf ++ arrivals endian state.socket =
      arrivals endian (current ++ state.socket) := by
    rw [← facts, arrivals, arrivals, arrivals, List.flatMap_append]
  have all : (offered (earlier ++ later)).map factsOf ++ arrivals endian (current ++ state.socket) =
      (arrivals endian (deliveries earlier) ++ arrivals endian handled) ++
        arrivals endian (current ++ state.socket) := by
    calc _ = arrivals endian (deliveries (earlier ++ later)) := by
          rw [← waiting]
          exact arrived
      _ = _ := by
          rw [deliveries_append, ← split]
          simp only [arrivals, List.flatMap_append, List.append_assoc]
  rw [List.append_cancel_right all]
  exact List.prefix_append _ _

/-- Bounded response of the listener, over every interleaving: as soon as it has taken six turns for
each datagram that waited, and one more, or has nothing left to receive, every complete frame that
had arrived before has been offered to the queue, once and in the order of arrival, and nothing else. -/
theorem delivered_offered_in_time (host : Host) (capacity : ℕ+) (buffer : Fin capacity → BenchmarkEvent)
    (world : EbpfFilter.World) (earlier later : Trace capacity) (middle final : State capacity)
    (run : Run (machine host capacity) (initial capacity buffer world) earlier middle)
    (goesOn : Run (machine host capacity) middle later final) (listening : final.listener ≠ .exited)
    (turns : 6 * middle.waiting + 1 ≤ turnsOf .listener later ∨
      final.listener = .receiving ∧ final.socket = []) :
    arrivals host.endian (deliveries earlier) <+: (offered (earlier ++ later)).map factsOf ∧
      (offered (earlier ++ later)).map factsOf <+: arrivals host.endian (deliveries (earlier ++ later)) := by
  have whole := run.trans goesOn
  refine ⟨offered_of_none_behind (run_arrived whole) (run_queued whole) ?_, offered_arrived whole⟩
  rcases turns with many | ⟨receiving, empty⟩
  · have response : Served later final ∨ ¬Served [] middle ∧
        final.turnsToServe later + turnsOf .listener later ≤ middle.turnsToServe [] := by
      apply goesOn.bounded_response (run_coordinated run) (fun later state => state.turnsToServe later)
        (Label.turnOf .listener)
      · exact fun _ _ _ _ coordinated taken => step_coordinated coordinated taken
      · exact fun _ _ _ _ _ coordinated served taken => step_served coordinated served taken
      · exact fun _ _ _ _ _ coordinated unserved taken => step_serves coordinated unserved taken
    rcases response with served | ⟨unserved, unpaid⟩
    · exact served.resolve_right listening
    · have last := (turnsToOffer_bounds final).1
      have first := (turnsToOffer_bounds middle).2
      have some_wait : middle.waiting ≠ 0 := fun none => unserved (Or.inl (by rw [State.behind, none, Nat.zero_sub]))
      have fresh : (deliveries ([] : Trace capacity)).length = 0 := rfl
      unfold State.turnsToServe State.behind at unpaid
      unfold State.behind
      rw [fresh] at unpaid
      omega
  · have idle : inFlight final.queue.producer = [] := by
      rw [(run_coordinated whole).calls.idle (by simp [receiving])]
      rfl
    unfold State.behind State.waiting
    rw [idle, empty]
    exact Nat.zero_sub _

/-! The one datagram waits, and the listener takes seven turns. -/

theorem delivered_offered_in_time_one :
    ∃ earlier middle later final,
      (machine littleHost 65536).exec launched oneWaits = some (earlier, middle) ∧
        (machine littleHost 65536).exec middle (turns .listener 7) = some (later, final) ∧ middle.waiting = 1 ∧
        arrivals .little (deliveries earlier) <+: (offered (earlier ++ later)).map factsOf ∧
        (offered (earlier ++ later)).map factsOf <+: arrivals .little (deliveries (earlier ++ later)) := by
  obtain ⟨⟨earlier, middle⟩, reached⟩ : ∃ result,
      (machine littleHost 65536).exec launched oneWaits = some result := ⟨_, rfl⟩
  obtain ⟨⟨later, final⟩, executed⟩ : ∃ result,
      (machine littleHost 65536).exec middle (turns .listener 7) = some result := by
    cases reached
    exact ⟨_, rfl⟩
  have seen : final.listener = .receiving ∧ middle.waiting = 1 ∧
      6 * middle.waiting + 1 ≤ turnsOf .listener later := by
    cases reached
    cases executed
    exact ⟨rfl, rfl, le_rfl⟩
  have offered_all := delivered_offered_in_time littleHost 65536 _ _ earlier later middle final
    (Machine.exec_run reached) (Machine.exec_run executed) (by rw [seen.1]; decide) (Or.inl seen.2.2)
  exact ⟨earlier, middle, later, final, reached, executed, seen.2.1, offered_all⟩

end SentinelLab.Daemon
