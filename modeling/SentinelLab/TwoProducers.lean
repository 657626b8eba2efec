import SentinelLab.NetworkIngest
import SentinelLab.RingBufferOrder

/-! The queue with the two producers that `NetworkIngestReceiver` gives it: its listener thread and a caller
of `inject_batch`. Each of them makes the accesses of `push` by itself. -/

namespace SentinelLab.TwoProducers
open Inet Benchmark NetworkIngest RingBuffer Library.Transition Library.Bytes

inductive Caller where
  | listener
  | injector
  deriving DecidableEq, Repr

def Caller.other : Caller → Caller
  | .listener => .injector
  | .injector => .listener

/-- `batch` is what `inject_batch` has not pushed yet. -/
structure State (capacity : ℕ+) where
  queue : LockFreeQueue BenchmarkEvent capacity
  producer : Caller → Producer BenchmarkEvent capacity
  consumer : Consumer BenchmarkEvent capacity
  batch : List BenchmarkEvent

/-- `push` and `pop` make the pending access of a call. `scribble` is a moment inside the copy assignment of
a `push`, `nextEvent` the next round of the loop of `inject_batch`. -/
inductive Label where
  | datagram (now : Int) (clientAddr : SockaddrIn) (bytes : List Byte)
  | injectBatch (batch : List BenchmarkEvent)
  | nextEvent
  | push (caller : Caller)
  | scribble (caller : Caller) (garbage : BenchmarkEvent)
  | callPop
  | pop

variable {capacity : ℕ+}

def State.access (state : State capacity) (caller : Caller) (label : RingBuffer.Label BenchmarkEvent) :
    Option (State capacity × Obs BenchmarkEvent) :=
  (RingBuffer.step ⟨state.queue, state.producer caller, state.consumer⟩ label).map fun (after, obs) =>
    ({ state with queue := after.queue, producer := Function.update state.producer caller after.producer }, obs)

def State.accessPop (state : State capacity) (label : RingBuffer.Label BenchmarkEvent) :
    Option (State capacity × Obs BenchmarkEvent) :=
  (RingBuffer.step ⟨state.queue, .idle, state.consumer⟩ label).map fun (after, obs) =>
    ({ state with queue := after.queue, consumer := after.consumer }, obs)

def step (host : Endian) (inetNtop : InAddr → String) (state : State capacity) :
    Label → Option (State capacity × Obs BenchmarkEvent)
  | .datagram now clientAddr bytes =>
      match state.producer .listener, ingest host inetNtop now clientAddr bytes with
      | .idle, some none => some (state, .silent)
      | .idle, some (some ev) => state.access .listener (.callPush ev)
      | _, _ => none
  | .injectBatch batch =>
      match state.producer .injector, state.batch with
      | .idle, [] => some ({ state with batch }, .silent)
      | _, _ => none
  | .nextEvent =>
      match state.batch with
      | [] => none
      | ev :: rest => (state.access .injector (.callPush ev)).map fun (after, obs) => ({ after with batch := rest }, obs)
  | .push caller => state.access caller .producer
  | .scribble caller garbage => state.access caller (.scribble garbage)
  | .callPop => state.accessPop .callPop
  | .pop => state.accessPop .consumer

def machine (host : Endian) (inetNtop : InAddr → String) (capacity : ℕ+) :
    Machine (State capacity) Label (Obs BenchmarkEvent) := ⟨step host inetNtop⟩

def initial (capacity : ℕ+) (buffer : Fin capacity → BenchmarkEvent) : State capacity where
  queue := (RingBuffer.initial capacity buffer).queue
  producer _ := .idle
  consumer := .idle
  batch := []

abbrev Trace (capacity : ℕ+) := List (Entry (State capacity) Label (Obs BenchmarkEvent))

/-- The events whose `push` returned true, in the order of the returns. -/
def pushed (trace : Trace capacity) : List BenchmarkEvent := trace.filterMap fun entry => entry.obs.pushed

def popped (trace : Trace capacity) : List BenchmarkEvent := trace.filterMap fun entry => entry.obs.popped

/-- What was accepted has been popped, once and unmodified, or is still in the queue; and nothing else has. -/
def DeliversOnce (trace : Trace capacity) (final : State capacity) : Prop :=
  pushed trace = popped trace ++ final.queue.contents

/-! ## Pushes that do not overlap -/

/-- Between the check for a full queue and the store of the tail. -/
def Committed : Producer BenchmarkEvent capacity → Prop
  | .push (.write _ _ _) | .push (.storeTail _ _) => True
  | _ => False

instance : DecidablePred (@Committed capacity)
  | .push (.write _ _ _) | .push (.storeTail _ _) => isTrue trivial
  | .push (.loadTail _) | .push (.loadHead _ _ _) | .idle | .size _ => isFalse not_false

/-- The producer whose `push` finds room in a step, with the tail that it has loaded. -/
def entering (state : State capacity) : Label → Option (Caller × Fin capacity)
  | .push caller =>
      match state.producer caller with
      | .push (.loadHead _ currentTail nextTail) =>
          if nextTail = state.queue.head then none else some (caller, currentTail)
      | _ => none
  | _ => none

/-- A `push` that finds room has loaded the tail that is still the tail, and the other producer is not about to
write as well. -/
def EntersAlone (state : State capacity) (label : Label) : Prop :=
  ∀ entered ∈ entering state label,
    entered.2 = state.queue.tail ∧ ¬Committed (state.producer entered.1.other)

instance (state : State capacity) (label : Label) : Decidable (EntersAlone state label) :=
  inferInstanceAs (Decidable (∀ entered ∈ entering state label, _))

/-- The locals of a producer before it is committed; only they may be stale. -/
def Locals : Producer BenchmarkEvent capacity → Prop
  | .push (.loadHead _ currentTail nextTail) => nextTail = next currentTail
  | .size _ => False
  | _ => True

structure Exclusive (state : State capacity) : Prop where
  locals : ∀ caller, Locals (state.producer caller)
  alone : ∀ caller, Committed (state.producer caller) → ¬Committed (state.producer caller.other)
  producer : ∀ caller, Committed (state.producer caller) → ProducerKnows state.queue (state.producer caller)
  consumer : ConsumerKnows state.queue state.consumer

theorem eq_or_eq_other (caller first : Caller) : first = caller ∨ first = caller.other := by
  cases caller <;> cases first <;> simp [Caller.other]

theorem other_ne (caller : Caller) : caller.other ≠ caller := by
  cases caller <;> decide

theorem other_other (caller : Caller) : caller.other.other = caller := by
  cases caller <;> rfl

theorem Exclusive.update {state : State capacity} (exclusive : Exclusive state) {caller : Caller}
    {queue : LockFreeQueue BenchmarkEvent capacity} {moved : Producer BenchmarkEvent capacity} (locals : Locals moved)
    (alone : Committed moved → ¬Committed (state.producer caller.other))
    (knows : Committed moved → ProducerKnows queue moved)
    (others : Committed (state.producer caller.other) → ProducerKnows queue (state.producer caller.other))
    (consumer : ConsumerKnows queue state.consumer) :
    Exclusive { state with queue, producer := Function.update state.producer caller moved } := by
  have self : Function.update state.producer caller moved caller = moved := Function.update_self ..
  have rest : Function.update state.producer caller moved caller.other = state.producer caller.other :=
    Function.update_of_ne (other_ne caller) ..
  constructor
  · intro first
    rcases eq_or_eq_other caller first with rfl | rfl
    · dsimp only
      rw [self]
      exact locals
    · dsimp only
      rw [rest]
      exact exclusive.locals caller.other
  · intro first
    rcases eq_or_eq_other caller first with rfl | rfl
    · dsimp only
      rw [self, rest]
      exact alone
    · dsimp only
      rw [other_other, self, rest]
      intro committed both
      exact alone both committed
  · intro first
    rcases eq_or_eq_other caller first with rfl | rfl
    · dsimp only
      rw [self]
      exact knows
    · dsimp only
      rw [rest]
      exact others
  · exact consumer

theorem Exclusive.outside {state : State capacity} (exclusive : Exclusive state) {caller : Caller}
    {queue : LockFreeQueue BenchmarkEvent capacity} {moved : Producer BenchmarkEvent capacity} (locals : Locals moved)
    (free : ¬Committed moved)
    (others : Committed (state.producer caller.other) → ProducerKnows queue (state.producer caller.other))
    (consumer : ConsumerKnows queue state.consumer) :
    Exclusive { state with queue, producer := Function.update state.producer caller moved } := by
  apply exclusive.update locals _ _ others consumer
  · intro committed
    exact absurd committed free
  · intro committed
    exact absurd committed free

variable {state after : State capacity} {obs : Obs BenchmarkEvent} {caller : Caller}

theorem access_eq_some {label : RingBuffer.Label BenchmarkEvent} (taken : state.access caller label = some (after, obs)) :
    ∃ moved, RingBuffer.step ⟨state.queue, state.producer caller, state.consumer⟩ label = some (moved, obs) ∧
      after = { state with
        queue := moved.queue, producer := Function.update state.producer caller moved.producer } := by
  simp only [State.access, Option.map_eq_some_iff, Prod.exists, Prod.mk.injEq] at taken
  obtain ⟨moved, _, accessed, rfl, rfl⟩ := taken
  exact ⟨moved, accessed, rfl⟩

structure Ledger (state : State capacity) (obs : Obs BenchmarkEvent) (after : State capacity) : Prop where
  conserves : state.queue.contents ++ obs.pushed.toList = obs.popped.toList ++ after.queue.contents
  empty : obs = .popReturned none → after.queue.contents = []

theorem ledger_of_silent {queue : LockFreeQueue BenchmarkEvent capacity} (same : queue.contents = state.queue.contents)
    (queued : after.queue = queue) : Ledger state .silent after := by
  constructor
  · rw [queued, same]
    exact List.append_nil _
  · intro found
    cases found

theorem callPush_exclusive {ev : BenchmarkEvent} (exclusive : Exclusive state)
    (taken : state.access caller (.callPush ev) = some (after, obs)) : Exclusive after ∧ Ledger state obs after := by
  obtain ⟨moved, opened, rfl⟩ := access_eq_some taken
  simp only [RingBuffer.step] at opened
  split at opened <;> cases opened
  exact ⟨exclusive.outside trivial not_false (exclusive.producer _) exclusive.consumer, ledger_of_silent rfl rfl⟩

theorem push_exclusive (exclusive : Exclusive state) (enters : EntersAlone state (.push caller))
    (taken : state.access caller .producer = some (after, obs)) : Exclusive after ∧ Ledger state obs after := by
  obtain ⟨moved, accessed, rfl⟩ := access_eq_some taken
  have locals := exclusive.locals caller
  have alone := exclusive.alone caller
  have knows := exclusive.producer caller
  simp only [RingBuffer.step] at accessed
  generalize current : state.producer caller = own at accessed locals alone knows
  cases own with
  | idle => cases accessed
  | size pc => exact locals.elim
  | push pc =>
    cases pc with
    | loadTail ev =>
      cases accessed
      exact ⟨exclusive.outside rfl not_false (exclusive.producer _) exclusive.consumer, ledger_of_silent rfl rfl⟩
    | loadHead ev currentTail nextTail =>
      have tail : nextTail = next currentTail := locals
      by_cases full : nextTail = state.queue.head
      · simp only [stepProducer, LockFreeQueue.push, if_pos full, Option.some.injEq, Prod.mk.injEq] at accessed
        obtain ⟨rfl, rfl⟩ := accessed
        refine ⟨exclusive.outside trivial not_false (exclusive.producer _) exclusive.consumer, ?_, ?_⟩
        · exact List.append_nil _
        · intro found
          cases found
      · simp only [stepProducer, LockFreeQueue.push, if_neg full, Option.some.injEq, Prod.mk.injEq] at accessed
        obtain ⟨rfl, rfl⟩ := accessed
        obtain ⟨fresh, other⟩ : currentTail = state.queue.tail ∧ ¬Committed (state.producer caller.other) :=
          enters (caller, currentTail) (by simp [entering, current, full])
        have known : ProducerKnows state.queue (.push (.write ev currentTail nextTail)) := by
          rw [fresh] at tail
          exact ⟨fresh, tail, tail ▸ full⟩
        exact ⟨exclusive.update trivial (fun _ => other) (fun _ => known) (exclusive.producer _) exclusive.consumer,
          ledger_of_silent rfl rfl⟩
    | write ev currentTail nextTail =>
      cases accessed
      obtain ⟨fresh, tail, room⟩ := knows trivial
      subst fresh
      have written : ProducerKnows { state.queue with buffer := Function.update state.queue.buffer state.queue.tail ev }
          (.push (.storeTail ev nextTail)) := ⟨tail, room, Function.update_self ..⟩
      exact ⟨exclusive.update trivial (fun _ => alone trivial) (fun _ => written)
          (fun committed => absurd committed (alone trivial)) (exclusive.consumer.write ev),
        ledger_of_silent (state.queue.contents_write ev) rfl⟩
    | storeTail ev nextTail =>
      cases accessed
      obtain ⟨tail, room, stored⟩ := knows trivial
      subst tail
      refine ⟨exclusive.outside trivial not_false (fun committed => absurd committed (alone trivial))
        (exclusive.consumer.publish room), ?_, ?_⟩
      · rw [← stored]
        exact (state.queue.contents_publish room).symm
      · intro found
        cases found

theorem scribble_exclusive {garbage : BenchmarkEvent} (exclusive : Exclusive state)
    (taken : state.access caller (.scribble garbage) = some (after, obs)) :
    Exclusive after ∧ Ledger state obs after := by
  obtain ⟨moved, accessed, rfl⟩ := access_eq_some taken
  have alone := exclusive.alone caller
  have knows := exclusive.producer caller
  simp only [RingBuffer.step] at accessed
  generalize current : state.producer caller = own at accessed alone knows
  split at accessed
  · next writing =>
    cases accessed
    cases writing
    obtain ⟨fresh, tail, room⟩ := knows trivial
    subst fresh
    exact ⟨exclusive.update trivial (fun _ => alone trivial) (fun _ => ⟨rfl, tail, room⟩)
        (fun committed => absurd committed (alone trivial)) (exclusive.consumer.write garbage),
      ledger_of_silent (state.queue.contents_write garbage) rfl⟩
  · cases accessed

theorem stepConsumer_queue {queue : LockFreeQueue BenchmarkEvent capacity} {consumer : Consumer BenchmarkEvent capacity}
    {moved : RingBuffer.State BenchmarkEvent capacity} (knows : ConsumerKnows queue consumer)
    (accessed : stepConsumer ⟨queue, .idle, consumer⟩ = some (moved, obs)) : moved.queue = queue ∨
      queue.head ≠ queue.tail ∧ moved.queue = { queue with head := next queue.head } := by
  cases consumer with
  | idle => cases accessed
  | size pc => cases pc <;> cases accessed <;> exact .inl rfl
  | pop pc =>
    cases pc with
    | loadTail currentHead =>
      by_cases empty : currentHead = queue.tail
      · simp only [stepConsumer, LockFreeQueue.pop, if_pos empty, Option.some.injEq, Prod.mk.injEq] at accessed
        obtain ⟨rfl, rfl⟩ := accessed
        exact .inl rfl
      · simp only [stepConsumer, LockFreeQueue.pop, if_neg empty, Option.some.injEq, Prod.mk.injEq] at accessed
        obtain ⟨rfl, rfl⟩ := accessed
        exact .inl rfl
    | storeHead currentHead ev =>
      obtain ⟨head, occupied, _⟩ := knows
      cases accessed
      subst head
      exact .inr ⟨occupied, rfl⟩
    | _ =>
      cases accessed
      exact .inl rfl

theorem pop_exclusive (exclusive : Exclusive state) (taken : state.accessPop .consumer = some (after, obs)) :
    Exclusive after ∧ Ledger state obs after := by
  simp only [State.accessPop, Option.map_eq_some_iff, Prod.exists, Prod.mk.injEq] at taken
  obtain ⟨moved, _, accessed, rfl, rfl⟩ := taken
  have consistent : Consistent ⟨state.queue, .idle, state.consumer⟩ := ⟨trivial, exclusive.consumer⟩
  obtain ⟨kept, specified⟩ := RingBuffer.step_spec consistent accessed
  refine ⟨⟨exclusive.locals, exclusive.alone, ?_, kept.consumer⟩, RingBuffer.step_conserves consistent accessed, ?_⟩
  · intro caller committed
    have knows := exclusive.producer caller committed
    dsimp only
    rcases stepConsumer_queue exclusive.consumer accessed with same | ⟨occupied, advanced⟩
    · rw [same]
      exact knows
    · rw [advanced]
      exact knows.release occupied
  · intro found
    subst found
    exact specified.2

theorem callPop_exclusive (exclusive : Exclusive state) (taken : state.accessPop .callPop = some (after, obs)) :
    Exclusive after ∧ Ledger state obs after := by
  simp only [State.accessPop, Option.map_eq_some_iff, Prod.exists, Prod.mk.injEq] at taken
  obtain ⟨moved, _, opened, rfl, rfl⟩ := taken
  simp only [RingBuffer.step] at opened
  split at opened <;> cases opened
  exact ⟨⟨exclusive.locals, exclusive.alone, exclusive.producer, trivial⟩, ledger_of_silent rfl rfl⟩

variable {host : Endian} {inetNtop : InAddr → String}

/-- The step lemma: while pushes enter alone, no step loses, duplicates or changes an event. -/
theorem step_exclusive {label : Label} (exclusive : Exclusive state) (enters : EntersAlone state label)
    (taken : step host inetNtop state label = some (after, obs)) : Exclusive after ∧ Ledger state obs after := by
  cases label with
  | datagram now clientAddr bytes =>
    simp only [step] at taken
    split at taken
    · cases taken
      exact ⟨exclusive, ledger_of_silent rfl rfl⟩
    · exact callPush_exclusive exclusive taken
    · cases taken
  | injectBatch batch =>
    simp only [step] at taken
    split at taken
    · cases taken
      exact ⟨⟨exclusive.locals, exclusive.alone, exclusive.producer, exclusive.consumer⟩, ledger_of_silent rfl rfl⟩
    · cases taken
  | nextEvent =>
    simp only [step] at taken
    split at taken
    · cases taken
    · simp only [Option.map_eq_some_iff, Prod.exists, Prod.mk.injEq] at taken
      obtain ⟨opened, _, called, rfl, rfl⟩ := taken
      obtain ⟨kept, ledger⟩ := callPush_exclusive exclusive called
      exact ⟨⟨kept.locals, kept.alone, kept.producer, kept.consumer⟩, ledger.conserves, ledger.empty⟩
  | push caller => exact push_exclusive exclusive enters taken
  | scribble caller garbage => exact scribble_exclusive exclusive taken
  | callPop => exact callPop_exclusive exclusive taken
  | pop => exact pop_exclusive exclusive taken

theorem initial_exclusive (capacity : ℕ+) (buffer : Fin capacity → BenchmarkEvent) :
    Exclusive (initial capacity buffer) :=
  ⟨fun _ => trivial, fun _ => False.elim, fun _ => False.elim, trivial⟩

theorem Ledger.snoc {trace : Trace capacity} {label : Label} (delivers : DeliversOnce trace state)
    (ledger : Ledger state obs after) : DeliversOnce (trace ++ [⟨state, label, obs, after⟩]) after := by
  have input : pushed (trace ++ [⟨state, label, obs, after⟩]) = pushed trace ++ obs.pushed.toList := by
    cases seen : obs.pushed <;> simp [pushed, seen]
  have output : popped (trace ++ [⟨state, label, obs, after⟩]) = popped trace ++ obs.popped.toList := by
    cases seen : obs.popped <;> simp [popped, seen]
  rw [DeliversOnce, input, output, delivers, List.append_assoc, ledger.conserves, List.append_assoc]

variable {buffer : Fin capacity → BenchmarkEvent} {trace : Trace capacity} {final : State capacity}

theorem run_exclusive (run : Run (machine host inetNtop capacity) (initial capacity buffer) trace final)
    (enters : ∀ entry ∈ trace, EntersAlone entry.before entry.label) :
    Exclusive final ∧ DeliversOnce trace final := by
  induction run with
  | nil => exact ⟨initial_exclusive capacity buffer, (RingBuffer.initial_contents buffer).symm⟩
  | snoc earlier taken ih =>
    obtain ⟨exclusive, delivers⟩ := ih fun entry member => enters entry (List.mem_append_left _ member)
    have now := enters _ (List.mem_append_right _ List.mem_cons_self)
    obtain ⟨kept, ledger⟩ := step_exclusive exclusive now taken
    exact ⟨kept, ledger.snoc delivers⟩

/-- As long as every push that finds room enters alone, what both producers have pushed is popped exactly once
and unmodified, or is still in the queue; once a pop finds the queue empty, all of it has been popped. -/
theorem both_producers_deliver_once (host : Endian) (inetNtop : InAddr → String) (capacity : ℕ+)
    (buffer : Fin capacity → BenchmarkEvent) (trace : Trace capacity) (final : State capacity)
    (run : Run (machine host inetNtop capacity) (initial capacity buffer) trace final)
    (enters : ∀ entry ∈ trace, EntersAlone entry.before entry.label) :
    DeliversOnce trace final ∧
      ∀ entry, trace.getLast? = some entry → entry.obs = .popReturned none → pushed trace = popped trace := by
  have delivers := (run_exclusive run enters).2
  refine ⟨delivers, ?_⟩
  intro entry last found
  obtain ⟨earlier, rfl⟩ : ∃ earlier, trace = earlier ++ [entry] := List.getLast?_eq_some_iff.mp last
  obtain ⟨before, taken, rfl⟩ := run.of_snoc
  have exclusive := (run_exclusive before fun other member => enters other (List.mem_append_left _ member)).1
  have now := enters entry (List.mem_append_right _ List.mem_cons_self)
  have empty := (step_exclusive exclusive now taken).2.empty found
  rw [DeliversOnce, empty, List.append_nil] at delivers
  exact delivers

/-! ## The condition is exact -/

theorem store_finishes (host : Endian) (inetNtop : InAddr → String) {ev : BenchmarkEvent} {nextTail : Fin capacity}
    (stored : state.producer caller = .push (.storeTail ev nextTail)) :
    ∃ later last, Run (machine host inetNtop capacity) state later last ∧ (pushed later).length = 1 ∧
      popped later = [] ∧ last.queue.head = state.queue.head ∧ last.queue.tail = nextTail ∧
      last.producer caller.other = state.producer caller.other := by
  have store : (machine host inetNtop capacity).step state (.push caller) =
      some (⟨{ state.queue with tail := nextTail }, Function.update state.producer caller .idle, state.consumer,
        state.batch⟩, .pushReturned ev true) := by
    simp only [machine, step, State.access, stored, RingBuffer.step, stepProducer, LockFreeQueue.push, PushPc.event,
      Option.map_some]
  exact ⟨_, _, Run.single store, rfl, rfl, rfl, rfl, Function.update_of_ne (other_ne caller) ..⟩

theorem write_finishes (host : Endian) (inetNtop : InAddr → String) {ev : BenchmarkEvent}
    {currentTail nextTail : Fin capacity} (writing : state.producer caller = .push (.write ev currentTail nextTail)) :
    ∃ later last, Run (machine host inetNtop capacity) state later last ∧ (pushed later).length = 1 ∧
      popped later = [] ∧ last.queue.head = state.queue.head ∧ last.queue.tail = nextTail ∧
      last.producer caller.other = state.producer caller.other := by
  have write : (machine host inetNtop capacity).step state (.push caller) =
      some (⟨{ state.queue with buffer := Function.update state.queue.buffer currentTail ev },
        Function.update state.producer caller (.push (.storeTail ev nextTail)), state.consumer, state.batch⟩,
        .silent) := by
    simp only [machine, step, State.access, writing, RingBuffer.step, stepProducer, LockFreeQueue.push, Option.map_some]
  have stored : State.producer ⟨{ state.queue with buffer := Function.update state.queue.buffer currentTail ev },
      Function.update state.producer caller (.push (.storeTail ev nextTail)), state.consumer, state.batch⟩ caller =
        .push (.storeTail ev nextTail) := Function.update_self ..
  obtain ⟨later, last, run, accepted, delivered, head, tail, other⟩ := store_finishes host inetNtop stored
  refine ⟨_, last, (Run.single write).trans run, accepted, delivered, head, tail, ?_⟩
  exact other.trans (Function.update_of_ne (other_ne caller) ..)

theorem longer_iff {queue longer : LockFreeQueue BenchmarkEvent capacity} (head : longer.head = queue.head)
    (room : next queue.tail ≠ queue.head) : longer.length = queue.length + 1 ↔ longer.tail = next queue.tail := by
  constructor
  · intro length
    have slot : longer.slot longer.length = longer.tail := longer.slot_length
    have last : queue.slot queue.length = queue.tail := queue.slot_length
    rw [length] at slot
    rw [← slot, ← last]
    apply Fin.ext
    simp only [LockFreeQueue.slot, Library.Ring.cell_succ, next, head]
  · intro tail
    have further := Library.Ring.gap_succ_stop queue.head.isLt queue.tail.isLt fun same => room (Fin.ext same)
    rw [LockFreeQueue.length, head, tail]
    exact further

theorem pushed_append (first second : Trace capacity) : pushed (first ++ second) = pushed first ++ pushed second :=
  List.filterMap_append

theorem popped_append (first second : Trace capacity) : popped (first ++ second) = popped first ++ popped second :=
  List.filterMap_append

theorem DeliversOnce.count {trace later : Trace capacity} {last : State capacity} (delivers : DeliversOnce trace state)
    (delivered : popped later = []) (after : DeliversOnce (trace ++ later) last) :
    last.queue.length = state.queue.length + (pushed later).length := by
  have before := congrArg List.length delivers
  have total := congrArg List.length after
  rw [pushed_append, popped_append, delivered] at total
  simp only [List.length_append, LockFreeQueue.length_contents, List.length_nil] at before total
  omega

theorem committed_cases {producer : Producer BenchmarkEvent capacity} (committed : Committed producer) :
    (∃ ev currentTail nextTail, producer = .push (.write ev currentTail nextTail)) ∨
      ∃ ev nextTail, producer = .push (.storeTail ev nextTail) := by
  cases producer with
  | push pc =>
    cases pc with
    | write ev currentTail nextTail => exact .inl ⟨ev, currentTail, nextTail, rfl⟩
    | storeTail ev nextTail => exact .inr ⟨ev, nextTail, rfl⟩
    | _ => exact committed.elim
  | _ => exact committed.elim

theorem committed_finishes (host : Endian) (inetNtop : InAddr → String) (committed : Committed (state.producer caller))
    (knows : ProducerKnows state.queue (state.producer caller)) :
    next state.queue.tail ≠ state.queue.head ∧
    ∃ later last, Run (machine host inetNtop capacity) state later last ∧ (pushed later).length = 1 ∧
      popped later = [] ∧ last.queue.head = state.queue.head ∧ last.queue.tail = next state.queue.tail ∧
      last.producer caller.other = state.producer caller.other := by
  rcases committed_cases committed with ⟨ev, currentTail, nextTail, writing⟩ | ⟨ev, nextTail, stored⟩
  · rw [writing] at knows
    obtain ⟨_, tail, room⟩ := knows
    exact ⟨room, tail ▸ write_finishes host inetNtop writing⟩
  · rw [stored] at knows
    obtain ⟨tail, room, _⟩ := knows
    exact ⟨room, tail ▸ store_finishes host inetNtop stored⟩

theorem clash_of_not_entersAlone {label : Label} (overlap : ¬EntersAlone state label) :
    ∃ caller ev currentTail nextTail, label = .push caller ∧
      state.producer caller = .push (.loadHead ev currentTail nextTail) ∧ nextTail ≠ state.queue.head ∧
        (currentTail = state.queue.tail → Committed (state.producer caller.other)) := by
  simp only [EntersAlone, not_forall, exists_prop, not_and, not_not] at overlap
  obtain ⟨entered, found, clash⟩ := overlap
  cases label with
  | push caller =>
    simp only [entering, Option.mem_def] at found
    split at found
    · next ev currentTail nextTail checking =>
      split at found
      · cases found
      · next room =>
        cases found
        exact ⟨caller, ev, currentTail, nextTail, rfl, checking, room, clash⟩
    · cases found
  | _ => cases found

/-- Where a push does not enter alone, this step has a continuation in which an accepted event is lost. -/
theorem overlap_can_lose (run : Run (machine host inetNtop capacity) (initial capacity buffer) trace state)
    (enters : ∀ entry ∈ trace, EntersAlone entry.before entry.label) {label : Label}
    (overlap : ¬EntersAlone state label) :
    ∃ entry later last, entry.label = label ∧ Run (machine host inetNtop capacity) state (entry :: later) last ∧
      ¬DeliversOnce (trace ++ entry :: later) last := by
  obtain ⟨exclusive, delivers⟩ := run_exclusive run enters
  obtain ⟨caller, ev, currentTail, nextTail, rfl, checking, room, clash⟩ := clash_of_not_entersAlone overlap
  have tail : nextTail = next currentTail := by
    have locals := exclusive.locals caller
    rwa [checking] at locals
  obtain ⟨entry, mid, taken, checked, delivers, queue, writing, other⟩ : ∃ entry mid, entry.label = .push caller ∧
      Run (machine host inetNtop capacity) state [entry] mid ∧ DeliversOnce (trace ++ [entry]) mid ∧
        mid.queue = state.queue ∧ mid.producer caller = .push (.write ev currentTail nextTail) ∧
        mid.producer caller.other = state.producer caller.other := by
    have check : (machine host inetNtop capacity).step state (.push caller) =
        some (⟨state.queue, Function.update state.producer caller (.push (.write ev currentTail nextTail)),
          state.consumer, state.batch⟩, .silent) := by
      simp only [machine, step, State.access, checking, RingBuffer.step, stepProducer, LockFreeQueue.push,
        if_neg room, Option.map_some]
    exact ⟨_, _, rfl, Run.single check, Ledger.snoc delivers (ledger_of_silent rfl rfl), rfl, Function.update_self ..,
      Function.update_of_ne (other_ne caller) ..⟩
  by_cases fresh : currentTail = state.queue.tail
  · -- The other producer advances the tail first, and this one stores the same tail again.
    have committed := clash fresh
    have knows := exclusive.producer caller.other committed
    rw [← other] at committed knows
    rw [← queue] at knows
    obtain ⟨space, first, half, finished, accepted, delivered, head, stored, same⟩ :=
      committed_finishes host inetNtop committed knows
    rw [other_other, writing] at same
    obtain ⟨second, last, finished', accepted', delivered', head', stored', _⟩ := write_finishes host inetNtop same
    refine ⟨entry, first ++ second, last, taken, checked.trans (finished.trans finished'), ?_⟩
    intro once
    rw [List.append_cons] at once
    have longer := delivers.count (by rw [popped_append, delivered, delivered', List.append_nil]) once
    rw [pushed_append, List.length_append, accepted, accepted'] at longer
    have further : last.queue.length = mid.queue.length + 1 := by
      apply (longer_iff (head'.trans head) space).mpr
      rw [stored', tail, fresh, queue]
    omega
  · -- This producer stores a tail that is not one further.
    obtain ⟨later, last, finished, accepted, delivered, head, stored, _⟩ := write_finishes host inetNtop writing
    refine ⟨entry, later, last, taken, checked.trans finished, ?_⟩
    intro once
    rw [List.append_cons] at once
    have longer := delivers.count delivered once
    rw [accepted] at longer
    have space : next mid.queue.tail ≠ mid.queue.head := by
      intro full
      have most := mid.queue.length_full.mp full
      have bound := last.queue.length_le
      omega
    have further := (longer_iff head space).mp longer
    rw [stored, tail, queue] at further
    exact fresh (next_injective further)

/-! One event from a datagram and one from a batch, first one after the other and then at once. -/

private def arrive : List Label :=
  [.datagram 0 ⟨(0xC3, 0x50), ⟨10, 0, 0, 1⟩⟩
      (slab ++ [0, 0, 0, 0, 0, 0, 0, 1, 0, 0, 0, 0, 0, 0, 0, 1, 0, 0, 0x80, 0x3F]),
    .injectBatch [{ eventId := 2 }], .nextEvent]

private def popOne : List Label := .callPop :: List.replicate 4 .pop

private def popNothing : List Label := .callPop :: List.replicate 2 .pop

theorem both_producers_deliver_once_in_turn : ∃ trace final,
    Run (machine .little Inet.inetNtop 4) (initial 4 fun _ => {}) trace final ∧
      (pushed trace).map (·.eventId) = [1, 2] ∧ DeliversOnce trace final := by
  obtain ⟨⟨trace, final⟩, executed⟩ : ∃ result, (machine .little Inet.inetNtop 4).exec (initial 4 fun _ => {})
      (arrive ++ List.replicate 4 (.push .listener) ++ List.replicate 4 (.push .injector) ++ popOne) =
        some result := ⟨_, rfl⟩
  have run := Machine.exec_run executed
  have enters : ∀ entry ∈ trace, EntersAlone entry.before entry.label := by
    cases executed
    decide
  refine ⟨trace, final, run, ?_, (both_producers_deliver_once _ _ _ _ trace final run enters).1⟩
  cases executed
  rfl

/-- Both load the same tail, both are told that their event was accepted, and one event is popped. -/
theorem overlapping_pushes_lose_an_event : ∃ trace final,
    Run (machine .little Inet.inetNtop 4) (initial 4 fun _ => {}) trace final ∧
      (pushed trace).map (·.eventId) = [1, 2] ∧ (popped trace).map (·.eventId) = [2] ∧
      final.queue.contents = [] ∧ ¬DeliversOnce trace final := by
  obtain ⟨⟨trace, final⟩, executed⟩ : ∃ result, (machine .little Inet.inetNtop 4).exec (initial 4 fun _ => {})
      (arrive ++ (List.replicate 4 [Label.push .listener, .push .injector]).flatten ++ popOne ++ popNothing) =
        some result := ⟨_, rfl⟩
  refine ⟨trace, final, Machine.exec_run executed, ?_⟩
  have accepted : (pushed trace).map (·.eventId) = [1, 2] := by
    cases executed
    rfl
  have delivered : (popped trace).map (·.eventId) = [2] := by
    cases executed
    rfl
  have empty : final.queue.contents = [] := by
    cases executed
    rfl
  refine ⟨accepted, delivered, empty, ?_⟩
  intro once
  rw [DeliversOnce, empty, List.append_nil] at once
  rw [once, delivered] at accepted
  exact absurd accepted (by decide)

end SentinelLab.TwoProducers
