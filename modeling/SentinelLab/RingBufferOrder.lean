import SentinelLab.RingBuffer

/-! The queue under every interleaving of its two threads. What each thread knows between its
accesses is stable under the accesses of the other, and each access is one step of the bounded
first-in first-out specification. -/

namespace SentinelLab.RingBuffer
open Library Library.Transition Library.BoundedFifo

variable {Event : Type} {capacity : ℕ+}

theorem next_injective {first second : Fin capacity} (same : next first = next second) :
    first = second := by
  have values : (first.val + 1) % capacity = (second.val + 1) % capacity := congrArg Fin.val same
  rw [Ring.succ_eq first.isLt, Ring.succ_eq second.isLt] at values
  have low := first.isLt
  have high := second.isLt
  apply Fin.ext
  split_ifs at values <;> omega

/-- What the locals of the producer say about the shared members. -/
def ProducerKnows (queue : LockFreeQueue Event capacity) : Producer Event capacity → Prop
  | .push (.loadHead _ currentTail nextTail) => currentTail = queue.tail ∧ nextTail = next queue.tail
  | .push (.write _ currentTail nextTail) =>
      currentTail = queue.tail ∧ nextTail = next queue.tail ∧ next queue.tail ≠ queue.head
  | .push (.storeTail event nextTail) =>
      nextTail = next queue.tail ∧ next queue.tail ≠ queue.head ∧ queue.buffer queue.tail = event
  | _ => True

def ConsumerKnows (queue : LockFreeQueue Event capacity) : Consumer Event capacity → Prop
  | .pop (.loadTail currentHead) => currentHead = queue.head
  | .pop (.copy currentHead) => currentHead = queue.head ∧ queue.head ≠ queue.tail
  | .pop (.storeHead currentHead event) =>
      currentHead = queue.head ∧ queue.head ≠ queue.tail ∧ queue.buffer queue.head = event
  | .size (.loadTail h) => h = queue.head
  | _ => True

structure Consistent (state : State Event capacity) : Prop where
  producer : ProducerKnows state.queue state.producer
  consumer : ConsumerKnows state.queue state.consumer

theorem initial_consistent (buffer : Fin capacity → Event) : Consistent (initial capacity buffer) :=
  ⟨trivial, trivial⟩

theorem ConsumerKnows.write {queue : LockFreeQueue Event capacity} {consumer : Consumer Event capacity}
    (knows : ConsumerKnows queue consumer) (event : Event) :
    ConsumerKnows { queue with buffer := Function.update queue.buffer queue.tail event } consumer := by
  cases consumer with
  | pop pc =>
    cases pc with
    | storeHead currentHead popped =>
      obtain ⟨same, occupied, copied⟩ := knows
      exact ⟨same, occupied, (Function.update_of_ne occupied _ _).trans copied⟩
    | _ => exact knows
  | size pc => cases pc <;> exact knows
  | idle => trivial

theorem ConsumerKnows.publish {queue : LockFreeQueue Event capacity} {consumer : Consumer Event capacity}
    (knows : ConsumerKnows queue consumer) (room : next queue.tail ≠ queue.head) :
    ConsumerKnows { queue with tail := next queue.tail } consumer := by
  cases consumer with
  | pop pc =>
    cases pc with
    | copy currentHead => exact ⟨knows.1, room.symm⟩
    | storeHead currentHead popped => exact ⟨knows.1, room.symm, knows.2.2⟩
    | _ => exact knows
  | size pc => cases pc <;> exact knows
  | idle => trivial

theorem ProducerKnows.release {queue : LockFreeQueue Event capacity} {producer : Producer Event capacity}
    (knows : ProducerKnows queue producer) (occupied : queue.head ≠ queue.tail) :
    ProducerKnows { queue with head := next queue.head } producer := by
  have room : next queue.tail ≠ next queue.head := fun same => occupied (next_injective same).symm
  cases producer with
  | push pc =>
    cases pc with
    | write event currentTail nextTail => exact ⟨knows.1, knows.2.1, room⟩
    | storeTail event nextTail => exact ⟨knows.1, room, knows.2.2⟩
    | _ => exact knows
  | _ => exact knows

def Obs.action : Obs Event → Action Event
  | .pushReturned event true => .accepted event
  | .pushReturned _ false => .refused
  | .popReturned (some event) => .delivered event
  | .popReturned none => .foundEmpty
  | _ => .silent

private theorem silent_spec (queue : LockFreeQueue Event capacity) :
    Spec (capacity - 1) queue.contents (Obs.silent : Obs Event).action queue.contents := rfl

theorem stepProducer_spec {state after : State Event capacity} {obs : Obs Event}
    (consistent : Consistent state) (taken : stepProducer state = some (after, obs)) :
    Consistent after ∧ Spec (capacity - 1) state.queue.contents obs.action after.queue.contents := by
  obtain ⟨queue, producer, consumer⟩ := state
  obtain ⟨own, other⟩ := consistent
  dsimp only at own other ⊢
  cases producer with
  | idle => simp [stepProducer] at taken
  | size pc =>
    cases pc <;> simp only [stepProducer, LockFreeQueue.size, Option.some.injEq, Prod.mk.injEq] at taken <;>
      obtain ⟨rfl, rfl⟩ := taken <;> exact ⟨⟨trivial, other⟩, rfl⟩
  | push pc =>
    cases pc with
    | loadTail event =>
      simp only [stepProducer, LockFreeQueue.push, Option.some.injEq, Prod.mk.injEq] at taken
      obtain ⟨rfl, rfl⟩ := taken
      exact ⟨⟨⟨rfl, rfl⟩, other⟩, silent_spec queue⟩
    | loadHead event currentTail nextTail =>
      obtain ⟨rfl, rfl⟩ := own
      by_cases full : next queue.tail = queue.head
      · simp only [stepProducer, LockFreeQueue.push, if_pos full, Option.some.injEq, Prod.mk.injEq] at taken
        obtain ⟨rfl, rfl⟩ := taken
        exact ⟨⟨trivial, other⟩, by simpa using queue.length_full.mp full, rfl⟩
      · simp only [stepProducer, LockFreeQueue.push, if_neg full, Option.some.injEq, Prod.mk.injEq] at taken
        obtain ⟨rfl, rfl⟩ := taken
        exact ⟨⟨⟨rfl, rfl, full⟩, other⟩, silent_spec queue⟩
    | write event currentTail nextTail =>
      obtain ⟨rfl, rfl, room⟩ := own
      simp only [stepProducer, LockFreeQueue.push, Option.some.injEq, Prod.mk.injEq] at taken
      obtain ⟨rfl, rfl⟩ := taken
      exact ⟨⟨⟨rfl, room, Function.update_self ..⟩, other.write event⟩, queue.contents_write event⟩
    | storeTail event nextTail =>
      obtain ⟨rfl, room, rfl⟩ := own
      simp only [stepProducer, LockFreeQueue.push, Option.some.injEq, Prod.mk.injEq] at taken
      obtain ⟨rfl, rfl⟩ := taken
      have space : queue.length < capacity - 1 :=
        lt_of_le_of_ne queue.length_le (fun full => room (queue.length_full.mpr full))
      exact ⟨⟨trivial, other.publish room⟩, by simpa using space, queue.contents_publish room⟩

theorem stepConsumer_spec {state after : State Event capacity} {obs : Obs Event}
    (consistent : Consistent state) (taken : stepConsumer state = some (after, obs)) :
    Consistent after ∧ Spec (capacity - 1) state.queue.contents obs.action after.queue.contents := by
  obtain ⟨queue, producer, consumer⟩ := state
  obtain ⟨other, own⟩ := consistent
  dsimp only at own other ⊢
  cases consumer with
  | idle => simp [stepConsumer] at taken
  | size pc =>
    cases pc <;> simp only [stepConsumer, LockFreeQueue.size, Option.some.injEq, Prod.mk.injEq] at taken <;>
      obtain ⟨rfl, rfl⟩ := taken
    · exact ⟨⟨other, rfl⟩, silent_spec queue⟩
    · exact ⟨⟨other, trivial⟩, rfl⟩
  | pop pc =>
    cases pc with
    | loadHead =>
      simp only [stepConsumer, LockFreeQueue.pop, Option.some.injEq, Prod.mk.injEq] at taken
      obtain ⟨rfl, rfl⟩ := taken
      exact ⟨⟨other, rfl⟩, silent_spec queue⟩
    | loadTail currentHead =>
      obtain rfl : currentHead = queue.head := own
      by_cases empty : queue.head = queue.tail
      · simp only [stepConsumer, LockFreeQueue.pop, if_pos empty, Option.some.injEq, Prod.mk.injEq] at taken
        obtain ⟨rfl, rfl⟩ := taken
        have nothing : queue.contents = [] :=
          List.eq_nil_of_length_eq_zero (queue.length_contents.trans (queue.length_eq_zero.mpr empty))
        exact ⟨⟨other, trivial⟩, nothing, nothing⟩
      · simp only [stepConsumer, LockFreeQueue.pop, if_neg empty, Option.some.injEq, Prod.mk.injEq] at taken
        obtain ⟨rfl, rfl⟩ := taken
        exact ⟨⟨other, rfl, empty⟩, silent_spec queue⟩
    | copy currentHead =>
      obtain ⟨rfl, occupied⟩ := own
      simp only [stepConsumer, LockFreeQueue.pop, Option.some.injEq, Prod.mk.injEq] at taken
      obtain ⟨rfl, rfl⟩ := taken
      exact ⟨⟨other, rfl, occupied, rfl⟩, silent_spec queue⟩
    | storeHead currentHead event =>
      obtain ⟨rfl, occupied, rfl⟩ := own
      simp only [stepConsumer, LockFreeQueue.pop, Option.some.injEq, Prod.mk.injEq] at taken
      obtain ⟨rfl, rfl⟩ := taken
      exact ⟨⟨other.release occupied, trivial⟩, queue.contents_release occupied⟩

/-- The step lemma: the knowledge of both threads is kept, and the contents move as the
specification allows. -/
theorem step_spec {state after : State Event capacity} {label : Label Event} {obs : Obs Event}
    (consistent : Consistent state) (taken : step state label = some (after, obs)) :
    Consistent after ∧ Spec (capacity - 1) state.queue.contents obs.action after.queue.contents := by
  cases label with
  | producer => exact stepProducer_spec consistent taken
  | consumer => exact stepConsumer_spec consistent taken
  | callPush event | producerSize =>
    obtain ⟨queue, producer, consumer⟩ := state
    cases producer <;> simp only [step, Option.some.injEq, Prod.mk.injEq, reduceCtorEq] at taken
    obtain ⟨rfl, rfl⟩ := taken
    exact ⟨⟨trivial, consistent.consumer⟩, rfl⟩
  | callPop | consumerSize =>
    obtain ⟨queue, producer, consumer⟩ := state
    cases consumer <;> simp only [step, Option.some.injEq, Prod.mk.injEq, reduceCtorEq] at taken
    obtain ⟨rfl, rfl⟩ := taken
    exact ⟨⟨consistent.producer, trivial⟩, rfl⟩
  | scribble garbage =>
    obtain ⟨queue, producer, consumer⟩ := state
    cases producer with
    | push pc =>
      cases pc <;> simp only [step, Option.some.injEq, Prod.mk.injEq, reduceCtorEq] at taken
      obtain ⟨rfl, rfl⟩ := taken
      obtain ⟨own, other⟩ := consistent
      dsimp only at own other ⊢
      obtain ⟨rfl, rfl, room⟩ := own
      exact ⟨⟨⟨rfl, rfl, room⟩, other.write garbage⟩, queue.contents_write garbage⟩
    | _ => simp [step] at taken

/-! ## Whole runs -/

abbrev Trace (Event : Type) (capacity : ℕ+) :=
  List (Entry (State Event capacity) (Label Event) (Obs Event))

def Obs.pushed : Obs Event → Option Event
  | .pushReturned event true => some event
  | _ => none

def Obs.popped : Obs Event → Option Event
  | .popReturned result => result
  | _ => none

/-- The events whose `push` returned true, in the order of the returns. -/
def pushed (trace : Trace Event capacity) : List Event := trace.filterMap fun entry => entry.obs.pushed

def popped (trace : Trace Event capacity) : List Event := trace.filterMap fun entry => entry.obs.popped

theorem Obs.action_input (obs : Obs Event) : obs.action.input = obs.pushed := by
  cases obs with
  | pushReturned event result => cases result <;> rfl
  | popReturned result => cases result <;> rfl
  | _ => rfl

theorem Obs.action_output (obs : Obs Event) : obs.action.output = obs.popped := by
  cases obs with
  | pushReturned event result => cases result <;> rfl
  | popReturned result => cases result <;> rfl
  | _ => rfl

private theorem pushed_eq (trace : Trace Event capacity) :
    pushed trace = accepted (trace.map fun entry => entry.obs.action) := by
  simp only [pushed, accepted, List.filterMap_map, Function.comp_def, Obs.action_input]

private theorem popped_eq (trace : Trace Event capacity) :
    popped trace = delivered (trace.map fun entry => entry.obs.action) := by
  simp only [popped, delivered, List.filterMap_map, Function.comp_def, Obs.action_output]

theorem step_conserves {state after : State Event capacity} {label : Label Event} {obs : Obs Event}
    (consistent : Consistent state) (taken : step state label = some (after, obs)) :
    state.queue.contents ++ obs.pushed.toList = obs.popped.toList ++ after.queue.contents := by
  have conserved := spec_conserves (step_spec consistent taken).2
  rwa [Obs.action_input, Obs.action_output] at conserved

theorem stepProducer_popped {state after : State Event capacity} {obs : Obs Event}
    (taken : stepProducer state = some (after, obs)) : obs.popped = none := by
  unfold stepProducer at taken
  split at taken
  · cases taken
  · split at taken <;> cases taken <;> rfl
  · split at taken <;> cases taken <;> rfl

theorem stepProducer_pushed {state after : State Event capacity} {obs : Obs Event}
    (taken : stepProducer state = some (after, obs)) :
    obs.pushed.isSome ↔ ∃ event nextTail, state.producer = .push (.storeTail event nextTail) := by
  obtain ⟨queue, producer, consumer⟩ := state
  cases producer with
  | idle => cases taken
  | size pc => cases pc <;> cases taken <;> simp [Obs.pushed]
  | push pc =>
    cases pc with
    | loadHead event currentTail nextTail =>
      by_cases full : nextTail = queue.head
      · simp only [stepProducer, LockFreeQueue.push, if_pos full, Option.some.injEq, Prod.mk.injEq] at taken
        rcases taken with ⟨rfl, rfl⟩
        simp [Obs.pushed]
      · simp only [stepProducer, LockFreeQueue.push, if_neg full, Option.some.injEq, Prod.mk.injEq] at taken
        rcases taken with ⟨rfl, rfl⟩
        simp [Obs.pushed]
    | _ => cases taken; simp [Obs.pushed]

theorem callPush_opens {state after : State Event capacity} {event : Event} {obs : Obs Event}
    (taken : step state (.callPush event) = some (after, obs)) :
    after.consumer = state.consumer ∧ (∃ pc, after.producer = .push pc) ∧ obs = .silent := by
  simp only [step] at taken
  split at taken <;> cases taken
  exact ⟨rfl, ⟨_, rfl⟩, rfl⟩

theorem callPop_opens {state after : State Event capacity} {obs : Obs Event}
    (taken : step state .callPop = some (after, obs)) :
    after.producer = state.producer ∧ (∃ pc, after.consumer = .pop pc) ∧ obs = .silent := by
  simp only [step] at taken
  split at taken <;> cases taken
  exact ⟨rfl, ⟨_, rfl⟩, rfl⟩

theorem scribble_keeps {state after : State Event capacity} {garbage : Event} {obs : Obs Event}
    (taken : step state (.scribble garbage) = some (after, obs)) :
    after.producer = state.producer ∧ after.consumer = state.consumer ∧ obs = .silent := by
  simp only [step] at taken
  split at taken <;> cases taken
  exact ⟨rfl, rfl, rfl⟩

theorem stepProducer_push {state after : State Event capacity} {obs : Obs Event} {pc : PushPc Event capacity}
    (pushing : state.producer = .push pc) (taken : stepProducer state = some (after, obs)) :
    after.consumer = state.consumer ∧ ((∃ pc', after.producer = .push pc' ∧ obs = .silent) ∨
      ∃ result, after.producer = .idle ∧ obs = .pushReturned pc.event result) := by
  simp only [stepProducer, pushing] at taken
  split at taken <;> cases taken
  next pc' _ => exact ⟨rfl, Or.inl ⟨pc', rfl, rfl⟩⟩
  next result _ => exact ⟨rfl, Or.inr ⟨result, rfl, rfl⟩⟩

theorem stepConsumer_pop {state after : State Event capacity} {obs : Obs Event} {pc : PopPc Event capacity}
    (popping : state.consumer = .pop pc) (taken : stepConsumer state = some (after, obs)) :
    after.producer = state.producer ∧ ((∃ pc', after.consumer = .pop pc' ∧ obs = .silent) ∨
      ∃ result, after.consumer = .idle ∧ obs = .popReturned result) := by
  simp only [stepConsumer, popping] at taken
  split at taken <;> cases taken
  next pc' _ => exact ⟨rfl, Or.inl ⟨pc', rfl, rfl⟩⟩
  next result _ => exact ⟨rfl, Or.inr ⟨result, rfl, rfl⟩⟩

/-- `P` of every queued event and of the one that is being pushed. -/
structure Held (P : Event → Prop) (state : State Event capacity) : Prop where
  queued : ∀ event ∈ state.queue.contents, P event
  pushing : ∀ pc, state.producer = .push pc → P pc.event

theorem LockFreeQueue.push_event {queue : LockFreeQueue Event capacity} {pc pc' : PushPc Event capacity}
    (goes : (queue.push pc).2 = .goto pc') : pc'.event = pc.event := by
  cases pc with
  | loadHead event currentTail nextTail =>
    simp only [LockFreeQueue.push] at goes
    split at goes
    · cases goes
    · cases goes
      rfl
  | storeTail event nextTail => cases goes
  | _ =>
    cases goes
    rfl

theorem stepProducer_held {P : Event → Prop} {state after : State Event capacity} {obs : Obs Event}
    (taken : stepProducer state = some (after, obs)) (pushing : ∀ pc, state.producer = .push pc → P pc.event) :
    (∀ pc, after.producer = .push pc → P pc.event) ∧ ∀ event, obs.pushed = some event → P event := by
  unfold stepProducer at taken
  split at taken
  · cases taken
  next pc current =>
    have holds := pushing pc current
    split at taken <;> cases taken
    next pc' goes =>
      have same : pc'.event = pc.event := LockFreeQueue.push_event (congrArg Prod.snd goes)
      refine ⟨?_, nofun⟩
      intro moved now
      cases now
      rw [same]
      exact holds
    next result _ =>
      refine ⟨nofun, ?_⟩
      intro event accepted
      cases result with
      | true => exact Option.some.inj accepted ▸ holds
      | false => cases accepted
  · split at taken <;> cases taken <;> exact ⟨nofun, nofun⟩

theorem stepConsumer_keeps {state after : State Event capacity} {obs : Obs Event}
    (taken : stepConsumer state = some (after, obs)) : after.producer = state.producer ∧ obs.pushed = none := by
  unfold stepConsumer at taken
  split at taken
  · cases taken
  · split at taken <;> cases taken <;> exact ⟨rfl, rfl⟩
  · split at taken <;> cases taken <;> exact ⟨rfl, rfl⟩

theorem step_held {P : Event → Prop} {state after : State Event capacity} {label : Label Event} {obs : Obs Event}
    (consistent : Consistent state) (taken : step state label = some (after, obs))
    (called : ∀ event, label = .callPush event → P event) (held : Held P state) : Held P after := by
  have ledger := step_conserves consistent taken
  have members (accepted : ∀ event, obs.pushed = some event → P event) :
      ∀ event ∈ after.queue.contents, P event := by
    intro event member
    have before : event ∈ state.queue.contents ++ obs.pushed.toList := by
      rw [ledger]
      exact List.mem_append_right _ member
    rcases List.mem_append.mp before with queued | now
    · exact held.queued event queued
    · exact accepted event (Option.mem_toList.mp now)
  cases label with
  | producer =>
    obtain ⟨pushing, accepted⟩ := stepProducer_held taken held.pushing
    exact ⟨members accepted, pushing⟩
  | consumer =>
    obtain ⟨producer, nothing⟩ := stepConsumer_keeps taken
    exact ⟨members (by rw [nothing]; exact nofun), producer ▸ held.pushing⟩
  | callPush event =>
    simp only [step] at taken
    split at taken <;> cases taken
    exact ⟨held.queued, fun pc same => by cases same; exact called event rfl⟩
  | scribble garbage =>
    have keeps := scribble_keeps taken
    refine ⟨members (by rw [keeps.2.2]; exact nofun), ?_⟩
    rw [keeps.1]
    exact held.pushing
  | callPop | consumerSize =>
    simp only [step] at taken
    split at taken <;> cases taken
    exact ⟨held.queued, held.pushing⟩
  | producerSize =>
    simp only [step] at taken
    split at taken <;> cases taken
    exact ⟨held.queued, nofun⟩

theorem stepProducer_enabled {state : State Event capacity} {pc : PushPc Event capacity}
    (pushing : state.producer = .push pc) : ∃ after obs, stepProducer state = some (after, obs) := by
  simp only [stepProducer, pushing]
  split <;> exact ⟨_, _, rfl⟩

theorem stepConsumer_enabled {state : State Event capacity} {pc : PopPc Event capacity}
    (popping : state.consumer = .pop pc) : ∃ after obs, stepConsumer state = some (after, obs) := by
  simp only [stepConsumer, popping]
  split <;> exact ⟨_, _, rfl⟩

variable {buffer : Fin capacity → Event} {trace : Trace Event capacity} {final : State Event capacity}

theorem step_consistent (state : State Event capacity) (label : Label Event) (obs : Obs Event)
    (after : State Event capacity) (consistent : Consistent state)
    (taken : (machine Event capacity).step state label = some (after, obs)) : Consistent after :=
  (step_spec consistent taken).1

theorem run_consistent (run : Run (machine Event capacity) (initial capacity buffer) trace final) :
    Consistent final :=
  run.invariant Consistent step_consistent (initial_consistent buffer)

theorem initial_contents (buffer : Fin capacity → Event) :
    (initial capacity buffer).queue.contents = [] := by
  apply List.eq_nil_of_length_eq_zero
  rw [LockFreeQueue.length_contents, LockFreeQueue.length_eq_zero]
  rfl

/-- The interleaved accesses refine the bounded queue with `capacity - 1` places. -/
theorem run_refines (run : Run (machine Event capacity) (initial capacity buffer) trace final) :
    Path (Spec (capacity - 1)) [] (trace.map fun entry => entry.obs.action) final.queue.contents := by
  have path := run.refines (fun state => state.queue.contents) Obs.action step_consistent
    (fun _ _ _ _ consistent taken => (step_spec consistent taken).2) (initial_consistent buffer)
  rwa [initial_contents] at path

theorem pushed_eq_popped (run : Run (machine Event capacity) (initial capacity buffer) trace final) :
    pushed trace = popped trace ++ final.queue.contents := by
  rw [pushed_eq, popped_eq]
  simpa using path_conserves (run_refines run)

/-- While `push` is writing, its slot holds no unpopped event and is not being copied. -/
def SlotFree (state : State Event capacity) : Prop :=
  ∀ event currentTail nextTail, state.producer = .push (.write event currentTail nextTail) →
    (∀ i < state.queue.length, state.queue.slot i ≠ currentTail) ∧
      ∀ currentHead, state.consumer = .pop (.copy currentHead) → currentHead ≠ currentTail

theorem Consistent.slotFree {state : State Event capacity} (consistent : Consistent state) :
    SlotFree state := by
  intro event currentTail nextTail writing
  have own := consistent.producer
  rw [writing] at own
  obtain ⟨rfl, _, _⟩ := own
  refine ⟨fun i inside => state.queue.slot_ne_tail inside, ?_⟩
  intro currentHead copying
  have other := consistent.consumer
  rw [copying] at other
  exact other.1 ▸ other.2

theorem push_refused {state after : State Event capacity} {label : Label Event} {event : Event}
    (consistent : Consistent state) (taken : step state label = some (after, .pushReturned event false)) :
    state.queue.length = capacity - 1 := by
  simpa [Obs.action, Spec] using (step_spec consistent taken).2.1

end SentinelLab.RingBuffer
