import SentinelLab.RingBufferOrder

/-! `size()` reads the two indices one after the other. Called by either of the two threads, the
index of that thread cannot move in between, so the result is a length the queue really had at
an instant of the call. -/

namespace SentinelLab.RingBuffer
open Library Library.Transition Library.BoundedFifo

variable {Event : Type} {capacity : ℕ+}

def Label.byProducer : Label Event → Bool
  | .callPush _ | .producerSize => true
  | _ => false

def Label.byConsumer : Label Event → Bool
  | .callPop | .consumerSize => true
  | _ => false

/-- `trace` ends inside a call opened by `opening`; `window` holds the entries of that call. -/
def InCall (opening : Label Event) (calls : Label Event → Bool) (trace window : Trace Event capacity) : Prop :=
  ∃ earlier call rest, trace = earlier ++ call :: rest ∧ window = call :: rest ∧
    call.label = opening ∧ ∀ entry ∈ rest, calls entry.label = false

theorem InCall.snoc {opening : Label Event} {calls : Label Event → Bool} {trace window : Trace Event capacity}
    (inside : InCall opening calls trace window) (entry : Entry (State Event capacity) (Label Event) (Obs Event))
    (same_call : calls entry.label = false) :
    InCall opening calls (trace ++ [entry]) (window ++ [entry]) := by
  obtain ⟨earlier, call, rest, rfl, rfl, opened, others⟩ := inside
  refine ⟨earlier, call, rest ++ [entry], by simp, by simp, opened, ?_⟩
  intro other member
  rcases List.mem_append.mp member with before | last
  · exact others other before
  · rw [List.mem_singleton.mp last]
    exact same_call

theorem InCall.begin {opening : Label Event} {calls : Label Event → Bool} (trace : Trace Event capacity)
    (entry : Entry (State Event capacity) (Label Event) (Obs Event)) (opened : entry.label = opening) :
    InCall opening calls (trace ++ [entry]) [entry] :=
  ⟨trace, entry, [], rfl, rfl, opened, by simp⟩

/-- The producer is inside `size()`; once it holds a head value, the queue had that head
together with the present tail at an instant of the call. -/
def ProducerSizing (trace : Trace Event capacity) (state : State Event capacity) : Prop :=
  ∀ pc, state.producer = .size pc → ∃ window, InCall .producerSize Label.byProducer trace window ∧
    ∀ h, pc = .loadTail h →
      ∃ entry ∈ window, entry.after.queue.head = h ∧ entry.after.queue.tail = state.queue.tail

def ConsumerSizing (trace : Trace Event capacity) (state : State Event capacity) : Prop :=
  ∀ pc, state.consumer = .size pc → ∃ window, InCall .consumerSize Label.byConsumer trace window

theorem stepProducer_cases {state after : State Event capacity} {obs : Obs Event}
    (taken : stepProducer state = some (after, obs)) :
    after.consumer = state.consumer ∧
      ((∃ pc, after.producer = .push pc) ∨ after.producer = .idle ∨
        ∃ pc pc', state.producer = .size pc ∧ state.queue.size pc = .goto pc' ∧
          after.producer = .size pc' ∧ after.queue = state.queue) := by
  unfold stepProducer at taken
  split at taken
  · cases taken
  · split at taken <;> cases taken
    · exact ⟨rfl, Or.inl ⟨_, rfl⟩⟩
    · exact ⟨rfl, Or.inr (Or.inl rfl)⟩
  next pc current =>
    split at taken <;> cases taken
    next pc' goes => exact ⟨rfl, Or.inr (Or.inr ⟨pc, pc', current, goes, rfl, rfl⟩)⟩
    · exact ⟨rfl, Or.inr (Or.inl rfl)⟩

theorem LockFreeQueue.pop_tail (queue : LockFreeQueue Event capacity) (pc : PopPc Event capacity) :
    (queue.pop pc).1.tail = queue.tail := by
  cases pc with
  | loadTail currentHead => simp only [pop]; split <;> rfl
  | _ => rfl

theorem stepConsumer_cases {state after : State Event capacity} {obs : Obs Event}
    (taken : stepConsumer state = some (after, obs)) :
    (after.producer = state.producer ∧ after.queue.tail = state.queue.tail) ∧
      ((∃ pc, after.consumer = .pop pc) ∨ after.consumer = .idle ∨ ∃ pc, state.consumer = .size pc) := by
  unfold stepConsumer at taken
  split at taken
  · cases taken
  next pc _ =>
    have kept := state.queue.pop_tail pc
    split at taken <;> cases taken
    next moved => exact ⟨⟨rfl, by rw [← kept, moved]⟩, Or.inl ⟨_, rfl⟩⟩
    next moved => exact ⟨⟨rfl, by rw [← kept, moved]⟩, Or.inr (Or.inl rfl)⟩
  next pc current =>
    split at taken <;> cases taken <;> exact ⟨⟨rfl, rfl⟩, Or.inr (Or.inr ⟨pc, current⟩)⟩

theorem size_goto {queue : LockFreeQueue Event capacity} {pc pc' : SizePc capacity}
    (goes : queue.size pc = .goto pc') : pc' = .loadTail queue.head := by
  cases pc <;> simp only [LockFreeQueue.size, Progress.goto.injEq, reduceCtorEq] at goes
  exact goes.symm

/-- The call that a return belongs to, and its last access. -/
def Returns (state : State Event capacity) : Obs Event → Prop
  | .silent => True
  | .pushReturned event result =>
      ∃ pc, state.producer = .push pc ∧ pc.event = event ∧ (state.queue.push pc).2 = .ret result
  | .popReturned result => ∃ pc, state.consumer = .pop pc ∧ (state.queue.pop pc).2 = .ret result
  | .producerSizeReturned result => ∃ pc, state.producer = .size pc ∧ state.queue.size pc = .ret result
  | .consumerSizeReturned result => ∃ pc, state.consumer = .size pc ∧ state.queue.size pc = .ret result

theorem stepProducer_returns {state after : State Event capacity} {obs : Obs Event}
    (taken : stepProducer state = some (after, obs)) : Returns state obs := by
  unfold stepProducer at taken
  split at taken
  · cases taken
  next pc current =>
    split at taken <;> cases taken
    · trivial
    next returned => exact ⟨pc, current, rfl, by rw [returned]⟩
  next pc current =>
    split at taken <;> cases taken
    · trivial
    next returned => exact ⟨pc, current, returned⟩

theorem stepConsumer_returns {state after : State Event capacity} {obs : Obs Event}
    (taken : stepConsumer state = some (after, obs)) : Returns state obs := by
  unfold stepConsumer at taken
  split at taken
  · cases taken
  next pc current =>
    split at taken <;> cases taken
    · trivial
    next returned => exact ⟨pc, current, by rw [returned]⟩
  next pc current =>
    split at taken <;> cases taken
    · trivial
    next returned => exact ⟨pc, current, returned⟩

theorem step_returns {state after : State Event capacity} {label : Label Event} {obs : Obs Event}
    (taken : step state label = some (after, obs)) : Returns state obs := by
  cases label with
  | producer => exact stepProducer_returns taken
  | consumer => exact stepConsumer_returns taken
  | callPush _ | producerSize | scribble _ | callPop | consumerSize =>
    simp only [step] at taken
    split at taken <;> cases taken
    trivial

theorem producer_sizing_step (trace : Trace Event capacity) (state : State Event capacity)
    (label : Label Event) (obs : Obs Event) (after : State Event capacity)
    (sizing : ProducerSizing trace state) (taken : step state label = some (after, obs)) :
    ProducerSizing (trace ++ [⟨state, label, obs, after⟩]) after := by
  intro pc current
  -- The producer stood inside `size()` before, and this step belongs to the same call.
  have stays (pc₀ : SizePc capacity) (before : state.producer = .size pc₀)
      (tail : after.queue.tail = state.queue.tail) (same : pc = pc₀) (own : label.byProducer = false) :
      ∃ window, InCall .producerSize Label.byProducer (trace ++ [⟨state, label, obs, after⟩]) window ∧
        ∀ h, pc = .loadTail h →
          ∃ entry ∈ window, entry.after.queue.head = h ∧ entry.after.queue.tail = after.queue.tail := by
    subst same
    obtain ⟨window, inside, seen⟩ := sizing pc before
    refine ⟨_, inside.snoc _ own, ?_⟩
    intro h loaded
    obtain ⟨entry, member, head, same_tail⟩ := seen h loaded
    exact ⟨entry, List.mem_append_left _ member, head, same_tail.trans tail.symm⟩
  cases label with
  | callPush event =>
    simp only [step] at taken
    split at taken <;> cases taken
    cases current
  | producerSize =>
    simp only [step] at taken
    split at taken <;> cases taken
    cases current
    exact ⟨_, InCall.begin trace _ rfl, by simp⟩
  | producer =>
    obtain ⟨_, ⟨_, pushing⟩ | idle | ⟨pc₀, pc', before, goes, now, kept⟩⟩ := stepProducer_cases taken
    · rw [pushing] at current
      cases current
    · rw [idle] at current
      cases current
    · obtain rfl : pc' = pc := by simpa [now] using current
      obtain rfl := size_goto goes
      obtain ⟨window, inside, _⟩ := sizing pc₀ before
      refine ⟨_, inside.snoc _ rfl, ?_⟩
      intro h loaded
      obtain rfl : state.queue.head = h := by simpa using loaded
      exact ⟨_, List.mem_append_right _ (List.mem_singleton_self _), by rw [kept], rfl⟩
  | scribble garbage =>
    simp only [step] at taken
    split at taken
    next writing =>
      cases taken
      simp [writing] at current
    · cases taken
  | callPop | consumerSize =>
    simp only [step] at taken
    split at taken <;> cases taken
    exact stays pc current rfl rfl rfl
  | consumer =>
    obtain ⟨⟨same, tail⟩, _⟩ := stepConsumer_cases taken
    exact stays pc (same ▸ current) tail rfl rfl

theorem consumer_sizing_step (trace : Trace Event capacity) (state : State Event capacity)
    (label : Label Event) (obs : Obs Event) (after : State Event capacity)
    (sizing : ConsumerSizing trace state) (taken : step state label = some (after, obs)) :
    ConsumerSizing (trace ++ [⟨state, label, obs, after⟩]) after := by
  intro pc current
  have stays (pc₀ : SizePc capacity) (before : state.consumer = .size pc₀) (own : label.byConsumer = false) :
      ∃ window, InCall .consumerSize Label.byConsumer (trace ++ [⟨state, label, obs, after⟩]) window := by
    obtain ⟨window, inside⟩ := sizing pc₀ before
    exact ⟨_, inside.snoc _ own⟩
  cases label with
  | callPop =>
    simp only [step] at taken
    split at taken <;> cases taken
    cases current
  | consumerSize =>
    simp only [step] at taken
    split at taken <;> cases taken
    exact ⟨_, InCall.begin trace _ rfl⟩
  | consumer =>
    obtain ⟨_, ⟨_, popping⟩ | idle | ⟨pc₀, before⟩⟩ := stepConsumer_cases taken
    · rw [popping] at current
      cases current
    · rw [idle] at current
      cases current
    · exact stays pc₀ before rfl
  | producer =>
    obtain ⟨same, _⟩ := stepProducer_cases taken
    exact stays pc (same ▸ current) rfl
  | callPush _ | producerSize | scribble _ =>
    simp only [step] at taken
    split at taken <;> cases taken
    exact stays pc current rfl

variable {buffer : Fin capacity → Event} {trace : Trace Event capacity} {final : State Event capacity}

/-- `result` is a length the queue had at an instant of the call that `trace` ends in. -/
def LengthDuring (opening : Label Event) (calls : Label Event → Bool) (trace : Trace Event capacity)
    (result : Nat) : Prop :=
  ∃ window, InCall opening calls trace window ∧
    ∃ entry ∈ window, entry.after.queue.contents.length = result

theorem producer_size_observed {state after : State Event capacity} {label : Label Event} {result : Nat}
    (run : Run (machine Event capacity) (initial capacity buffer) trace state)
    (taken : step state label = some (after, .producerSizeReturned result)) :
    LengthDuring .producerSize Label.byProducer trace result := by
  have sizing : ProducerSizing trace state := by
    apply run.history (fun trace state label obs after _ => producer_sizing_step trace state label obs after)
    intro pc current
    cases current
  obtain ⟨pc, current, returned⟩ := step_returns taken
  obtain ⟨window, inside, seen⟩ := sizing pc current
  cases pc with
  | loadHead => cases returned
  | loadTail h =>
    obtain ⟨entry, member, head, tail⟩ := seen h rfl
    have same : entry.after.queue.size (.loadTail entry.after.queue.head) = .ret result := by
      simpa only [LockFreeQueue.size, head, tail] using returned
    refine ⟨window, inside, entry, member, ?_⟩
    rw [LockFreeQueue.length_contents]
    simpa [LockFreeQueue.size_loadTail] using same

theorem consumer_size_observed {state after : State Event capacity} {label : Label Event} {result : Nat}
    (run : Run (machine Event capacity) (initial capacity buffer) trace state)
    (taken : step state label = some (after, .consumerSizeReturned result)) :
    LengthDuring .consumerSize Label.byConsumer trace result := by
  have sizing : ConsumerSizing trace state := by
    apply run.history (fun trace state label obs after _ => consumer_sizing_step trace state label obs after)
    intro pc current
    cases current
  have consistent := run_consistent run
  obtain ⟨pc, current, returned⟩ := step_returns taken
  obtain ⟨window, inside⟩ := sizing pc current
  have own := consistent.consumer
  rw [current] at own
  cases pc with
  | loadHead => cases returned
  | loadTail h =>
    obtain rfl : h = state.queue.head := own
    have whole := inside
    obtain ⟨earlier, call, rest, rfl, rfl, _, _⟩ := inside
    obtain ⟨last, member, here⟩ := run.last_after
    refine ⟨call :: rest, whole, last, member, ?_⟩
    rw [here, LockFreeQueue.length_contents]
    simpa [LockFreeQueue.size_loadTail] using returned

theorem LengthDuring.le {opening : Label Event} {calls : Label Event → Bool} {result : Nat}
    (during : LengthDuring opening calls trace result) : result ≤ capacity - 1 := by
  obtain ⟨_, _, entry, _, rfl⟩ := during
  rw [LockFreeQueue.length_contents]
  exact entry.after.queue.length_le

theorem refused_when_full {state after : State Event capacity} {label : Label Event} {event : Event}
    (consistent : Consistent state) (taken : step state label = some (after, .pushReturned event false)) :
    (∃ currentTail nextTail, state.producer = .push (.loadHead event currentTail nextTail)) ∧
      state.queue.contents.length = capacity - 1 := by
  refine ⟨?_, by simpa using push_refused consistent taken⟩
  obtain ⟨pc, current, asked, returned⟩ := step_returns taken
  cases pc with
  | loadHead other currentTail nextTail =>
    obtain rfl : other = event := asked
    exact ⟨currentTail, nextTail, current⟩
  | _ => simp [LockFreeQueue.push] at returned

theorem nullopt_when_empty {state after : State Event capacity} {label : Label Event}
    (consistent : Consistent state) (taken : step state label = some (after, .popReturned none)) :
    (∃ currentHead, state.consumer = .pop (.loadTail currentHead)) ∧ state.queue.contents = [] := by
  have empty : state.queue.contents = [] := (step_spec consistent taken).2.1
  refine ⟨?_, empty⟩
  obtain ⟨pc, current, returned⟩ := step_returns taken
  cases pc with
  | loadTail currentHead => exact ⟨currentHead, current⟩
  | _ => simp [LockFreeQueue.pop] at returned

/-- One producer and one consumer, every capacity, every interleaving of their accesses: the
queue is a linearizable bounded first-in first-out queue, and what its calls return is true of
it at an instant of the call. -/
theorem lockFreeQueue_linearizable {Event : Type} (capacity : ℕ+) (buffer : Fin capacity → Event)
    (trace : Trace Event capacity) (final : State Event capacity)
    (run : Run (machine Event capacity) (initial capacity buffer) trace final) :
    Path (Spec (capacity - 1)) [] (trace.map fun entry => entry.obs.action) final.queue.contents ∧
      popped trace <+: pushed trace ∧
      SlotFree final ∧
      (∀ entry ∈ trace, ∀ event, entry.obs = .pushReturned event false →
        (∃ currentTail nextTail, entry.before.producer = .push (.loadHead event currentTail nextTail)) ∧
          entry.before.queue.contents.length = capacity - 1) ∧
      (∀ entry ∈ trace, entry.obs = .popReturned none →
        (∃ currentHead, entry.before.consumer = .pop (.loadTail currentHead)) ∧
          entry.before.queue.contents = []) ∧
      ∀ earlier entry later result, trace = earlier ++ entry :: later →
        (entry.obs = .producerSizeReturned result →
          LengthDuring .producerSize Label.byProducer earlier result ∧ result ≤ capacity - 1) ∧
        (entry.obs = .consumerSizeReturned result →
          LengthDuring .consumerSize Label.byConsumer earlier result ∧ result ≤ capacity - 1) := by
  have good : Consistent (initial capacity buffer) := initial_consistent buffer
  refine ⟨run_refines run, ⟨final.queue.contents, (pushed_eq_popped run).symm⟩,
    (run_consistent run).slotFree, ?_, ?_, ?_⟩
  · intro entry member event refused
    obtain ⟨consistent, taken⟩ := run.entry_invariant step_consistent good member
    exact refused_when_full consistent (refused ▸ taken)
  · intro entry member nothing
    obtain ⟨consistent, taken⟩ := run.entry_invariant step_consistent good member
    exact nullopt_when_empty consistent (nothing ▸ taken)
  · rintro earlier entry later result rfl
    obtain ⟨before, taken, _⟩ := run.at_entry
    constructor
    · intro returned
      have during := producer_size_observed before (returned ▸ taken)
      exact ⟨during, during.le⟩
    · intro returned
      have during := consumer_size_observed before (returned ▸ taken)
      exact ⟨during, during.le⟩

private def shortRun : List (Label Nat) :=
  [.callPush 7, .producer, .producer, .scribble 0, .producer, .producer, .callPush 8, .producer, .producer,
    .callPop, .consumer, .consumer, .consumer, .consumer, .consumerSize, .consumer, .consumer]

theorem lockFreeQueue_linearizable_shortRun :
    ∃ trace final, (machine Nat 2).exec (initial 2 fun _ => 0) shortRun = some (trace, final) ∧
      pushed trace = [7] ∧ popped trace <+: pushed trace := by
  obtain ⟨⟨trace, final⟩, executed⟩ : ∃ result,
      (machine Nat 2).exec (initial 2 fun _ => 0) shortRun = some result := ⟨_, rfl⟩
  refine ⟨trace, final, executed, ?_,
    (lockFreeQueue_linearizable 2 _ trace final (Machine.exec_run executed)).2.1⟩
  cases executed
  rfl

end SentinelLab.RingBuffer
