import SentinelLab.Library.BoundedFifo
import SentinelLab.Library.Ring

/-! `LockFreeQueue` of `ring_buffer.hpp`, one atomic load, atomic store or buffer access at a
time, run by one producer thread and one consumer thread. -/

namespace SentinelLab.RingBuffer
open Library Library.Transition

/-- The shared members. `head` and `tail` are indices into `buffer`, so they are kept below the
capacity by their type; the capacity is positive because an index exists at all. -/
structure LockFreeQueue (Event : Type) (capacity : ℕ+) where
  buffer : Fin capacity → Event
  head : Fin capacity
  tail : Fin capacity

variable {Event : Type} {capacity : ℕ+}

/-- `(index + 1) % capacity_` -/
def next (index : Fin capacity) : Fin capacity :=
  ⟨(index.val + 1) % capacity, Nat.mod_lt _ capacity.pos⟩

/-- What one access leads to: the next access of the same call, or its return. -/
inductive Progress (Pc Result : Type) where
  | goto (pc : Pc)
  | ret (result : Result)

/-- The access `push` is about to make, with the locals it holds. In `write` the copy assignment
of the event is under way. -/
inductive PushPc (Event : Type) (capacity : ℕ+) where
  | loadTail (event : Event)
  | loadHead (event : Event) (currentTail nextTail : Fin capacity)
  | write (event : Event) (currentTail nextTail : Fin capacity)
  | storeTail (event : Event) (nextTail : Fin capacity)

def PushPc.event : PushPc Event capacity → Event
  | .loadTail event | .loadHead event _ _ | .write event _ _ | .storeTail event _ => event

def LockFreeQueue.push (queue : LockFreeQueue Event capacity) :
    PushPc Event capacity → LockFreeQueue Event capacity × Progress (PushPc Event capacity) Bool
  | .loadTail event => (queue, .goto (.loadHead event queue.tail (next queue.tail)))
  | .loadHead event currentTail nextTail =>
      if nextTail = queue.head then (queue, .ret false)
      else (queue, .goto (.write event currentTail nextTail))
  | .write event currentTail nextTail =>
      ({ queue with buffer := Function.update queue.buffer currentTail event },
        .goto (.storeTail event nextTail))
  | .storeTail _ nextTail => ({ queue with tail := nextTail }, .ret true)

/-- In `copy` the event is being copied out of the buffer. -/
inductive PopPc (Event : Type) (capacity : ℕ+) where
  | loadHead
  | loadTail (currentHead : Fin capacity)
  | copy (currentHead : Fin capacity)
  | storeHead (currentHead : Fin capacity) (event : Event)

def LockFreeQueue.pop (queue : LockFreeQueue Event capacity) :
    PopPc Event capacity → LockFreeQueue Event capacity × Progress (PopPc Event capacity) (Option Event)
  | .loadHead => (queue, .goto (.loadTail queue.head))
  | .loadTail currentHead =>
      if currentHead = queue.tail then (queue, .ret none) else (queue, .goto (.copy currentHead))
  | .copy currentHead => (queue, .goto (.storeHead currentHead (queue.buffer currentHead)))
  | .storeHead currentHead event => ({ queue with head := next currentHead }, .ret (some event))

inductive SizePc (capacity : ℕ+) where
  | loadHead
  | loadTail (h : Fin capacity)

def LockFreeQueue.size (queue : LockFreeQueue Event capacity) :
    SizePc capacity → Progress (SizePc capacity) Nat
  | .loadHead => .goto (.loadTail queue.head)
  | .loadTail h =>
      let t := queue.tail
      .ret (if h ≤ t then t.val - h.val else capacity - h.val + t.val)

inductive Producer (Event : Type) (capacity : ℕ+) where
  | idle
  | push (pc : PushPc Event capacity)
  | size (pc : SizePc capacity)

inductive Consumer (Event : Type) (capacity : ℕ+) where
  | idle
  | pop (pc : PopPc Event capacity)
  | size (pc : SizePc capacity)

structure State (Event : Type) (capacity : ℕ+) where
  queue : LockFreeQueue Event capacity
  producer : Producer Event capacity
  consumer : Consumer Event capacity

/-- `producer` and `consumer` make the pending access of that thread. `scribble` is a moment
inside the copy assignment of `push`, when the slot holds anything at all. -/
inductive Label (Event : Type) where
  | callPush (event : Event)
  | producerSize
  | producer
  | scribble (garbage : Event)
  | callPop
  | consumerSize
  | consumer

/-- A call returns together with its last access. -/
inductive Obs (Event : Type) where
  | silent
  | pushReturned (event : Event) (result : Bool)
  | popReturned (result : Option Event)
  | producerSizeReturned (result : Nat)
  | consumerSizeReturned (result : Nat)

def stepProducer (state : State Event capacity) : Option (State Event capacity × Obs Event) :=
  match state.producer with
  | .idle => none
  | .push pc =>
      match state.queue.push pc with
      | (queue, .goto pc') => some ({ state with queue, producer := .push pc' }, .silent)
      | (queue, .ret result) =>
          some ({ state with queue, producer := .idle }, .pushReturned pc.event result)
  | .size pc =>
      match state.queue.size pc with
      | .goto pc' => some ({ state with producer := .size pc' }, .silent)
      | .ret result => some ({ state with producer := .idle }, .producerSizeReturned result)

def stepConsumer (state : State Event capacity) : Option (State Event capacity × Obs Event) :=
  match state.consumer with
  | .idle => none
  | .pop pc =>
      match state.queue.pop pc with
      | (queue, .goto pc') => some ({ state with queue, consumer := .pop pc' }, .silent)
      | (queue, .ret result) => some ({ state with queue, consumer := .idle }, .popReturned result)
  | .size pc =>
      match state.queue.size pc with
      | .goto pc' => some ({ state with consumer := .size pc' }, .silent)
      | .ret result => some ({ state with consumer := .idle }, .consumerSizeReturned result)

def step (state : State Event capacity) : Label Event → Option (State Event capacity × Obs Event)
  | .callPush event =>
      match state.producer with
      | .idle => some ({ state with producer := .push (.loadTail event) }, .silent)
      | _ => none
  | .producerSize =>
      match state.producer with
      | .idle => some ({ state with producer := .size .loadHead }, .silent)
      | _ => none
  | .producer => stepProducer state
  | .scribble garbage =>
      match state.producer with
      | .push (.write _ currentTail _) =>
          some ({ state with queue :=
            { state.queue with buffer := Function.update state.queue.buffer currentTail garbage } }, .silent)
      | _ => none
  | .callPop =>
      match state.consumer with
      | .idle => some ({ state with consumer := .pop .loadHead }, .silent)
      | _ => none
  | .consumerSize =>
      match state.consumer with
      | .idle => some ({ state with consumer := .size .loadHead }, .silent)
      | _ => none
  | .consumer => stepConsumer state

def machine (Event : Type) (capacity : ℕ+) : Machine (State Event capacity) (Label Event) (Obs Event) :=
  ⟨step⟩

def initial (capacity : ℕ+) (buffer : Fin capacity → Event) : State Event capacity where
  queue := { buffer, head := ⟨0, capacity.pos⟩, tail := ⟨0, capacity.pos⟩ }
  producer := .idle
  consumer := .idle

def LockFreeQueue.length (queue : LockFreeQueue Event capacity) : Nat :=
  Ring.gap capacity queue.head queue.tail

def LockFreeQueue.slot (queue : LockFreeQueue Event capacity) (i : Nat) : Fin capacity :=
  ⟨Ring.cell capacity queue.head i, Ring.cell_lt capacity.pos⟩

/-- The unpopped events, oldest first. -/
def LockFreeQueue.contents (queue : LockFreeQueue Event capacity) : List Event :=
  (List.range queue.length).map fun i => queue.buffer (queue.slot i)

namespace LockFreeQueue

@[simp] theorem length_contents (queue : LockFreeQueue Event capacity) :
    queue.contents.length = queue.length := by
  simp [contents]

theorem length_le (queue : LockFreeQueue Event capacity) : queue.length ≤ capacity - 1 := by
  have bound : queue.length < capacity := Ring.gap_lt capacity.pos
  omega

theorem length_eq_zero (queue : LockFreeQueue Event capacity) :
    queue.length = 0 ↔ queue.head = queue.tail := by
  rw [Fin.ext_iff]
  exact Ring.gap_eq_zero queue.head.isLt queue.tail.isLt

theorem length_full (queue : LockFreeQueue Event capacity) :
    next queue.tail = queue.head ↔ queue.length = capacity - 1 := by
  have positive := capacity.pos
  have full := Ring.gap_full queue.head.isLt queue.tail.isLt
  rw [Fin.ext_iff]
  simp only [next, length] at full ⊢
  omega

theorem slot_ne_tail (queue : LockFreeQueue Event capacity) {i : Nat} (inside : i < queue.length) :
    queue.slot i ≠ queue.tail := by
  rw [Ne, Fin.ext_iff]
  exact Ring.cell_ne_stop queue.head.isLt queue.tail.isLt inside

theorem slot_length (queue : LockFreeQueue Event capacity) : queue.slot queue.length = queue.tail :=
  Fin.ext (Ring.cell_gap queue.head.isLt queue.tail.isLt)

theorem slot_zero (queue : LockFreeQueue Event capacity) : queue.slot 0 = queue.head :=
  Fin.ext (Nat.mod_eq_of_lt queue.head.isLt)

theorem size_loadTail (queue : LockFreeQueue Event capacity) :
    queue.size (.loadTail queue.head) = .ret queue.length := by
  simp only [size, length, Ring.gap_eq queue.head.isLt queue.tail.isLt, Fin.le_def]

theorem contents_write (queue : LockFreeQueue Event capacity) (event : Event) :
    { queue with buffer := Function.update queue.buffer queue.tail event }.contents = queue.contents := by
  apply List.map_congr_left
  intro i member
  exact Function.update_of_ne (queue.slot_ne_tail (List.mem_range.mp member)) _ _

/-- Storing the advanced `tail` publishes the event in the slot it left. -/
theorem contents_publish (queue : LockFreeQueue Event capacity) (room : next queue.tail ≠ queue.head) :
    { queue with tail := next queue.tail }.contents = queue.contents ++ [queue.buffer queue.tail] := by
  have longer : { queue with tail := next queue.tail }.length = queue.length + 1 :=
    Ring.gap_succ_stop queue.head.isLt queue.tail.isLt (fun same => room (Fin.ext same))
  simp only [contents, longer, List.range_succ, List.map_append, List.map_singleton]
  rw [show LockFreeQueue.slot { queue with tail := next queue.tail } queue.length = queue.tail from
    queue.slot_length]
  rfl

theorem contents_release (queue : LockFreeQueue Event capacity) (occupied : queue.head ≠ queue.tail) :
    queue.contents = queue.buffer queue.head :: { queue with head := next queue.head }.contents := by
  have shorter : { queue with head := next queue.head }.length + 1 = queue.length :=
    Ring.gap_succ_start queue.head.isLt queue.tail.isLt (fun same => occupied (Fin.ext same))
  simp only [contents, ← shorter, List.range_succ_eq_map, List.map_cons, List.map_map, slot_zero]
  congr 1
  apply List.map_congr_left
  intro i _
  have same : queue.slot (i + 1) = LockFreeQueue.slot { queue with head := next queue.head } i :=
    Fin.ext Ring.cell_succ_start.symm
  exact congrArg queue.buffer same

end LockFreeQueue

end SentinelLab.RingBuffer
