import SentinelLab.DaemonThreads

/-! The documented bound on the number of features, 1 to 1024, against what the listener lets into the
queue. -/

namespace SentinelLab.IngestBounds
open Inet Benchmark NetworkIngest Daemon Library.Transition Library.Bytes Library.SinglePrecision

/-- The bound of `validate_frame` and of the protocol checks. -/
def Bounded (count : Nat) : Prop := 1 ≤ count ∧ count ≤ 1024

instance (count : Nat) : Decidable (Bounded count) := inferInstanceAs (Decidable (_ ∧ _))

/-- A datagram that is not a complete frame with a count outside of 1 to 1024. The listener itself checks
only that the declared features were received. -/
def InBounds (datagram : List Byte) : Prop :=
  20 ≤ (recvfrom datagram).length → (recvfrom datagram).take 4 = slab →
    20 + declaredFeatures datagram * 4 ≤ (recvfrom datagram).length →
    declaredFeatures datagram ≠ 0 ∧ declaredFeatures datagram < 1025

instance (datagram : List Byte) : Decidable (InBounds datagram) := inferInstanceAs (Decidable (_ → _ → _ → _))

variable {host : Endian} {inetNtop : InAddr → String} {now : Int} {clientAddr : SockaddrIn}

theorem completeFrame_recvfrom (datagram : List Byte) :
    CompleteFrame (recvfrom datagram) ↔ 20 ≤ (recvfrom datagram).length ∧
      (recvfrom datagram).take 4 = slab ∧ 20 + declaredFeatures datagram * 4 ≤ (recvfrom datagram).length := by
  rw [CompleteFrame, declaredFeatures_recvfrom]

theorem offers_bounded_iff (datagram : List Byte) :
    (∀ ev, ingest host inetNtop now clientAddr datagram = some (some ev) → Bounded (declaredFeatures datagram)) ↔
      InBounds datagram := by
  constructor
  · intro offers long magic whole
    have complete := (completeFrame_recvfrom datagram).mpr ⟨long, magic, whole⟩
    have bounded := offers _ (ingest_eq_some.mpr ⟨complete, rfl⟩)
    exact ⟨Nat.one_le_iff_ne_zero.mp bounded.1, Nat.lt_succ_of_le bounded.2⟩
  · intro inside ev offered
    obtain ⟨long, magic, whole⟩ := (completeFrame_recvfrom datagram).mp (ingest_eq_some.mp offered).1
    have range := inside long magic whole
    exact ⟨Nat.one_le_iff_ne_zero.mpr range.1, Nat.le_of_lt_succ range.2⟩

theorem event_bounded {datagram : List Byte} {ev : BenchmarkEvent} (inside : InBounds datagram)
    (offered : ingest host inetNtop now clientAddr datagram = some (some ev)) : Bounded ev.features.length := by
  have declared := (offers_bounded_iff datagram).mpr inside ev offered
  obtain ⟨complete, rfl⟩ := ingest_eq_some.mp offered
  rwa [(frameEvent_features complete).1, declaredFeatures_recvfrom]

/-! ## Runs of the program -/

variable {capacity : ℕ+} {program : Host} {state after : State capacity} {answers : Answers} {obs : Obs}

def received (state : State capacity) : Label → Option (List Byte)
  | .thread .listener _ => if state.listener = .receiving then state.socket.head?.map Prod.snd else none
  | _ => none

def ReceivesInBounds (state : State capacity) (label : Label) : Prop :=
  ∀ datagram ∈ received state label, InBounds datagram

instance (state : State capacity) (label : Label) : Decidable (ReceivesInBounds state label) :=
  inferInstanceAs (Decidable (∀ datagram ∈ received state label, InBounds datagram))

/-- Every queued event has between 1 and 1024 features. -/
def QueueBounded (state : State capacity) : Prop :=
  ∀ ev ∈ state.queue.queue.contents, Bounded ev.features.length

/-- What is queued or being pushed is bounded. -/
abbrev HeldBounded (state : State capacity) : Prop :=
  RingBuffer.Held (fun ev : BenchmarkEvent => Bounded ev.features.length) state.queue

theorem stepWorker_held (coordinated : Coordinated state) (held : HeldBounded state)
    (taken : stepWorker program state answers = some (after, obs)) : HeldBounded after := by
  unfold stepWorker at taken
  cases current : state.worker <;> simp only [current] at taken
  case notStarted => cases taken
  case exited => cases taken
  case test =>
    split at taken
    · rcases access_eq_some taken with ⟨queue, returned, accessed, rfl, _⟩
      exact RingBuffer.step_held coordinated.consistent accessed (fun _ other => by cases other) held
    · cases taken
      exact held
  case popping =>
    rcases access_eq_some taken with ⟨queue, returned, accessed, rfl, _⟩
    exact RingBuffer.step_held coordinated.consistent accessed (fun _ other => by cases other) held
  case locking ev =>
    split at taken <;> cases taken
    exact held
  all_goals
    cases taken
    exact held

theorem stepListener_held (coordinated : Coordinated state) (held : HeldBounded state)
    (inside : ReceivesInBounds state (.thread .listener answers))
    (taken : stepListener program state answers = some (after, obs)) : HeldBounded after := by
  unfold stepListener at taken
  cases current : state.listener <;> simp only [current] at taken
  case notStarted => cases taken
  case exited => cases taken
  case receiving =>
    split at taken
    · cases taken
    · next clientAddr datagram rest waiting =>
      have taken_in_bounds : InBounds datagram := inside datagram (by simp [received, current, waiting])
      split at taken
      · cases taken
      · cases taken
        exact held
      · next ev offered =>
        have bounded := event_bounded taken_in_bounds offered
        rcases access_eq_some taken with ⟨queue, returned, accessed, rfl, _⟩
        refine RingBuffer.step_held coordinated.consistent accessed ?_ held
        intro pushed same
        cases same
        exact bounded
  case pushing =>
    rcases access_eq_some taken with ⟨queue, returned, accessed, rfl, _⟩
    exact RingBuffer.step_held coordinated.consistent accessed (fun _ other => by cases other) held
  all_goals
    cases taken
    exact held

theorem step_held {label : Label} (coordinated : Coordinated state) (held : HeldBounded state)
    (inside : ReceivesInBounds state label) (taken : step program state label = some (after, obs)) :
    HeldBounded after := by
  cases label with
  | thread thread answers =>
    cases thread with
    | main =>
      have same := (stepMain_moves taken).queue
      rwa [HeldBounded, same]
    | worker => exact stepWorker_held coordinated held taken
    | listener => exact stepListener_held coordinated held inside taken
    | server =>
      have same := (stepServer_moves taken).queue
      rwa [HeldBounded, same]
  | scribble garbage =>
    simp only [step] at taken
    rcases access_eq_some taken with ⟨queue, returned, accessed, rfl, _⟩
    exact RingBuffer.step_held coordinated.consistent accessed (fun _ other => by cases other) held
  | _ =>
    have same := (step_outsideMoves rfl taken).queue
    rwa [HeldBounded, same]

theorem initial_held (capacity : ℕ+) (buffer : Fin capacity → BenchmarkEvent) (world : EbpfFilter.World) :
    HeldBounded (initial capacity buffer world) where
  queued := by
    have empty := RingBuffer.initial_contents buffer
    intro ev member
    simp only [initial, empty, List.not_mem_nil] at member
  pushing := nofun

theorem run_held {buffer : Fin capacity → BenchmarkEvent} {world : EbpfFilter.World} {final : State capacity}
    {trace : List (Entry (State capacity) Label Obs)}
    (run : Run (machine program capacity) (initial capacity buffer world) trace final)
    (inside : ∀ entry ∈ trace, ReceivesInBounds entry.before entry.label) : HeldBounded final := by
  induction run with
  | nil => exact initial_held capacity buffer world
  | snoc earlier taken ih =>
    have held := ih fun entry member => inside entry (List.mem_append_left _ member)
    have now := inside _ (List.mem_append_right _ List.mem_cons_self)
    exact step_held (run_coordinated earlier) held now taken

/-- A datagram is offered with a bounded count only, exactly if it is in bounds; and as long as only such
datagrams are received, every event in the queue has between 1 and 1024 features. -/
theorem queue_bounded_of_inBounds (program : Host) (capacity : ℕ+) :
    (∀ now clientAddr datagram,
      (∀ ev, ingest program.endian program.codec.ntop now clientAddr datagram = some (some ev) →
        Bounded (declaredFeatures datagram)) ↔ InBounds datagram) ∧
    ∀ (buffer : Fin capacity → BenchmarkEvent) (world : EbpfFilter.World) (final : State capacity)
      (trace : List (Entry (State capacity) Label Obs)),
      Run (machine program capacity) (initial capacity buffer world) trace final →
      (∀ entry ∈ trace, ReceivesInBounds entry.before entry.label) → QueueBounded final := by
  constructor
  · intro now clientAddr datagram
    exact offers_bounded_iff datagram
  · intro buffer world final trace run inside
    exact (run_held run inside).queued

theorem queue_bounded_of_inBounds_one : ∃ trace final,
    Run (machine littleHost 4) (initial 4 (fun _ => {}) launched.world) trace final ∧
      final.queue.queue.contents.length = 1 ∧ QueueBounded final := by
  obtain ⟨⟨trace, final⟩, executed⟩ : ∃ result,
      (machine littleHost 4).exec (initial 4 (fun _ => {}) launched.world)
        (turns .main 3 ++ turns .listener 2 ++ [.datagram ⟨(0xC3, 0x50), ⟨10, 0, 0, 1⟩⟩
          (slab ++ [0, 0, 0, 0, 0, 0, 0, 1, 0, 0, 0, 0, 0, 0, 0, 1, 0, 0, 0x80, 0x3F])] ++ turns .listener 5) =
        some result := ⟨_, rfl⟩
  have run := Machine.exec_run executed
  have inside : ∀ entry ∈ trace, ReceivesInBounds entry.before entry.label := by
    cases executed
    decide
  refine ⟨trace, final, run, ?_, (queue_bounded_of_inBounds littleHost 4).2 _ _ final trace run inside⟩
  cases executed
  rfl

/-- A header that declares no features is offered. -/
theorem offers_no_features : ∃ datagram ev,
    ingest littleHost.endian littleHost.codec.ntop 0 ⟨(0x9C, 0x40), ⟨127, 0, 0, 1⟩⟩ datagram = some (some ev) ∧
      ev.features = [] ∧ ¬Bounded (declaredFeatures datagram) := by
  refine ⟨slab ++ List.replicate 16 0, _, rfl, rfl, ?_⟩
  decide

end SentinelLab.IngestBounds
