import SentinelLab.Library.Bytes
import SentinelLab.Library.Transition

/-! `StatefulFuzzer`: sessions of an S7 client that polls and then stops the CPU. -/

namespace SentinelLab.ScadaSession
open Library.Bytes Library.Transition

inductive ScadaSessionState where
  | unconnected
  | cotpEstablished
  | s7SessionReady
  | benignPolling
  | stealthInjection
  deriving DecidableEq, Repr

structure StatefulSessionFrame where
  currentState : ScadaSessionState := .unconnected
  sequenceNumber : BitVec 16 := 0
  payload : List Byte := []
  delayMs : BitVec 64 := 100
  deriving DecidableEq, Repr

structure StatefulFuzzerConfig where
  benignPollingCycles : BitVec 32 := 10
  interPacketDelayMs : BitVec 64 := 100
  deriving DecidableEq, Repr

structure StatefulFuzzer where
  config : StatefulFuzzerConfig
  currentState : ScadaSessionState := .unconnected
  seqNum : BitVec 16 := 0
  pollingCount : BitVec 32 := 0
  deriving DecidableEq, Repr

def StatefulFuzzer.getCurrentState (fuzzer : StatefulFuzzer) : ScadaSessionState := fuzzer.currentState

def cotpCr : List Byte :=
  [0x03, 0x00, 0x00, 0x16, 0x11, 0xE0, 0x00, 0x00, 0x00, 0x01, 0x00, 0x00, 0x01, 0x00, 0x00]

def s7Setup : List Byte :=
  [0x03, 0x00, 0x00, 0x19, 0x02, 0xF0, 0x80, 0x32, 0x01, 0x00, 0x00, 0x00, 0x00, 0x00, 0x08, 0x00, 0x00, 0x00, 0x01,
    0x00, 0x01, 0x01, 0xE0]

/-- The benign Read Data query. -/
def s7Read : List Byte :=
  [0x03, 0x00, 0x00, 0x1F, 0x02, 0xF0, 0x80, 0x32, 0x01, 0x00, 0x00, 0x00, 0x02, 0x00, 0x0E, 0x00, 0x00, 0x04, 0x01,
    0x12, 0x0A, 0x10, 0x02, 0x00, 0x01, 0x00, 0x00, 0x84, 0x00, 0x00, 0x00]

/-- The CPU STOP command. -/
def s7Stop : List Byte :=
  [0x03, 0x00, 0x00, 0x21, 0x02, 0xF0, 0x80, 0x32, 0x01, 0x00, 0x00, 0x00, 0x03, 0x00, 0x10, 0x00, 0x00, 0x29, 0x00,
    0x00, 0x00, 0x00, 0x00, 0x09, 0x50, 0x5F, 0x50, 0x52, 0x4F, 0x47, 0x52, 0x41, 0x4D]

def StatefulFuzzer.resetSession (fuzzer : StatefulFuzzer) : StatefulFuzzer :=
  { fuzzer with currentState := .unconnected, seqNum := 0, pollingCount := 0 }

def StatefulFuzzer.generateNextSessionFrame (fuzzer : StatefulFuzzer) : StatefulSessionFrame × StatefulFuzzer :=
  let seqNum := fuzzer.seqNum + 1
  let frame : StatefulSessionFrame := { sequenceNumber := seqNum, delayMs := fuzzer.config.interPacketDelayMs }
  let fuzzer := { fuzzer with seqNum }
  match fuzzer.currentState with
  | .unconnected =>
      ({ frame with payload := cotpCr, currentState := .unconnected },
        { fuzzer with currentState := .cotpEstablished })
  | .cotpEstablished =>
      ({ frame with payload := s7Setup, currentState := .cotpEstablished },
        { fuzzer with currentState := .s7SessionReady })
  | .s7SessionReady | .benignPolling =>
      let pollingCount := fuzzer.pollingCount + 1
      ({ frame with payload := s7Read, currentState := .benignPolling },
        { fuzzer with
          pollingCount
          currentState :=
            if pollingCount ≥ fuzzer.config.benignPollingCycles then .stealthInjection else .benignPolling })
  | .stealthInjection =>
      ({ frame with payload := s7Stop, currentState := .stealthInjection }, fuzzer.resetSession)

/-! ## Calls of a client -/

inductive Call where
  | generateNextSessionFrame
  | resetSession
  deriving DecidableEq, Repr

def machine : Machine StatefulFuzzer Call (Option StatefulSessionFrame) where
  step fuzzer
    | .generateNextSessionFrame =>
        let (frame, next) := fuzzer.generateNextSessionFrame
        some (next, some frame)
    | .resetSession => some (fuzzer.resetSession, none)

/-! ## Sessions -/

/-- What a frame says and what it sends. -/
abbrev Sent := ScadaSessionState × List Byte

def StatefulSessionFrame.sent (frame : StatefulSessionFrame) : Sent := (frame.currentState, frame.payload)

def polling (polls : Nat) : List Sent :=
  List.replicate polls (.benignPolling, s7Read) ++ [(.stealthInjection, s7Stop)]

def session (benignPollingCycles : BitVec 32) : List Sent :=
  (.unconnected, cotpCr) :: (.cotpEstablished, s7Setup) :: polling (max 1 benignPollingCycles.toNat)

def StatefulFuzzer.pending (fuzzer : StatefulFuzzer) : List Sent :=
  let cycles := fuzzer.config.benignPollingCycles
  match fuzzer.currentState with
  | .unconnected => session cycles
  | .cotpEstablished => (.cotpEstablished, s7Setup) :: polling (max 1 cycles.toNat)
  | .s7SessionReady | .benignPolling => polling (max 1 cycles.toNat - fuzzer.pollingCount.toNat)
  | .stealthInjection => polling 0

def StatefulFuzzer.Counted (fuzzer : StatefulFuzzer) : Prop :=
  match fuzzer.currentState with
  | .unconnected | .cotpEstablished | .s7SessionReady => fuzzer.pollingCount = 0
  | .benignPolling => fuzzer.pollingCount.toNat < fuzzer.config.benignPollingCycles.toNat
  | .stealthInjection => True

theorem polling_read {cycles count : BitVec 32} (counted : count = 0 ∨ count.toNat < cycles.toNat) :
    polling (max 1 cycles.toNat - count.toNat) = (.benignPolling, s7Read) ::
        polling (if count + 1 ≥ cycles then 0 else max 1 cycles.toNat - (count + 1).toNat) ∧
      (¬count + 1 ≥ cycles → (count + 1).toNat < cycles.toNat) := by
  have bound : cycles.toNat < 2 ^ 32 := cycles.isLt
  have small : count.toNat < max 1 cycles.toNat := by
    rcases counted with zero | below
    · have start : count.toNat = 0 := congrArg BitVec.toNat zero
      omega
    · omega
  have next : (count + 1).toNat = count.toNat + 1 := by
    rw [BitVec.toNat_add]
    exact Nat.mod_eq_of_lt (by change count.toNat + 1 < 2 ^ 32; omega)
  have threshold : count + 1 ≥ cycles ↔ cycles.toNat ≤ count.toNat + 1 := by
    rw [ge_iff_le, BitVec.le_def, next]
  have left : max 1 cycles.toNat - count.toNat =
      (if count + 1 ≥ cycles then 0 else max 1 cycles.toNat - (count + 1).toNat) + 1 := by
    split
    · next enough =>
      have last := threshold.mp enough
      omega
    · next more =>
      rw [threshold] at more
      omega
  constructor
  · rw [left]
    rfl
  · intro more
    rw [threshold] at more
    omega

theorem generate_reading {config : StatefulFuzzerConfig} {state : ScadaSessionState} {seqNum : BitVec 16}
    {count : BitVec 32} (reading : state = .s7SessionReady ∨ state = .benignPolling) :
    (StatefulFuzzer.mk config state seqNum count).generateNextSessionFrame =
      (⟨.benignPolling, seqNum + 1, s7Read, config.interPacketDelayMs⟩,
        ⟨config, if count + 1 ≥ config.benignPollingCycles then .stealthInjection else .benignPolling,
          seqNum + 1, count + 1⟩) := by
  rcases reading with rfl | rfl
  · rfl
  · rfl

theorem generate_read {fuzzer next : StatefulFuzzer} {frame : StatefulSessionFrame}
    (reading : fuzzer.currentState = .s7SessionReady ∨ fuzzer.currentState = .benignPolling)
    (counted : fuzzer.Counted) (generated : fuzzer.generateNextSessionFrame = (frame, next)) :
    next.Counted ∧ next.config = fuzzer.config ∧ frame.currentState = .benignPolling ∧
      fuzzer.pending = frame.sent :: next.pending := by
  obtain ⟨config, state, seqNum, count⟩ := fuzzer
  have reads : (count = 0 ∨ count.toNat < config.benignPollingCycles.toNat) ∧
      (StatefulFuzzer.mk config state seqNum count).pending =
        polling (max 1 config.benignPollingCycles.toNat - count.toNat) := by
    rcases reading with ready | polls
    · cases ready
      exact ⟨.inl counted, rfl⟩
    · cases polls
      exact ⟨.inr counted, rfl⟩
  obtain ⟨sent, more⟩ := polling_read reads.1
  rw [generate_reading reading] at generated
  cases generated
  rw [reads.2, sent]
  by_cases enough : count + 1 ≥ config.benignPollingCycles
  · rw [if_pos enough, if_pos enough]
    exact ⟨trivial, rfl, rfl, rfl⟩
  · rw [if_neg enough, if_neg enough]
    exact ⟨more enough, rfl, rfl, rfl⟩

/-- A call sends the first frame of what is pending. What follows is the rest of the session, or a
new session after the injection. -/
theorem generate_spec {fuzzer next : StatefulFuzzer} {frame : StatefulSessionFrame} (counted : fuzzer.Counted)
    (generated : fuzzer.generateNextSessionFrame = (frame, next)) :
    next.Counted ∧ next.config = fuzzer.config ∧
      ((frame.currentState = .stealthInjection ∧ fuzzer.pending = [frame.sent] ∧
          next.currentState = .unconnected) ∨
        (frame.currentState ≠ .stealthInjection ∧ fuzzer.pending = frame.sent :: next.pending)) := by
  have sentBefore (reading : fuzzer.currentState = .s7SessionReady ∨ fuzzer.currentState = .benignPolling) :
      next.Counted ∧ next.config = fuzzer.config ∧ frame.currentState ≠ .stealthInjection ∧
        fuzzer.pending = frame.sent :: next.pending := by
    obtain ⟨counts, same, state, pending⟩ := generate_read reading counted generated
    exact ⟨counts, same, by rw [state]; decide, pending⟩
  obtain ⟨config, state, seqNum, count⟩ := fuzzer
  cases state with
  | unconnected =>
    cases generated
    exact ⟨counted, rfl, .inr ⟨nofun, rfl⟩⟩
  | cotpEstablished =>
    cases generated
    have zero : count = 0 := counted
    subst zero
    exact ⟨rfl, rfl, .inr ⟨nofun, rfl⟩⟩
  | s7SessionReady =>
    obtain ⟨counts, same, sent⟩ := sentBefore (.inl rfl)
    exact ⟨counts, same, .inr sent⟩
  | benignPolling =>
    obtain ⟨counts, same, sent⟩ := sentBefore (.inr rfl)
    exact ⟨counts, same, .inr sent⟩
  | stealthInjection =>
    cases generated
    exact ⟨rfl, rfl, .inl ⟨rfl, rfl, rfl⟩⟩

theorem pending_of_unconnected {fuzzer : StatefulFuzzer} (idle : fuzzer.currentState = .unconnected) :
    fuzzer.pending = session fuzzer.config.benignPollingCycles := by
  rw [StatefulFuzzer.pending, idle]

/-! ## The pieces of a transcript -/

inductive Cut where
  | injection
  | reset
  | endOfRun
  deriving DecidableEq, Repr

structure Piece where
  frames : List StatefulSessionFrame
  cut : Cut
  deriving DecidableEq, Repr

/-- Splits what the calls returned at resets and after each injection; `frames` is the piece so
far. -/
def pieces (frames : List StatefulSessionFrame) : List (Option StatefulSessionFrame) → List Piece
  | [] => [⟨frames, .endOfRun⟩]
  | none :: later => ⟨frames, .reset⟩ :: pieces [] later
  | some frame :: later =>
      if frame.currentState = .stealthInjection then ⟨frames ++ [frame], .injection⟩ :: pieces [] later
      else pieces (frames ++ [frame]) later

/-- A piece is the beginning of a session, and all of it if the injection ended it. -/
def Piece.Ordered (benignPollingCycles : BitVec 32) (piece : Piece) : Prop :=
  piece.frames.map StatefulSessionFrame.sent <+: session benignPollingCycles ∧
    (piece.cut = .injection → piece.frames.map StatefulSessionFrame.sent = session benignPollingCycles)

/-- The frames of the open piece and what is pending make up one session. -/
def Continues (frames : List StatefulSessionFrame) (fuzzer : StatefulFuzzer) : Prop :=
  fuzzer.Counted ∧ frames.map StatefulSessionFrame.sent ++ fuzzer.pending =
    session fuzzer.config.benignPollingCycles

theorem continues_of_unconnected {fuzzer : StatefulFuzzer} (counted : fuzzer.Counted)
    (idle : fuzzer.currentState = .unconnected) : Continues [] fuzzer := by
  refine ⟨counted, ?_⟩
  rw [List.map_nil, List.nil_append, pending_of_unconnected idle]

theorem Continues.ordered {frames : List StatefulSessionFrame} {fuzzer : StatefulFuzzer} {cut : Cut}
    (continues : Continues frames fuzzer) (open' : cut ≠ .injection) :
    (Piece.mk frames cut).Ordered fuzzer.config.benignPollingCycles := by
  constructor
  · rw [← continues.2]
    exact List.prefix_append ..
  · intro injected
    exact absurd injected open'

/-- The induction rule for the pieces of a run: `inv` relates the open piece to the fuzzer. -/
theorem pieces_rule (inv : List StatefulSessionFrame → StatefulFuzzer → Prop) {good : Piece → Prop}
    (opened : ∀ frames fuzzer cut, inv frames fuzzer → cut ≠ .injection → good ⟨frames, cut⟩)
    (reset : ∀ frames fuzzer, inv frames fuzzer → inv [] fuzzer.resetSession)
    (generated : ∀ frames fuzzer frame next, inv frames fuzzer →
      fuzzer.generateNextSessionFrame = (frame, next) →
        (frame.currentState = .stealthInjection → good ⟨frames ++ [frame], .injection⟩ ∧ inv [] next) ∧
          (frame.currentState ≠ .stealthInjection → inv (frames ++ [frame]) next))
    {trace : List (Entry StatefulFuzzer Call (Option StatefulSessionFrame))} {fuzzer final : StatefulFuzzer}
    {frames : List StatefulSessionFrame} (run : Run machine fuzzer trace final) (base : inv frames fuzzer) :
    ∀ piece ∈ pieces frames (trace.map (·.obs)), good piece := by
  induction trace generalizing fuzzer frames with
  | nil =>
    intro piece member
    rw [List.mem_singleton.mp member]
    exact opened frames fuzzer _ base nofun
  | cons entry trace ih =>
    obtain ⟨_, taken, later⟩ := run.of_cons
    obtain ⟨before, label, obs, next⟩ := entry
    cases label with
    | resetSession =>
      cases taken
      intro piece member
      rcases List.mem_cons.mp member with first | rest
      · rw [first]
        exact opened frames fuzzer _ base nofun
      · exact ih later (reset frames fuzzer base) piece rest
    | generateNextSessionFrame =>
      generalize returned : fuzzer.generateNextSessionFrame = result at taken
      obtain ⟨frame, next⟩ := result
      simp only [machine, returned, Option.some.injEq, Prod.mk.injEq] at taken
      obtain ⟨rfl, rfl⟩ := taken
      obtain ⟨ended, continued⟩ := generated frames fuzzer frame next base returned
      rw [List.map_cons, pieces]
      split
      · next injected =>
        obtain ⟨whole, fresh⟩ := ended injected
        intro piece member
        rcases List.mem_cons.mp member with first | rest
        · rw [first]
          exact whole
        · exact ih later fresh piece rest
      · next other => exact ih later (continued other)

theorem Continues.generate {frames : List StatefulSessionFrame} {fuzzer next : StatefulFuzzer}
    {frame : StatefulSessionFrame} (continues : Continues frames fuzzer)
    (generated : fuzzer.generateNextSessionFrame = (frame, next)) :
    next.config = fuzzer.config ∧
      (frame.currentState = .stealthInjection →
        (frames ++ [frame]).map StatefulSessionFrame.sent = session fuzzer.config.benignPollingCycles ∧
          Continues [] next) ∧
      (frame.currentState ≠ .stealthInjection → Continues (frames ++ [frame]) next) := by
  obtain ⟨counted, config, outcome⟩ := generate_spec continues.1 generated
  refine ⟨config, ?_, ?_⟩
  · intro injected
    rcases outcome with ⟨_, last, idle⟩ | ⟨other, _⟩
    · constructor
      · rw [← continues.2, last, List.map_append]
        rfl
      · exact continues_of_unconnected counted idle
    · exact absurd injected other
  · intro other
    rcases outcome with ⟨injected, _, _⟩ | ⟨_, pending⟩
    · exact absurd injected other
    · refine ⟨counted, ?_⟩
      rw [config, ← continues.2, pending, List.map_append, List.append_assoc]
      rfl

theorem pieces_ordered {trace : List (Entry StatefulFuzzer Call (Option StatefulSessionFrame))}
    {fuzzer final : StatefulFuzzer} {frames : List StatefulSessionFrame} (run : Run machine fuzzer trace final)
    (continues : Continues frames fuzzer) :
    ∀ piece ∈ pieces frames (trace.map (·.obs)), piece.Ordered fuzzer.config.benignPollingCycles := by
  refine pieces_rule (fun frames other => Continues frames other ∧ other.config = fuzzer.config) ?_ ?_ ?_ run
    ⟨continues, rfl⟩
  · intro frames other cut kept open'
    rw [← kept.2]
    exact kept.1.ordered open'
  · intro frames other kept
    exact ⟨continues_of_unconnected rfl rfl, kept.2⟩
  · intro frames other frame next kept generated
    obtain ⟨config, ended, continued⟩ := kept.1.generate generated
    rw [kept.2] at config ended
    constructor
    · intro injected
      obtain ⟨whole, fresh⟩ := ended injected
      exact ⟨⟨by rw [whole], fun _ => whole⟩, fresh, config⟩
    · intro more
      exact ⟨continued more, config⟩

theorem run_to_injection {fuzzer : StatefulFuzzer} (frames : List StatefulSessionFrame)
    (counted : fuzzer.Counted) :
    ∃ trace final whole, Run machine fuzzer trace final ∧
      (∀ entry ∈ trace, entry.label = .generateNextSessionFrame) ∧
      pieces frames (trace.map (·.obs)) = [⟨whole, .injection⟩, ⟨[], .endOfRun⟩] := by
  generalize left : fuzzer.pending = pending
  induction pending generalizing fuzzer frames with
  | nil =>
    obtain ⟨_, _, ⟨_, last, _⟩ | ⟨_, last⟩⟩ := generate_spec counted rfl
    · rw [left] at last
      exact absurd last.symm (List.cons_ne_nil _ _)
    · rw [left] at last
      exact absurd last.symm (List.cons_ne_nil _ _)
  | cons sent later ih =>
    generalize generated : fuzzer.generateNextSessionFrame = result
    obtain ⟨frame, next⟩ := result
    have taken : machine.step fuzzer .generateNextSessionFrame = some (next, some frame) := by
      simp only [machine, generated]
    obtain ⟨counts, _, ⟨injected, _, _⟩ | ⟨other, pending⟩⟩ := generate_spec counted generated
    · refine ⟨_, next, frames ++ [frame], Run.single taken, ?_, ?_⟩
      · intro entry member
        rw [List.mem_singleton.mp member]
      · rw [List.map_singleton, pieces, if_pos injected]
        rfl
    · rw [left] at pending
      obtain ⟨trace, final, whole, run, asked, split⟩ := ih (frames ++ [frame]) counts (List.cons.inj pending).2.symm
      refine ⟨_, final, whole, (Run.single taken).trans run, ?_, ?_⟩
      · intro entry member
        rcases List.mem_cons.mp member with first | rest
        · rw [first]
        · exact asked entry rest
      · rw [List.singleton_append, List.map_cons, pieces, if_neg other]
        exact split

def constructed (config : StatefulFuzzerConfig) : StatefulFuzzer := { config }

theorem step_counted (fuzzer : StatefulFuzzer) (call : Call) (obs : Option StatefulSessionFrame)
    (next : StatefulFuzzer) (counted : fuzzer.Counted) (taken : machine.step fuzzer call = some (next, obs)) :
    next.Counted ∧ (call = .resetSession ∨
      (∃ frame, obs = some frame ∧ frame.currentState = .stealthInjection) → next.currentState = .unconnected) := by
  cases call with
  | resetSession =>
    cases taken
    exact ⟨rfl, fun _ => rfl⟩
  | generateNextSessionFrame =>
    generalize generated : fuzzer.generateNextSessionFrame = result at taken
    obtain ⟨frame, after⟩ := result
    simp only [machine, generated, Option.some.injEq, Prod.mk.injEq] at taken
    obtain ⟨rfl, rfl⟩ := taken
    obtain ⟨counts, _, outcome⟩ := generate_spec counted generated
    refine ⟨counts, ?_⟩
    intro ended
    rcases ended with reset | ⟨sent, same, injected⟩
    · cases reset
    · cases same
      rcases outcome with ⟨_, _, idle⟩ | ⟨other, _⟩
      · exact idle
      · exact absurd injected other

/-- Whatever the calls and wherever the resets, the frames come in sessions: every piece of the
transcript is the beginning of one, every piece that an injection ended is one, and after an
injection or a reset the fuzzer is unconnected. -/
theorem sessions_ordered {trace : List (Entry StatefulFuzzer Call (Option StatefulSessionFrame))}
    {final : StatefulFuzzer} (config : StatefulFuzzerConfig) (run : Run machine (constructed config) trace final) :
    (∀ piece ∈ pieces [] (trace.map (·.obs)), piece.Ordered config.benignPollingCycles) ∧
      ∀ entry ∈ trace, (entry.label = .resetSession ∨
        ∃ frame, entry.obs = some frame ∧ frame.currentState = .stealthInjection) →
          entry.after.getCurrentState = .unconnected := by
  constructor
  · exact pieces_ordered run (continues_of_unconnected rfl rfl)
  · intro entry member ended
    have counts (fuzzer : StatefulFuzzer) (call : Call) (obs : Option StatefulSessionFrame) (next : StatefulFuzzer)
        (counted : fuzzer.Counted) (taken : machine.step fuzzer call = some (next, obs)) : next.Counted :=
      (step_counted fuzzer call obs next counted taken).1
    obtain ⟨counted, taken⟩ := run.entry_invariant counts rfl member
    exact (step_counted _ _ _ _ counted taken).2 ended

/-- A session of no polls still has one read; a reset cuts the second session. -/
theorem sessions_ordered_with_reset : ∃ trace final,
    Run machine (constructed ⟨0, 100⟩) trace final ∧
      (pieces [] (trace.map (·.obs))).map (fun piece => (piece.frames.map (·.currentState), piece.cut)) =
        [([.unconnected, .cotpEstablished, .benignPolling, .stealthInjection], .injection),
          ([.unconnected], .reset), ([], .endOfRun)] ∧
      ∀ piece ∈ pieces [] (trace.map (·.obs)), piece.Ordered 0 := by
  obtain ⟨⟨trace, final⟩, executed⟩ : ∃ result, machine.exec (constructed ⟨0, 100⟩)
      [.generateNextSessionFrame, .generateNextSessionFrame, .generateNextSessionFrame, .generateNextSessionFrame,
        .generateNextSessionFrame, .resetSession] = some result := ⟨_, rfl⟩
  have run := Machine.exec_run executed
  refine ⟨trace, final, run, ?_, (sessions_ordered ⟨0, 100⟩ run).1⟩
  cases executed
  rfl

end SentinelLab.ScadaSession
