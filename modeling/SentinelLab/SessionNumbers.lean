import SentinelLab.ScadaSession
import SentinelLab.Library.Counter

/-! The sequence numbers of a session: a counter of 16 bits numbers as many frames as a setting of
32 bits asks for. -/

namespace SentinelLab.SessionNumbers
open ScadaSession Library.Counter Library.Transition

def sequenceNumbers (frames : List StatefulSessionFrame) : List (BitVec 16) :=
  frames.map (·.sequenceNumber)

/-- The numbers start at one and strictly increase. -/
structure Increasing (numbers : List (BitVec 16)) : Prop where
  first : ∀ number ∈ numbers.head?, number = 1
  increase : numbers.Pairwise (· < ·)

theorem increasing_iff (count : Nat) : Increasing (values 16 count) ↔ count ≤ 65535 := by
  have limit : (values 16 count).Pairwise (· < ·) ↔ count < 2 ^ 16 := values_increase_iff (by decide)
  constructor
  · intro increasing
    have below := limit.mp increasing.increase
    omega
  · intro short
    exact ⟨values_first, limit.mpr (by omega)⟩

/-! ## The counter along a run -/

theorem generate_number {fuzzer next : StatefulFuzzer} {frame : StatefulSessionFrame}
    (generated : fuzzer.generateNextSessionFrame = (frame, next)) :
    frame.sequenceNumber = fuzzer.seqNum + 1 ∧
      next.seqNum = if frame.currentState = .stealthInjection then 0 else fuzzer.seqNum + 1 := by
  obtain ⟨config, state, seqNum, count⟩ := fuzzer
  cases state with
  | unconnected | cotpEstablished | s7SessionReady | benignPolling | stealthInjection =>
    cases generated
    exact ⟨rfl, rfl⟩

/-- The frames of the open piece have the first values of the counter. -/
def Numbered (frames : List StatefulSessionFrame) (fuzzer : StatefulFuzzer) : Prop :=
  sequenceNumbers frames = values 16 frames.length ∧ fuzzer.seqNum = BitVec.ofNat 16 frames.length

theorem Numbered.append {frames : List StatefulSessionFrame} {fuzzer : StatefulFuzzer}
    {frame : StatefulSessionFrame} (numbered : Numbered frames fuzzer)
    (number : frame.sequenceNumber = fuzzer.seqNum + 1) :
    sequenceNumbers (frames ++ [frame]) = values 16 (frames ++ [frame]).length := by
  calc sequenceNumbers (frames ++ [frame])
      = sequenceNumbers frames ++ [frame.sequenceNumber] := List.map_append
    _ = values 16 frames.length ++ [BitVec.ofNat 16 frames.length + 1] := by rw [numbered.1, number, numbered.2]
    _ = values 16 (frames.length + 1) := (values_succ _).symm
    _ = values 16 (frames ++ [frame]).length := by rw [List.length_append, List.length_singleton]

variable {trace : List (Entry StatefulFuzzer Call (Option StatefulSessionFrame))} {fuzzer final : StatefulFuzzer}

theorem pieces_numbered (config : StatefulFuzzerConfig) (run : Run machine (constructed config) trace final) :
    ∀ piece ∈ pieces [] (trace.map (·.obs)), sequenceNumbers piece.frames = values 16 piece.frames.length := by
  refine pieces_rule Numbered ?_ ?_ ?_ run ⟨rfl, rfl⟩
  · intro frames fuzzer cut numbered _
    exact numbered.1
  · intro frames fuzzer _
    exact ⟨rfl, rfl⟩
  · intro frames fuzzer frame next numbered generated
    obtain ⟨number, after⟩ := generate_number generated
    have longer := numbered.append number
    constructor
    · intro injected
      rw [if_pos injected] at after
      exact ⟨longer, rfl, after⟩
    · intro other
      rw [if_neg other, numbered.2, ofNat_add_one] at after
      exact ⟨longer, by rw [after, List.length_append, List.length_singleton]⟩

/-! ## The length of a session -/

theorem session_length (benignPollingCycles : BitVec 32) :
    (session benignPollingCycles).length = max 1 benignPollingCycles.toNat + 3 := by
  simp [session, polling]

theorem piece_length (config : StatefulFuzzerConfig) (run : Run machine (constructed config) trace final) :
    ∀ piece ∈ pieces [] (trace.map (·.obs)),
      piece.frames.length ≤ max 1 config.benignPollingCycles.toNat + 3 ∧
        (piece.cut = .injection → piece.frames.length = max 1 config.benignPollingCycles.toNat + 3) := by
  intro piece member
  obtain ⟨beginning, whole⟩ := pieces_ordered run (continues_of_unconnected rfl rfl) piece member
  have length := session_length (constructed config).config.benignPollingCycles
  constructor
  · calc piece.frames.length = (piece.frames.map StatefulSessionFrame.sent).length := List.length_map _ |>.symm
      _ ≤ (session config.benignPollingCycles).length := beginning.length_le
      _ = max 1 config.benignPollingCycles.toNat + 3 := length
  · intro injected
    calc piece.frames.length = (piece.frames.map StatefulSessionFrame.sent).length := List.length_map _ |>.symm
      _ = (session config.benignPollingCycles).length := congrArg List.length (whole injected)
      _ = max 1 config.benignPollingCycles.toNat + 3 := length

theorem whole_session (config : StatefulFuzzerConfig) : ∃ trace final whole,
    Run machine (constructed config) trace final ∧
      (∀ entry ∈ trace, entry.label = .generateNextSessionFrame) ∧
      ⟨whole, .injection⟩ ∈ pieces [] (trace.map (·.obs)) ∧
      sequenceNumbers whole = values 16 (max 1 config.benignPollingCycles.toNat + 3) := by
  have counted : (constructed config).Counted := rfl
  obtain ⟨trace, final, whole, run, asked, split⟩ := run_to_injection [] counted
  have member : ⟨whole, .injection⟩ ∈ pieces [] (trace.map (·.obs)) := by
    rw [split]
    exact List.mem_cons_self
  refine ⟨trace, final, whole, run, asked, member, ?_⟩
  rw [← (piece_length config run _ member).2 rfl]
  exact pieces_numbered config run _ member

/-! ## Which sessions are numbered well -/

/-- In every piece of every run, with resets anywhere, the numbers are good. -/
def GoodPieces (config : StatefulFuzzerConfig) (good : List (BitVec 16) → Prop) : Prop :=
  ∀ trace final, Run machine (constructed config) trace final →
    ∀ piece ∈ pieces [] (trace.map (·.obs)), good (sequenceNumbers piece.frames)

/-- Without a reset, the numbers are good from each connection request to its injection. -/
def GoodSessions (config : StatefulFuzzerConfig) (good : List (BitVec 16) → Prop) : Prop :=
  ∀ trace final, Run machine (constructed config) trace final →
    (∀ entry ∈ trace, entry.label = .generateNextSessionFrame) →
      ∀ piece ∈ pieces [] (trace.map (·.obs)), piece.cut = .injection → good (sequenceNumbers piece.frames)

theorem good_iff {good : List (BitVec 16) → Prop} {limit : Nat}
    (up_to : ∀ count, good (values 16 count) ↔ count ≤ limit) (config : StatefulFuzzerConfig) :
    (GoodSessions config good ↔ max 1 config.benignPollingCycles.toNat + 3 ≤ limit) ∧
      (GoodPieces config good ↔ max 1 config.benignPollingCycles.toNat + 3 ≤ limit) := by
  have of_pieces (all : GoodPieces config good) : GoodSessions config good := by
    intro trace final run _ piece member _
    exact all trace final run piece member
  have of_sessions (all : GoodSessions config good) : max 1 config.benignPollingCycles.toNat + 3 ≤ limit := by
    obtain ⟨trace, final, whole, run, asked, member, numbers⟩ := whole_session config
    have numbered := all trace final run asked _ member rfl
    rw [numbers] at numbered
    exact (up_to _).mp numbered
  have of_short (short : max 1 config.benignPollingCycles.toNat + 3 ≤ limit) : GoodPieces config good := by
    intro trace final run piece member
    have length := (piece_length config run piece member).1
    rw [pieces_numbered config run piece member]
    exact (up_to _).mpr (length.trans short)
  constructor
  · exact ⟨of_sessions, fun short => of_pieces (of_short short)⟩
  · exact ⟨fun all => of_sessions (of_pieces all), of_short⟩

/-- The numbers of a session start at one and strictly increase as long as there are at most 65532
polls: the counter has 16 bits, the setting and the counter of the polls have 32. -/
theorem numbers_increase_iff (config : StatefulFuzzerConfig) :
    (GoodSessions config Increasing ↔ config.benignPollingCycles.toNat ≤ 65532) ∧
      (GoodPieces config Increasing ↔ config.benignPollingCycles.toNat ≤ 65532) := by
  have short : max 1 config.benignPollingCycles.toNat + 3 ≤ 65535 ↔ config.benignPollingCycles.toNat ≤ 65532 := by
    omega
  rw [← short]
  exact good_iff increasing_iff config

/-- With one poll more the injection has the number zero, with two more it shares the number of the
connection request. -/
theorem numbers_distinct_iff (config : StatefulFuzzerConfig) :
    (GoodSessions config List.Nodup ↔ config.benignPollingCycles.toNat ≤ 65533) ∧
      (GoodPieces config List.Nodup ↔ config.benignPollingCycles.toNat ≤ 65533) := by
  have short : max 1 config.benignPollingCycles.toNat + 3 ≤ 65536 ↔ config.benignPollingCycles.toNat ≤ 65533 := by
    omega
  rw [← short]
  exact good_iff (fun _ => values_distinct_iff) config

/-- After 65533 polls the injection has the number zero. -/
theorem numbers_wrap : ∃ trace final whole, Run machine (constructed ⟨65533, 100⟩) trace final ∧
    (∀ entry ∈ trace, entry.label = .generateNextSessionFrame) ∧
    ⟨whole, .injection⟩ ∈ pieces [] (trace.map (·.obs)) ∧
    (sequenceNumbers whole).getLast? = some 0 ∧ ¬Increasing (sequenceNumbers whole) := by
  obtain ⟨trace, final, whole, run, asked, member, numbers⟩ := whole_session ⟨65533, 100⟩
  have long : sequenceNumbers whole = values 16 (65535 + 1) := numbers
  refine ⟨trace, final, whole, run, asked, member, ?_, ?_⟩
  · rw [long, values_succ, List.getLast?_concat]
    rfl
  · rw [long, increasing_iff]
    decide

end SentinelLab.SessionNumbers
