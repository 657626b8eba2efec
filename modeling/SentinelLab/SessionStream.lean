import SentinelLab.ScadaSession
import SentinelLab.Library.Framing

/-! The payloads of the session fuzzer as a TCP peer receives them: one stream of TPKT packets. -/

namespace SentinelLab.SessionStream
open ScadaSession Library.Bytes Library.Framing Library.Transition

/-- A TPKT header: version 3, a reserved byte, and the length of the whole packet. -/
def tpkt : PacketFormat Byte where
  header := 4
  positive := by decide
  declared
    | [version, _, high, low] => if version = 3 then some (Endian.big.decode [high, low]) else none
    | _ => none

def payloads (transcript : List (Option StatefulSessionFrame)) : List (List Byte) :=
  transcript.reduceOption.map (·.payload)

/-- The stream of the payloads is split back into them. -/
def Framed (transcript : List (Option StatefulSessionFrame)) : Prop :=
  tpkt.split (payloads transcript).flatten = (payloads transcript, [])

instance (transcript : List (Option StatefulSessionFrame)) : Decidable (Framed transcript) :=
  inferInstanceAs (Decidable (_ = _))

theorem payload_wellFramed :
    ¬tpkt.WellFramed cotpCr ∧ ¬tpkt.WellFramed s7Setup ∧ tpkt.WellFramed s7Read ∧ tpkt.WellFramed s7Stop := by
  decide

theorem generate_wellFramed (fuzzer : StatefulFuzzer) :
    tpkt.WellFramed fuzzer.generateNextSessionFrame.1.payload ↔
      fuzzer.currentState ≠ .unconnected ∧ fuzzer.currentState ≠ .cotpEstablished := by
  obtain ⟨config, state, seqNum, count⟩ := fuzzer
  cases state with
  | unconnected => exact iff_of_false payload_wellFramed.1 fun opened => opened.1 rfl
  | cotpEstablished => exact iff_of_false payload_wellFramed.2.1 fun opened => opened.2 rfl
  | s7SessionReady => exact iff_of_true payload_wellFramed.2.2.1 ⟨nofun, nofun⟩
  | benignPolling => exact iff_of_true payload_wellFramed.2.2.1 ⟨nofun, nofun⟩
  | stealthInjection => exact iff_of_true payload_wellFramed.2.2.2 ⟨nofun, nofun⟩

/-- A stream is framed as long as nothing was sent: the first frame of a session is not. -/
theorem stream_framed_iff {trace : List (Entry StatefulFuzzer Call (Option StatefulSessionFrame))}
    {final : StatefulFuzzer} (config : StatefulFuzzerConfig) (calls : Nat)
    (run : Run machine (constructed config) trace final)
    (called : trace.map (·.label) = List.replicate calls .generateNextSessionFrame) :
    Framed (trace.map (·.obs)) ↔ calls = 0 := by
  rw [Framed, split_flatten_iff]
  cases trace with
  | nil =>
    have none : calls = 0 := by simpa using congrArg List.length called.symm
    simp [none, payloads]
  | cons entry trace =>
    have some : calls ≠ 0 := by
      intro none
      rw [none] at called
      simp at called
    obtain ⟨count, rfl⟩ := Nat.exists_eq_succ_of_ne_zero some
    obtain ⟨_, taken, _⟩ := run.of_cons
    have label : entry.label = .generateNextSessionFrame := (List.cons.inj called).1
    rw [label] at taken
    obtain ⟨before, label, obs, next⟩ := entry
    cases taken
    constructor
    · intro framed
      have request := framed cotpCr List.mem_cons_self
      exact absurd request payload_wellFramed.1
    · intro none
      exact absurd none some

/-- After the first call the peer holds 15 bytes of a packet of 22, after the second 16 bytes that are
no packet. -/
theorem stream_not_framed : ∃ trace final,
    Run machine (constructed {}) trace final ∧
      trace.map (·.label) = [.generateNextSessionFrame, .generateNextSessionFrame] ∧
      ¬Framed (trace.map (·.obs)) ∧
      tpkt.split (payloads (trace.map (·.obs))).flatten = ([cotpCr ++ s7Setup.take 7], s7Setup.drop 7) := by
  obtain ⟨⟨trace, final⟩, executed⟩ : ∃ result, machine.exec (constructed {})
      [.generateNextSessionFrame, .generateNextSessionFrame] = some result := ⟨_, rfl⟩
  have run := Machine.exec_run executed
  refine ⟨trace, final, run, ?_⟩
  cases executed
  decide

theorem stream_framed_iff_two_calls : ∃ trace final,
    Run machine (constructed {}) trace final ∧ (Framed (trace.map (·.obs)) ↔ 2 = 0) := by
  obtain ⟨⟨trace, final⟩, executed⟩ : ∃ result, machine.exec (constructed {})
      [.generateNextSessionFrame, .generateNextSessionFrame] = some result := ⟨_, rfl⟩
  have run := Machine.exec_run executed
  refine ⟨trace, final, run, stream_framed_iff {} 2 run ?_⟩
  cases executed
  rfl

end SentinelLab.SessionStream
