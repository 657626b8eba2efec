import SentinelLab.ScadaSession

/-! The session of `StatefulScadaFuzzer`, a script around a counted loop, against the session of
`StatefulFuzzer`. -/

namespace SentinelLab.SessionScript
open ScadaSession Library.Bytes Library.Transition

structure StatefulScadaFuzzer where
  targetHost : String := "10.240.0.101"
  targetPort : Int := 102
  pollingCycles : Int := 10

inductive SocketCall where
  | socket
  | connect (host : String) (port : Int)
  | send (payload : List Byte)
  | recv (bufsize : Nat)
  | close
  deriving DecidableEq, Repr

def SocketCall.payload : SocketCall → Option (List Byte)
  | .send payload => some payload
  | _ => none

/-- What the `try` block has done so far. -/
structure Session where
  calls : Nat := 0
  sent : List (List Byte) := []
  raised : Bool := false
  deriving DecidableEq, Repr

/-- `range(start, stop)` -/
def range (start stop : Int) : List Int := (List.range (stop - start).toNat).map fun (step : Nat) => start + step

namespace StatefulScadaFuzzer

def cotpCr : List Byte :=
  [0x03, 0x00, 0x00, 0x16, 0x11, 0xE0, 0x00, 0x00, 0x00, 0x01, 0x00, 0x00, 0x01, 0x00, 0x00]

def s7Setup : List Byte :=
  [0x03, 0x00, 0x00, 0x19, 0x02, 0xF0, 0x80, 0x32, 0x01, 0x00, 0x00, 0x00, 0x00, 0x00, 0x08, 0x00, 0x00, 0x00, 0x01,
    0x00, 0x01, 0x01, 0xE0]

def s7Read : List Byte :=
  [0x03, 0x00, 0x00, 0x1F, 0x02, 0xF0, 0x80, 0x32, 0x01, 0x00, 0x00, 0x00, 0x02, 0x00, 0x0E, 0x00, 0x00, 0x04, 0x01,
    0x12, 0x0A, 0x10, 0x02, 0x00, 0x01, 0x00, 0x00, 0x84, 0x00, 0x00, 0x00]

def s7Stop : List Byte :=
  [0x03, 0x00, 0x00, 0x21, 0x02, 0xF0, 0x80, 0x32, 0x01, 0x00, 0x00, 0x00, 0x03, 0x00, 0x10, 0x00, 0x00, 0x29, 0x00,
    0x00, 0x00, 0x00, 0x00, 0x09, 0x50, 0x5F, 0x50, 0x52, 0x4F, 0x47, 0x52, 0x41, 0x4D]

def script (fuzzer : StatefulScadaFuzzer) : List SocketCall :=
  [.socket, .connect fuzzer.targetHost fuzzer.targetPort, .send cotpCr, .recv 256, .send s7Setup, .recv 256] ++
    (range 1 (fuzzer.pollingCycles + 1)).flatMap (fun _ => [.send s7Read, .recv 256]) ++
    [.send s7Stop, .close]

end StatefulScadaFuzzer

/-- A call that raises ends the block; `succeeds` says which calls of the session do not. -/
def Session.perform (succeeds : Nat → Bool) (session : Session) (call : SocketCall) : Session :=
  if session.raised then session
  else if succeeds session.calls then
    { session with calls := session.calls + 1, sent := session.sent ++ call.payload.toList }
  else { session with raised := true }

def StatefulScadaFuzzer.executeStatefulSession (fuzzer : StatefulScadaFuzzer) (succeeds : Nat → Bool) : Session :=
  fuzzer.script.foldl (Session.perform succeeds) {}

/-! ## What the script sends -/

def payloads (calls : List SocketCall) : List (List Byte) := calls.filterMap SocketCall.payload

theorem payloads_cons (call : SocketCall) (calls : List SocketCall) :
    payloads (call :: calls) = call.payload.toList ++ payloads calls := by
  unfold payloads
  rw [List.filterMap_cons]
  cases call.payload with
  | none => rfl
  | some payload => rfl

theorem perform_succeeds {succeeds : Nat → Bool} {session : Session} (running : session.raised = false)
    (succeeded : succeeds session.calls = true) (call : SocketCall) :
    session.perform succeeds call = ⟨session.calls + 1, session.sent ++ call.payload.toList, false⟩ := by
  unfold Session.perform
  rw [running, succeeded]
  rfl

theorem perform_raised {succeeds : Nat → Bool} {session : Session}
    (fails : session.raised = true ∨ succeeds session.calls = false) (call : SocketCall) :
    (session.perform succeeds call).raised = true ∧ (session.perform succeeds call).sent = session.sent := by
  unfold Session.perform
  split
  next raised => exact ⟨raised, rfl⟩
  next running =>
    rw [fails.resolve_left running]
    exact ⟨rfl, rfl⟩

theorem foldl_perform_raised {succeeds : Nat → Bool} {session : Session} (raised : session.raised = true)
    (calls : List SocketCall) : (calls.foldl (Session.perform succeeds) session).sent = session.sent := by
  induction calls generalizing session with
  | nil => rfl
  | cons call calls ih =>
    obtain ⟨still, same⟩ := perform_raised (.inl raised) call
    rw [List.foldl_cons, ih still, same]

theorem sent_prefix (succeeds : Nat → Bool) (calls : List SocketCall) {session : Session}
    (running : session.raised = false) :
    (calls.foldl (Session.perform succeeds) session).sent <+: session.sent ++ payloads calls := by
  induction calls generalizing session with
  | nil => exact List.prefix_append _ _
  | cons call calls ih =>
    rw [List.foldl_cons, payloads_cons, ← List.append_assoc]
    cases succeeded : succeeds session.calls with
    | true =>
      rw [perform_succeeds running succeeded]
      exact ih rfl
    | false =>
      obtain ⟨raised, same⟩ := perform_raised (.inr succeeded) call
      rw [foldl_perform_raised raised, same, List.append_assoc]
      exact List.prefix_append _ _

theorem sent_all {succeeds : Nat → Bool} (all : ∀ call, succeeds call = true) (calls : List SocketCall)
    {session : Session} (running : session.raised = false) :
    (calls.foldl (Session.perform succeeds) session).sent = session.sent ++ payloads calls := by
  induction calls generalizing session with
  | nil => exact (List.append_nil _).symm
  | cons call calls ih =>
    rw [List.foldl_cons, perform_succeeds running (all _), ih rfl, payloads_cons, List.append_assoc]

theorem payloads_append (first second : List SocketCall) :
    payloads (first ++ second) = payloads first ++ payloads second := List.filterMap_append ..

theorem payloads_polls (rounds : List Int) :
    payloads (rounds.flatMap fun _ => [.send StatefulScadaFuzzer.s7Read, .recv 256]) =
      List.replicate rounds.length StatefulScadaFuzzer.s7Read := by
  induction rounds with
  | nil => rfl
  | cons round rounds ih =>
    rw [List.flatMap_cons, payloads_append, ih, List.length_cons, List.replicate_succ]
    rfl

theorem length_range (start stop : Int) : (range start stop).length = (stop - start).toNat := by
  rw [range, List.length_map, List.length_range]

theorem payloads_script (fuzzer : StatefulScadaFuzzer) :
    payloads fuzzer.script = cotpCr :: s7Setup :: (List.replicate fuzzer.pollingCycles.toNat s7Read ++ [s7Stop]) := by
  unfold StatefulScadaFuzzer.script
  rw [payloads_append, payloads_append, payloads_polls, length_range, Int.add_sub_cancel]
  rfl

theorem executeStatefulSession_prefix (fuzzer : StatefulScadaFuzzer) (succeeds : Nat → Bool) :
    (fuzzer.executeStatefulSession succeeds).sent <+:
      cotpCr :: s7Setup :: (List.replicate fuzzer.pollingCycles.toNat s7Read ++ [s7Stop]) := by
  rw [← payloads_script]
  exact sent_prefix succeeds fuzzer.script rfl

/-! ## The two sessions -/

def FirstSession (config : StatefulFuzzerConfig) (frames : List StatefulSessionFrame) : Prop :=
  ∃ trace final, Run machine (constructed config) trace final ∧
    (∀ entry ∈ trace, entry.label = .generateNextSessionFrame) ∧
    (pieces [] (trace.map (·.obs))).head? = some ⟨frames, .injection⟩

theorem firstSession_exists (config : StatefulFuzzerConfig) : ∃ frames, FirstSession config frames := by
  have counted : (constructed config).Counted := rfl
  obtain ⟨trace, final, frames, run, asked, split⟩ := run_to_injection [] counted
  exact ⟨frames, trace, final, run, asked, by rw [split]; rfl⟩

theorem firstSession_payloads {config : StatefulFuzzerConfig} {frames : List StatefulSessionFrame}
    (first : FirstSession config frames) : frames.map (·.payload) =
      cotpCr :: s7Setup :: (List.replicate (max 1 config.benignPollingCycles.toNat) s7Read ++ [s7Stop]) := by
  obtain ⟨trace, final, run, _, head⟩ := first
  have ordered := pieces_ordered run (continues_of_unconnected rfl rfl) _ (List.mem_of_head? head)
  calc frames.map (·.payload) = (frames.map StatefulSessionFrame.sent).map Prod.snd := by
        rw [List.map_map]
        rfl
    _ = (session config.benignPollingCycles).map Prod.snd := congrArg (List.map Prod.snd) (ordered.2 rfl)
    _ = _ := by simp [session, polling]

/-- The payloads of the first session are those of the script exactly if at least one polling cycle is
asked for: with none, the script does not read, and the state machine reads before it counts. -/
theorem sessions_agree_iff (config : StatefulFuzzerConfig) (targetHost : String) (targetPort : Int)
    (succeeds : Nat → Bool) (all : ∀ call, succeeds call = true) :
    (∀ frames, FirstSession config frames → frames.map (·.payload) =
      (StatefulScadaFuzzer.executeStatefulSession
        ⟨targetHost, targetPort, config.benignPollingCycles.toNat⟩ succeeds).sent) ↔
      1 ≤ config.benignPollingCycles.toNat := by
  have script : (StatefulScadaFuzzer.executeStatefulSession
      ⟨targetHost, targetPort, config.benignPollingCycles.toNat⟩ succeeds).sent =
        cotpCr :: s7Setup :: (List.replicate config.benignPollingCycles.toNat s7Read ++ [s7Stop]) := by
    unfold StatefulScadaFuzzer.executeStatefulSession
    rw [sent_all all _ rfl, payloads_script]
    rfl
  rw [script]
  constructor
  · intro agree
    obtain ⟨frames, first⟩ := firstSession_exists config
    have same := agree frames first
    rw [firstSession_payloads first] at same
    have lengths := congrArg List.length same
    simp only [List.length_cons, List.length_append, List.length_replicate, List.length_nil] at lengths
    omega
  · intro some_cycle frames first
    rw [firstSession_payloads first, max_eq_right some_cycle]

theorem sessions_agree_three_cycles : ∃ frames, FirstSession ⟨3, 100⟩ frames ∧ frames.map (·.payload) =
    (StatefulScadaFuzzer.executeStatefulSession ⟨"10.240.0.101", 102, 3⟩ fun _ => true).sent := by
  obtain ⟨frames, first⟩ := firstSession_exists ⟨3, 100⟩
  have agree := (sessions_agree_iff ⟨3, 100⟩ "10.240.0.101" 102 (fun _ => true) fun _ => rfl).mpr (by decide)
  exact ⟨frames, first, agree frames first⟩

/-- With no polling cycle the state machine sends a read that the script does not send. -/
theorem sessions_differ_without_cycles : ∃ frames, FirstSession ⟨0, 100⟩ frames ∧
    frames.map (·.payload) = [cotpCr, s7Setup, s7Read, s7Stop] ∧
    (StatefulScadaFuzzer.executeStatefulSession ⟨"10.240.0.101", 102, 0⟩ fun _ => true).sent =
      [cotpCr, s7Setup, s7Stop] := by
  obtain ⟨frames, first⟩ := firstSession_exists ⟨0, 100⟩
  exact ⟨frames, first, firstSession_payloads first, by decide⟩

end SentinelLab.SessionScript
