import SentinelLab.NetworkIngest

/-! `ResearchInferenceEngine::predict_anomaly`: what it asks of the inference library for one event. The
library is not part of the repository; which of its calls throw and what it computes comes from outside. -/

namespace SentinelLab.InferenceEngine
open Inet Benchmark NetworkIngest Library.Bytes Library.SinglePrecision

inductive Call where
  | getInputTensor (name : String)
  | copyFromHost (bytes : List Byte)
  | infer
  | getOutputTensor (name : String)
  deriving DecidableEq, Repr

/-- The answers of the library during one prediction. `scores` is the output tensor after an inference on
the bytes in the input tensor. -/
structure Xinfer where
  throws : Call → Bool
  scores : List Byte → List Binary32

/-- Makes calls until one throws; false if one did. -/
def Xinfer.attempt (xinfer : Xinfer) : List Call → List Call × Bool
  | [] => ([], true)
  | call :: later =>
      if xinfer.throws call then ([call], false)
      else
        let rest := xinfer.attempt later
        (call :: rest.1, rest.2)

def defaultScore : Binary32 := 0x3DCCCCCD

structure ResearchInferenceEngine where
  xinferEngine : Xinfer
  isReady : Bool := false

/-- The calls that are made for a score, and the score; `none` is a read behind the end of the output
tensor. -/
def ResearchInferenceEngine.predictAnomaly (engine : ResearchInferenceEngine) (host : Endian)
    (features : List Binary32) : List Call × Option Binary32 :=
  if !engine.isReady ∨ features.isEmpty then ([], some defaultScore)
  else
    let copied := host.unwords features
    let tried := engine.xinferEngine.attempt
      [.getInputTensor "input", .copyFromHost copied, .infer, .getOutputTensor "scores"]
    if tried.2 then
      let output := engine.xinferEngine.scores copied
      (tried.1, if 2 ≤ output.length then output[1]? else output[0]?)
    else (tried.1, some defaultScore)

def Call.touches : Call → Bool
  | .copyFromHost _ | .infer => true
  | _ => false

def touched (calls : List Call) : List Call := calls.filter Call.touches

/-- The dimension handshake for a tensor of `elements` 32-bit numbers: it is filled exactly before the model
runs, or nothing is touched. -/
def Handshaken (elements : Nat) (calls : List Call) : Prop :=
  touched calls = [] ∨ ∃ bytes : List Byte, bytes.length = 4 * elements ∧
    (touched calls = [.copyFromHost bytes] ∨ touched calls = [.copyFromHost bytes, .infer])

/-- The input tensor is reached: the model is loaded, there are features, and the library finds the tensor. -/
def ReachesTensor (engine : ResearchInferenceEngine) (features : List Binary32) : Prop :=
  engine.isReady = true ∧ features ≠ [] ∧ engine.xinferEngine.throws (.getInputTensor "input") = false

section
variable {engine : ResearchInferenceEngine} {host : Endian} {features : List Binary32}

theorem touched_of_not_reaches (unreached : ¬ReachesTensor engine features) :
    touched (engine.predictAnomaly host features).1 = [] := by
  unfold ResearchInferenceEngine.predictAnomaly
  by_cases skipped : !engine.isReady ∨ features.isEmpty
  · rw [if_pos skipped]
    rfl
  · rw [if_neg skipped]
    simp only [Bool.not_eq_true', List.isEmpty_iff, not_or, Bool.not_eq_false] at skipped
    have missing : engine.xinferEngine.throws (.getInputTensor "input") = true := by
      by_contra found
      exact unreached ⟨skipped.1, skipped.2, by simpa using found⟩
    simp only [Xinfer.attempt, missing, if_true, Bool.false_eq_true, if_false]
    rfl

theorem touched_of_reaches (reaches : ReachesTensor engine features) :
    touched (engine.predictAnomaly host features).1 = [.copyFromHost (host.unwords features)] ∨
      touched (engine.predictAnomaly host features).1 = [.copyFromHost (host.unwords features), .infer] := by
  obtain ⟨ready, some, found⟩ := reaches
  have entered : ¬(!engine.isReady ∨ features.isEmpty) := by
    simp [ready, some]
  unfold ResearchInferenceEngine.predictAnomaly
  rw [if_neg entered]
  simp only [Xinfer.attempt, found, Bool.false_eq_true, if_false]
  by_cases copies : engine.xinferEngine.throws (.copyFromHost (host.unwords features)) = true
  · left
    simp only [copies, if_true, Bool.false_eq_true, if_false]
    rfl
  · simp only [copies]
    by_cases infers : engine.xinferEngine.throws .infer = true
    · right
      simp only [infers, if_true, Bool.false_eq_true, if_false]
      rfl
    · right
      simp only [infers]
      by_cases reads : engine.xinferEngine.throws (.getOutputTensor "scores") = true
      · simp only [reads, if_true, Bool.false_eq_true, if_false]
        rfl
      · simp only [reads]
        rfl

theorem handshaken_iff (engine : ResearchInferenceEngine) (host : Endian) (features : List Binary32)
    (elements : Nat) : Handshaken elements (engine.predictAnomaly host features).1 ↔
      (ReachesTensor engine features → features.length = elements) := by
  have size := host.length_unwords features
  constructor
  · intro handshaken reaches
    rcases handshaken with nothing | ⟨bytes, exact_size, copied⟩
    · rcases @touched_of_reaches engine host features reaches with one | two
      · simp [one] at nothing
      · simp [two] at nothing
    · have same : bytes = host.unwords features := by
        rcases @touched_of_reaches engine host features reaches with one | two
        · rcases copied with only | both
          · simpa [one, eq_comm] using only
          · simp [one] at both
        · rcases copied with only | both
          · simp [two] at only
          · simpa [two, eq_comm] using both
      rw [same, size] at exact_size
      omega
  · intro fits
    by_cases reaches : ReachesTensor engine features
    · right
      refine ⟨host.unwords features, ?_, touched_of_reaches reaches⟩
      rw [size, fits reaches]
    · left
      exact touched_of_not_reaches reaches

end

/-- For the event of any accepted datagram, the handshake is kept exactly if the model is not loaded, the
datagram declares no features, the library does not find the input tensor, or the declared number is that of
the tensor. -/
theorem predictAnomaly_handshaken_iff (host : Endian) (inetNtop : InAddr → String) (now : Int)
    (clientAddr : SockaddrIn) (datagram : List Byte) (ev : BenchmarkEvent) (engine : ResearchInferenceEngine)
    (elements : Nat) (offered : ingest host inetNtop now clientAddr datagram = some (some ev)) :
    Handshaken elements (engine.predictAnomaly host ev.features).1 ↔
      engine.isReady = false ∨ declaredFeatures datagram = 0 ∨
        engine.xinferEngine.throws (.getInputTensor "input") = true ∨ declaredFeatures datagram = elements := by
  obtain ⟨complete, rfl⟩ := ingest_eq_some.mp offered
  have declared := (@frameEvent_features host inetNtop now clientAddr _ complete).1
  rw [declaredFeatures_recvfrom] at declared
  have empty : (frameEvent host inetNtop now clientAddr (recvfrom datagram)).features = [] ↔
      declaredFeatures datagram = 0 := by rw [← declared, List.length_eq_zero_iff]
  rw [handshaken_iff, ReachesTensor, declared, ne_eq, empty]
  cases engine.isReady <;> cases engine.xinferEngine.throws (.getInputTensor "input") <;>
    simp [or_iff_not_imp_left]

private def loadedEngine : ResearchInferenceEngine := ⟨⟨fun _ => false, fun _ => [0, 0x3F800000]⟩, true⟩

private def datagramOf (features : List Binary32) : List Byte :=
  slab ++ List.replicate 12 0 ++ Endian.big.encode 4 features.length ++ Endian.little.unwords features

theorem predictAnomaly_handshaken_iff_one : ∃ ev,
    ingest .little Inet.inetNtop 0 ⟨(0x9C, 0x40), ⟨127, 0, 0, 1⟩⟩ (datagramOf [0x3F800000]) = some (some ev) ∧
      Handshaken 1 (loadedEngine.predictAnomaly .little ev.features).1 := by
  obtain ⟨ev, offered⟩ : ∃ ev, ingest .little Inet.inetNtop 0 ⟨(0x9C, 0x40), ⟨127, 0, 0, 1⟩⟩
      (datagramOf [0x3F800000]) = some (some ev) := ⟨_, rfl⟩
  have declared : declaredFeatures (datagramOf [0x3F800000]) = 1 := by decide
  exact ⟨ev, offered, (predictAnomaly_handshaken_iff .little _ 0 _ _ ev loadedEngine 1 offered).mpr
    (.inr (.inr (.inr declared)))⟩

/-- Two features for a tensor of one element: eight bytes are copied into four. -/
theorem input_tensor_overrun : ∃ ev,
    ingest .little Inet.inetNtop 0 ⟨(0x9C, 0x40), ⟨127, 0, 0, 1⟩⟩ (datagramOf [0x3F800000, 0x40000000]) =
        some (some ev) ∧
      (loadedEngine.predictAnomaly .little ev.features).1 =
        [.getInputTensor "input", .copyFromHost [0, 0, 0x80, 0x3F, 0, 0, 0, 0x40], .infer,
          .getOutputTensor "scores"] ∧
      ¬Handshaken 1 (loadedEngine.predictAnomaly .little ev.features).1 := by
  refine ⟨_, rfl, by decide, ?_⟩
  rw [handshaken_iff]
  intro fits
  exact absurd (fits ⟨rfl, by decide, rfl⟩) (by decide)

end SentinelLab.InferenceEngine
