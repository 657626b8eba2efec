import SentinelLab.Library.FloatingPoint
import SentinelLab.Library.RoundedArithmetic

/-! `PqcProfiler`: how many fragments a message with a post-quantum handshake takes, and what they cost.
Sizes are unsigned words of 64 bits. -/

namespace SentinelLab.PqcProfiler
open Library.FloatingPoint Library.RoundedArithmetic

inductive PqcKemAlgorithm where
  | mlKem512
  | mlKem768
  | mlKem1024
  deriving DecidableEq, Repr

inductive PqcSigAlgorithm where
  | mlDsa2
  | mlDsa3
  | mlDsa5
  deriving DecidableEq, Repr

variable {F : Type} [Field F]

structure PqcOverheadMetrics (F : Type) [Field F] where
  valid : Bool := false
  kemName : String := ""
  sigName : String := ""
  totalPqcHandshakeBytes : BitVec 64 := 0
  ipFragmentsCount : BitVec 64 := 0
  reassemblyBufferKb : F := 0
  estimatedPqcLatencyPenaltyMs : F := 0
  otSlaBreached : Bool := false
  summaryReport : String := ""

structure PqcConfig (F : Type) [Field F] where
  kem : PqcKemAlgorithm := .mlKem768
  sig : PqcSigAlgorithm := .mlDsa3
  mtuBytes : BitVec 64 := 1500
  maxOtSlaLatencyMs : F := 1

def calculatePqcOverheadBytes (kem : PqcKemAlgorithm) (sig : PqcSigAlgorithm) : BitVec 64 :=
  let kemBytes : BitVec 64 :=
    match kem with
    | .mlKem512 => 1184 + 768
    | .mlKem768 => 1184 + 1088
    | .mlKem1024 => 1568 + 1568
  let sigBytes : BitVec 64 :=
    match sig with
    | .mlDsa2 => 2420
    | .mlDsa3 => 3293
    | .mlDsa5 => 4595
  kemBytes + sigBytes

def summaryReport (libm : Libm F) (config : PqcConfig F) (m : PqcOverheadMetrics F) : String :=
  "PQC Overhead Analysis [" ++ m.kemName ++ " + " ++ m.sigName ++ "]: " ++
  "Handshake Overhead=" ++ toString m.totalPqcHandshakeBytes.toNat ++ " bytes | " ++
  "IP Fragments=" ++ toString m.ipFragmentsCount.toNat ++ " (MTU=" ++ toString config.mtuBytes.toNat ++ "B) | " ++
  "Reassembly Buffer=" ++ libm.fixed 2 m.reassemblyBufferKb ++ "KB | " ++
  "Total Latency=" ++ libm.fixed 2 m.estimatedPqcLatencyPenaltyMs ++
  "ms (SLA Limit: " ++ libm.fixed 2 config.maxOtSlaLatencyMs ++ "ms) [" ++
  (if !m.otSlaBreached then "\x1b[1;32m[PASSED] OT SLA Preserved\x1b[0m"
    else "\x1b[1;31m[BREACH] PQC Latency Penalty Exceeds SLA\x1b[0m") ++ "]"

variable [LinearOrder F]

/-- `fragmentation_penalty_ms` and what is added to it. -/
def latencyPenalty (arith : Rounding F) (ipFragmentsCount : BitVec 64) (baseLatencyMs : F) : F :=
  let fragmentationPenaltyMs :=
    if ipFragmentsCount > 1 then arith.mul (arith.ofNat ipFragmentsCount.toNat) (arith.literal 18 100) else 0
  let cryptoComputationMs := arith.literal 35 100
  arith.add (arith.add baseLatencyMs fragmentationPenaltyMs) cryptoComputationMs

/-- `none` is a division by zero. -/
def evaluatePqcOverhead (arith : Rounding F) (libm : Libm F) (config : PqcConfig F) (rawPayloadBytes : BitVec 64)
    (baseLatencyMs : F) : Option (PqcOverheadMetrics F) :=
  let totalPqcHandshakeBytes := calculatePqcOverheadBytes config.kem config.sig
  let totalWireBytes := rawPayloadBytes + totalPqcHandshakeBytes
  if config.mtuBytes = 0 then none
  else
    let ipFragmentsCount := (totalWireBytes + config.mtuBytes - 1) / config.mtuBytes
    let estimatedPqcLatencyPenaltyMs := latencyPenalty arith ipFragmentsCount baseLatencyMs
    let m : PqcOverheadMetrics F :=
      { kemName :=
          if config.kem = .mlKem512 then "ML-KEM-512 (Kyber)"
          else if config.kem = .mlKem768 then "ML-KEM-768 (Kyber)" else "ML-KEM-1024 (Kyber)"
        sigName :=
          if config.sig = .mlDsa2 then "ML-DSA-2 (Dilithium)"
          else if config.sig = .mlDsa3 then "ML-DSA-3 (Dilithium)" else "ML-DSA-5 (Dilithium)"
        totalPqcHandshakeBytes
        ipFragmentsCount
        reassemblyBufferKb :=
          arith.div (arith.ofNat (ipFragmentsCount * config.mtuBytes).toNat) (arith.literal 1024 1)
        estimatedPqcLatencyPenaltyMs
        otSlaBreached := decide (estimatedPqcLatencyPenaltyMs > config.maxOtSlaLatencyMs)
        valid := true }
    some { m with summaryReport := summaryReport libm config m }

/-! ## The fragment count -/

def wireBytes (config : PqcConfig F) (rawPayloadBytes : BitVec 64) : Nat :=
  rawPayloadBytes.toNat + (calculatePqcOverheadBytes config.kem config.sig).toNat

/-- The result exists, and its fragments are the fewest that carry the message. -/
def FragmentsExact (arith : Rounding F) (libm : Libm F) (config : PqcConfig F) (rawPayloadBytes : BitVec 64)
    (baseLatencyMs : F) : Prop :=
  ∃ m, evaluatePqcOverhead arith libm config rawPayloadBytes baseLatencyMs = some m ∧
    IsLeast {k | wireBytes config rawPayloadBytes ≤ k * config.mtuBytes.toNat} m.ipFragmentsCount.toNat

/-- There is an MTU, and message and MTU together stay within the word. -/
def Fits (config : PqcConfig F) (rawPayloadBytes : BitVec 64) : Prop :=
  config.mtuBytes ≠ 0 ∧ wireBytes config rawPayloadBytes + config.mtuBytes.toNat ≤ 2 ^ 64

omit [LinearOrder F] in
theorem wireBytes_pos (config : PqcConfig F) (rawPayloadBytes : BitVec 64) : 0 < wireBytes config rawPayloadBytes := by
  have handshake : ∀ kem sig, 0 < (calculatePqcOverheadBytes kem sig).toNat := by
    intro kem sig
    cases kem <;> cases sig <;> decide
  exact Nat.add_pos_right _ (handshake config.kem config.sig)

theorem mod_div_eq_iff {divisor : Nat} (positive : 0 < divisor) (word : divisor ≤ 2 ^ 64) (sum : Nat) :
    sum % 2 ^ 64 / divisor = sum / divisor ↔ sum < 2 ^ 64 := by
  constructor
  · intro same
    by_contra wraps
    have lost : sum % 2 ^ 64 + divisor ≤ sum := by
      have whole := Nat.mod_add_div sum (2 ^ 64)
      have once : 1 ≤ sum / 2 ^ 64 := (Nat.one_le_div_iff (by decide)).mpr (not_lt.mp wraps)
      omega
    have fewer : sum % 2 ^ 64 / divisor + 1 ≤ sum / divisor := by
      rw [← Nat.add_div_right _ positive]
      exact Nat.div_le_div_right lost
    omega
  · intro small
    rw [Nat.mod_eq_of_lt small]

theorem evaluatePqcOverhead_count {arith : Rounding F} {libm : Libm F} {config : PqcConfig F}
    {rawPayloadBytes : BitVec 64} {baseLatencyMs : F} {m : PqcOverheadMetrics F}
    (evaluated : evaluatePqcOverhead arith libm config rawPayloadBytes baseLatencyMs = some m) :
    config.mtuBytes ≠ 0 ∧
      m.ipFragmentsCount.toNat =
        (wireBytes config rawPayloadBytes + config.mtuBytes.toNat - 1) % 2 ^ 64 / config.mtuBytes.toNat ∧
      m.totalPqcHandshakeBytes = calculatePqcOverheadBytes config.kem config.sig ∧
      m.estimatedPqcLatencyPenaltyMs = latencyPenalty arith m.ipFragmentsCount baseLatencyMs ∧
      m.otSlaBreached = decide (m.estimatedPqcLatencyPenaltyMs > config.maxOtSlaLatencyMs) := by
  unfold evaluatePqcOverhead at evaluated
  dsimp only at evaluated
  split at evaluated
  next zero => contradiction
  next nonzero =>
    cases evaluated
    refine ⟨nonzero, ?_, rfl, rfl, rfl⟩
    have some_bytes := wireBytes_pos config rawPayloadBytes
    rw [BitVec.toNat_udiv, BitVec.toNat_sub, BitVec.toNat_add, BitVec.toNat_add]
    unfold wireBytes at some_bytes ⊢
    congr 1
    change (2 ^ 64 - 1 + _) % 2 ^ 64 = _
    omega

theorem fragmentsExact_iff_fits (arith : Rounding F) (libm : Libm F) (config : PqcConfig F) (rawPayloadBytes : BitVec 64)
    (baseLatencyMs : F) :
    FragmentsExact arith libm config rawPayloadBytes baseLatencyMs ↔ Fits config rawPayloadBytes := by
  have some_bytes := wireBytes_pos config rawPayloadBytes
  by_cases zero : config.mtuBytes = 0
  · apply iff_of_false
    · rintro ⟨m, evaluated, _⟩
      exact (evaluatePqcOverhead_count evaluated).1 zero
    · exact fun fits => fits.1 zero
  · have positive : 0 < config.mtuBytes.toNat := Nat.pos_of_ne_zero fun none => zero (BitVec.eq_of_toNat_eq none)
    have least : IsLeast {k | wireBytes config rawPayloadBytes ≤ k * config.mtuBytes.toNat}
        (wireBytes config rawPayloadBytes ⌈/⌉ config.mtuBytes.toNat) := by
      constructor
      · change wireBytes config rawPayloadBytes ≤ _ * config.mtuBytes.toNat
        rw [Nat.mul_comm]
        exact le_smul_ceilDiv positive
      · intro k carries
        change wireBytes config rawPayloadBytes ≤ k * config.mtuBytes.toNat at carries
        rw [Nat.mul_comm] at carries
        exact (ceilDiv_le_iff_le_mul positive).mpr carries
    obtain ⟨m, evaluated⟩ : ∃ m, evaluatePqcOverhead arith libm config rawPayloadBytes baseLatencyMs = some m :=
      ⟨_, if_neg zero⟩
    obtain ⟨_, count, _⟩ := evaluatePqcOverhead_count evaluated
    have word : config.mtuBytes.toNat < 2 ^ 64 := config.mtuBytes.isLt
    calc FragmentsExact arith libm config rawPayloadBytes baseLatencyMs
        ↔ m.ipFragmentsCount.toNat = wireBytes config rawPayloadBytes ⌈/⌉ config.mtuBytes.toNat := by
          constructor
          · rintro ⟨other, same, exact_count⟩
            rw [evaluated, Option.some.injEq] at same
            rw [same]
            exact exact_count.unique least
          · intro same
            exact ⟨m, evaluated, same ▸ least⟩
      _ ↔ wireBytes config rawPayloadBytes + config.mtuBytes.toNat - 1 < 2 ^ 64 := by
          rw [count, Nat.ceilDiv_eq_add_pred_div]
          exact mod_div_eq_iff positive word.le _
      _ ↔ Fits config rawPayloadBytes := by
          unfold Fits
          constructor
          · intro small
            exact ⟨zero, by omega⟩
          · rintro ⟨_, small⟩
            omega

/-! ## The latency penalty -/

variable [IsStrictOrderedRing F]

theorem latencyPenalty_mono (arith : Rounding F) {fewer more : BitVec 64} (le : fewer.toNat ≤ more.toNat)
    (baseLatencyMs : F) : latencyPenalty arith fewer baseLatencyMs ≤ latencyPenalty arith more baseLatencyMs := by
  have perFragment : (0 : F) ≤ arith.literal 18 100 := arith.literal_nonneg 18 100
  unfold latencyPenalty
  apply arith.add_mono _ le_rfl
  apply arith.add_mono le_rfl
  split
  next several =>
    have more_several : more > 1 := lt_of_lt_of_le several le
    rw [if_pos more_several]
    exact arith.mul_mono perFragment (arith.ofNat_mono le)
  next single =>
    split
    · exact arith.mul_nonneg (arith.ofNat_nonneg _) perFragment
    · exact le_rfl

theorem penalty_le (arith : Rounding F) {libm : Libm F} {config config' : PqcConfig F}
    {rawPayloadBytes rawPayloadBytes' : BitVec 64} {baseLatencyMs : F} {m m' : PqcOverheadMetrics F}
    (fits : Fits config rawPayloadBytes) (fits' : Fits config' rawPayloadBytes')
    (bytes : wireBytes config rawPayloadBytes ≤ wireBytes config' rawPayloadBytes')
    (mtu : config'.mtuBytes ≤ config.mtuBytes)
    (evaluated : evaluatePqcOverhead arith libm config rawPayloadBytes baseLatencyMs = some m)
    (evaluated' : evaluatePqcOverhead arith libm config' rawPayloadBytes' baseLatencyMs = some m') :
    m.estimatedPqcLatencyPenaltyMs ≤ m'.estimatedPqcLatencyPenaltyMs := by
  obtain ⟨_, same, least⟩ := (fragmentsExact_iff_fits arith libm config rawPayloadBytes baseLatencyMs).mpr fits
  obtain ⟨_, same', least'⟩ := (fragmentsExact_iff_fits arith libm config' rawPayloadBytes' baseLatencyMs).mpr fits'
  obtain rfl := Option.some.inj (evaluated.symm.trans same)
  obtain rfl := Option.some.inj (evaluated'.symm.trans same')
  have fewer : m.ipFragmentsCount.toNat ≤ m'.ipFragmentsCount.toNat := by
    apply least.2
    calc wireBytes config rawPayloadBytes ≤ wireBytes config' rawPayloadBytes' := bytes
      _ ≤ m'.ipFragmentsCount.toNat * config'.mtuBytes.toNat := least'.1
      _ ≤ m'.ipFragmentsCount.toNat * config.mtuBytes.toNat := Nat.mul_le_mul_left _ mtu
  rw [(evaluatePqcOverhead_count evaluated).2.2.2.1, (evaluatePqcOverhead_count evaluated').2.2.2.1]
  exact latencyPenalty_mono arith fewer baseLatencyMs

/-- The count is the ceiling exactly where there is an MTU and the sum of the sizes does not leave the
word. There the penalty grows with the payload and falls with the MTU, however the arithmetic rounds. -/
theorem fragments_exact_iff (arith : Rounding ℝ) (libm : Libm ℝ) (config : PqcConfig ℝ) (baseLatencyMs : ℝ) :
    (∀ rawPayloadBytes,
      FragmentsExact arith libm config rawPayloadBytes baseLatencyMs ↔ Fits config rawPayloadBytes) ∧
    (∀ rawPayloadBytes rawPayloadBytes' m m', rawPayloadBytes ≤ rawPayloadBytes' → Fits config rawPayloadBytes' →
      evaluatePqcOverhead arith libm config rawPayloadBytes baseLatencyMs = some m →
      evaluatePqcOverhead arith libm config rawPayloadBytes' baseLatencyMs = some m' →
      m.estimatedPqcLatencyPenaltyMs ≤ m'.estimatedPqcLatencyPenaltyMs) ∧
    (∀ rawPayloadBytes mtuBytes m m', config.mtuBytes ≤ mtuBytes → Fits { config with mtuBytes } rawPayloadBytes →
      evaluatePqcOverhead arith libm config rawPayloadBytes baseLatencyMs = some m →
      evaluatePqcOverhead arith libm { config with mtuBytes } rawPayloadBytes baseLatencyMs = some m' →
      m'.estimatedPqcLatencyPenaltyMs ≤ m.estimatedPqcLatencyPenaltyMs) := by
  refine ⟨fun rawPayloadBytes => fragmentsExact_iff_fits arith libm config rawPayloadBytes baseLatencyMs, ?_, ?_⟩
  · intro rawPayloadBytes rawPayloadBytes' m m' le fits evaluated evaluated'
    have bytes : wireBytes config rawPayloadBytes ≤ wireBytes config rawPayloadBytes' := Nat.add_le_add_right le _
    have smaller : Fits config rawPayloadBytes := ⟨fits.1, (Nat.add_le_add_right bytes _).trans fits.2⟩
    exact penalty_le arith smaller fits bytes (BitVec.le_refl _) evaluated evaluated'
  · intro rawPayloadBytes mtuBytes m m' le fits evaluated evaluated'
    have smaller : Fits config rawPayloadBytes :=
      ⟨(evaluatePqcOverhead_count evaluated).1, (Nat.add_le_add_left le _).trans fits.2⟩
    exact penalty_le arith fits smaller le_rfl le evaluated' evaluated

/-- Without an MTU there is no result, and the largest payload is counted as four fragments. -/
theorem fragments_wrong :
    evaluatePqcOverhead exactly exact { mtuBytes := 0 } 128 0 = none ∧
      ∃ m, evaluatePqcOverhead exactly exact {} 0xFFFFFFFFFFFFFFFF 0 = some m ∧ m.ipFragmentsCount = 4 ∧
        ¬FragmentsExact exactly exact {} 0xFFFFFFFFFFFFFFFF 0 := by
  refine ⟨rfl, _, rfl, by decide, ?_⟩
  rw [fragmentsExact_iff_fits]
  exact fun fits => absurd fits.2 (by decide)

end SentinelLab.PqcProfiler
