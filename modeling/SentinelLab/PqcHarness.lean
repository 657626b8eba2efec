import SentinelLab.PqcProfiler

/-! `PqcTunnelProfiler.profile_pqc_overhead`, the second copy of the fragmentation model, against
`PqcProfiler`. -/

namespace SentinelLab.PqcHarness
open PqcProfiler Library.FloatingPoint Library.RoundedArithmetic

variable {F : Type} [Field F]

structure PqcTunnelProfiler (F : Type) [Field F] where
  kemAlgorithm : String := "ML-KEM-768"
  sigAlgorithm : String := "ML-DSA-3"
  mtuBytes : Int := 1500
  maxSlaMs : F := 1

structure Profile (F : Type) where
  kemOverhead : Int
  sigOverhead : Int
  totalPqcBytes : Int
  fragments : Int
  latencyPenaltyMs : F
  slaBreached : Bool

def pqcSizes : List (String × Int) :=
  [("ML-KEM-512", 1184 + 768), ("ML-KEM-768", 1184 + 1088), ("ML-KEM-1024", 1568 + 1568), ("ML-DSA-2", 2420),
    ("ML-DSA-3", 3293), ("ML-DSA-5", 4595)]

/-- `none` is a `ZeroDivisionError`. -/
def profilePqcOverhead [LinearOrder F] (arith : Rounding F) (profiler : PqcTunnelProfiler F) (payloadBytes : Int) :
    Option (Profile F) :=
  let kemOverhead := (pqcSizes.lookup profiler.kemAlgorithm).getD 2272
  let sigOverhead := (pqcSizes.lookup profiler.sigAlgorithm).getD 3293
  let totalPqcBytes := kemOverhead + sigOverhead
  let totalFrameBytes := payloadBytes + totalPqcBytes
  if profiler.mtuBytes = 0 then none
  else
    let fragments := (totalFrameBytes + profiler.mtuBytes - 1).fdiv profiler.mtuBytes
    let latencyPenaltyMs := arith.add
      (arith.add (arith.literal 15 100) (arith.mul (arith.ofInt fragments) (arith.literal 18 100)))
      (arith.literal 35 100)
    some
      { kemOverhead
        sigOverhead
        totalPqcBytes
        fragments
        latencyPenaltyMs
        slaBreached := decide (latencyPenaltyMs > profiler.maxSlaMs) }

def kemAlgorithm : PqcKemAlgorithm → String
  | .mlKem512 => "ML-KEM-512"
  | .mlKem768 => "ML-KEM-768"
  | .mlKem1024 => "ML-KEM-1024"

def sigAlgorithm : PqcSigAlgorithm → String
  | .mlDsa2 => "ML-DSA-2"
  | .mlDsa3 => "ML-DSA-3"
  | .mlDsa5 => "ML-DSA-5"

def harness (config : PqcConfig F) : PqcTunnelProfiler F :=
  ⟨kemAlgorithm config.kem, sigAlgorithm config.sig, config.mtuBytes.toNat, config.maxOtSlaLatencyMs⟩

/-! ## The sizes -/

theorem handshake_sizes (kem : PqcKemAlgorithm) (sig : PqcSigAlgorithm) :
    (pqcSizes.lookup (kemAlgorithm kem)).getD 2272 + (pqcSizes.lookup (sigAlgorithm sig)).getD 3293 =
      (calculatePqcOverheadBytes kem sig).toNat := by
  cases kem <;> cases sig <;> decide

theorem fdiv_natCast {bytes : Nat} (some_bytes : 0 < bytes) (mtu : Nat) :
    ((bytes : Int) + mtu - 1).fdiv mtu = ((bytes + mtu - 1) / mtu : Nat) := by
  have sum : (bytes : Int) + mtu - 1 = (bytes + mtu - 1 : Nat) := by omega
  rw [sum, Int.fdiv_eq_ediv_of_nonneg _ (Int.natCast_nonneg _), Int.natCast_ediv]

variable [LinearOrder F]

theorem profilePqcOverhead_harness {arith : Rounding F} {libm : Libm F} {config : PqcConfig F}
    {rawPayloadBytes : BitVec 64} {baseLatencyMs : F} {m : PqcOverheadMetrics F} (fits : Fits config rawPayloadBytes)
    (evaluated : evaluatePqcOverhead arith libm config rawPayloadBytes baseLatencyMs = some m) :
    ∃ p, profilePqcOverhead arith (harness config) rawPayloadBytes.toNat = some p ∧
      p.totalPqcBytes = m.totalPqcHandshakeBytes.toNat ∧ p.fragments = m.ipFragmentsCount.toNat ∧
      p.latencyPenaltyMs = arith.add
        (arith.add (arith.literal 15 100) (arith.mul (arith.ofNat m.ipFragmentsCount.toNat) (arith.literal 18 100)))
        (arith.literal 35 100) ∧
      p.slaBreached = decide (p.latencyPenaltyMs > config.maxOtSlaLatencyMs) := by
  obtain ⟨_, count, handshake, _⟩ := evaluatePqcOverhead_count evaluated
  have some_bytes := wireBytes_pos config rawPayloadBytes
  have inside : wireBytes config rawPayloadBytes + config.mtuBytes.toNat - 1 < 2 ^ 64 := by
    have small := fits.2
    omega
  rw [Nat.mod_eq_of_lt inside] at count
  have positive : (harness config).mtuBytes ≠ 0 := by
    intro zero
    exact fits.1 (BitVec.eq_of_toNat_eq (Int.ofNat_inj.mp zero))
  have sizes : (pqcSizes.lookup (harness config).kemAlgorithm).getD 2272 +
      (pqcSizes.lookup (harness config).sigAlgorithm).getD 3293 = m.totalPqcHandshakeBytes.toNat := by
    rw [handshake]
    exact handshake_sizes config.kem config.sig
  have fragments : ((rawPayloadBytes.toNat : Int) + ((pqcSizes.lookup (harness config).kemAlgorithm).getD 2272 +
      (pqcSizes.lookup (harness config).sigAlgorithm).getD 3293) + (harness config).mtuBytes - 1).fdiv
        (harness config).mtuBytes = m.ipFragmentsCount.toNat := by
    have bytes : (rawPayloadBytes.toNat : Int) + m.totalPqcHandshakeBytes.toNat = wireBytes config rawPayloadBytes := by
      rw [handshake, wireBytes, Nat.cast_add]
    rw [sizes, count, bytes]
    exact fdiv_natCast some_bytes config.mtuBytes.toNat
  have conversion : arith.ofInt m.ipFragmentsCount.toNat = arith.ofNat m.ipFragmentsCount.toNat := by
    unfold Rounding.ofInt Rounding.ofNat
    rw [Int.cast_natCast]
  unfold profilePqcOverhead
  rw [if_neg positive]
  refine ⟨_, rfl, sizes, fragments, ?_, rfl⟩
  dsimp only
  rw [fragments, conversion]

omit [LinearOrder F] in
theorem one_lt_fragments_iff {config : PqcConfig F} {rawPayloadBytes : BitVec 64} {count : Nat}
    (least : IsLeast {k | wireBytes config rawPayloadBytes ≤ k * config.mtuBytes.toNat} count) :
    1 < count ↔ config.mtuBytes.toNat < wireBytes config rawPayloadBytes := by
  constructor
  · intro several
    by_contra fits
    have one : wireBytes config rawPayloadBytes ≤ 1 * config.mtuBytes.toNat := by omega
    exact absurd (least.2 one) (not_le.mpr several)
  · intro above
    by_contra single
    have carried : wireBytes config rawPayloadBytes ≤ count * config.mtuBytes.toNat := least.1
    have one : count * config.mtuBytes.toNat ≤ 1 * config.mtuBytes.toNat :=
      Nat.mul_le_mul_right _ (not_lt.mp single)
    omega

/-! ## Agreement -/

/-- Handshake bytes, fragments, latency penalty and verdict are the same. -/
structure Agree (m : PqcOverheadMetrics F) (p : Profile F) : Prop where
  handshake : p.totalPqcBytes = m.totalPqcHandshakeBytes.toNat
  fragments : p.fragments = m.ipFragmentsCount.toNat
  latency : p.latencyPenaltyMs = m.estimatedPqcLatencyPenaltyMs
  verdict : p.slaBreached = m.otSlaBreached

def ProfilersAgree (arith : Rounding F) (libm : Libm F) (config : PqcConfig F) (rawPayloadBytes : BitVec 64) : Prop :=
  ∃ m p, evaluatePqcOverhead arith libm config rawPayloadBytes (arith.literal 15 100) = some m ∧
    profilePqcOverhead arith (harness config) rawPayloadBytes.toNat = some p ∧ Agree m p

/-- In exact arithmetic the harness charges for the one fragment of a message in one piece, and the
profiler does not. -/
theorem profilersAgree_iff_count {libm : Libm ℝ} {config : PqcConfig ℝ} {rawPayloadBytes : BitVec 64}
    {m : PqcOverheadMetrics ℝ} (fits : Fits config rawPayloadBytes)
    (evaluated : evaluatePqcOverhead exactly libm config rawPayloadBytes (exactly.literal 15 100) = some m) :
    ProfilersAgree exactly libm config rawPayloadBytes ↔ m.ipFragmentsCount > 1 := by
  obtain ⟨p, profiled, handshake, fragments, latency, breached⟩ := profilePqcOverhead_harness fits evaluated
  obtain ⟨_, _, _, penalty, verdict⟩ := evaluatePqcOverhead_count evaluated
  obtain ⟨_, same, least⟩ :=
    (fragmentsExact_iff_fits exactly libm config rawPayloadBytes (exactly.literal 15 100)).mpr fits
  obtain rfl := Option.some.inj (evaluated.symm.trans same)
  unfold latencyPenalty at penalty
  constructor
  · rintro ⟨m', p', same, same', agree⟩
    obtain rfl := Option.some.inj (evaluated.symm.trans same)
    obtain rfl := Option.some.inj (profiled.symm.trans same')
    by_contra single
    rw [if_neg single] at penalty
    have charged := agree.latency
    rw [latency, penalty] at charged
    have some_fragment : 0 < m.ipFragmentsCount.toNat := by
      have carried : wireBytes config rawPayloadBytes ≤ m.ipFragmentsCount.toNat * config.mtuBytes.toNat := least.1
      exact Nat.pos_of_mul_pos_right ((wireBytes_pos config rawPayloadBytes).trans_le carried)
    have price : (0 : ℝ) < m.ipFragmentsCount.toNat * ((18 : Nat) / (100 : Nat)) := by positivity
    unfold Rounding.add Rounding.mul Rounding.ofNat Rounding.literal exactly at charged
    simp only [id] at charged
    linarith
  · intro fragmented
    rw [if_pos fragmented] at penalty
    have same_latency : p.latencyPenaltyMs = m.estimatedPqcLatencyPenaltyMs := by rw [latency, penalty]
    exact ⟨m, p, evaluated, profiled, handshake, fragments, same_latency, by rw [breached, verdict, same_latency]⟩

/-- The profilers agree exactly on the messages that are above the MTU with their handshake. -/
theorem profilers_agree_iff (libm : Libm ℝ) (config : PqcConfig ℝ) (rawPayloadBytes : BitVec 64)
    (fits : Fits config rawPayloadBytes) :
    ProfilersAgree exactly libm config rawPayloadBytes ↔
      config.mtuBytes.toNat < wireBytes config rawPayloadBytes := by
  obtain ⟨m, evaluated, least⟩ :=
    (fragmentsExact_iff_fits exactly libm config rawPayloadBytes (exactly.literal 15 100)).mpr fits
  rw [profilersAgree_iff_count fits evaluated]
  exact one_lt_fragments_iff least

theorem profilers_agree_default : ProfilersAgree exactly exact {} 128 :=
  (profilers_agree_iff exact {} 128 ⟨by decide, by decide⟩).mpr (by decide)

/-- The same message in one piece. -/
theorem profilers_differ_jumbo : ¬ProfilersAgree exactly exact { mtuBytes := 9000 } 128 := by
  rw [profilersAgree_iff_count ⟨by decide, by decide⟩ rfl]
  decide

end SentinelLab.PqcHarness
