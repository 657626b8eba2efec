import SentinelLab.Library.Cosine
import SentinelLab.Library.Deviation
import SentinelLab.Library.FloatingPoint

/-! `SideChannelCorrelator`: the Pearson coefficient of packet rates and power traces. Over the reals it is
the cosine of the two sequences without their means. -/

namespace SentinelLab.SideChannelCorrelator
open Library.FloatingPoint Library.Cosine

section
variable {F : Type} [Field F]

structure PowerTracePoint (F : Type) [Field F] where
  powerMw : F := 0
  emFieldUT : F := 0

structure SideChannelMetrics (F : Type) [Field F] where
  valid : Bool := false
  pearsonCorrelationRho : F := 0
  maxPowerMw : F := 0
  maxEmUT : F := 0
  sidechannelAnomalyDetected : Bool := false
  summaryReport : String := ""

structure SideChannelConfig (F : Type) [Field F] where
  maxPowerMwLimit : F := (450 : Nat)
  minCorrelationRho : F := (85 : Nat) / (100 : Nat)

def accumulate (values : List F) : F := values.foldl (· + ·) 0

variable [LinearOrder F]

def calculatePearsonRho (libm : Libm F) (x y : List F) : F :=
  if x.isEmpty ∨ x.length ≠ y.length then 0
  else
    let n := x.length
    let meanX := accumulate x / (n : F)
    let meanY := accumulate y / (n : F)
    let (num, denX, denY) := (x.zip y).foldl
      (fun (num, denX, denY) (xi, yi) =>
        let dx := xi - meanX
        let dy := yi - meanY
        (num + dx * dy, denX + dx * dx, denY + dy * dy)) ((0, 0, 0) : F × F × F)
    if denX ≤ 0 ∨ denY ≤ 0 then 0 else num / (libm.sqrt denX * libm.sqrt denY)

def summaryReport (libm : Libm F) (config : SideChannelConfig F) (m : SideChannelMetrics F) : String :=
  "Hardware Side-Channel Correlation: Pearson Rho=" ++ libm.fixed 2 m.pearsonCorrelationRho ++
  " (Limit: >=" ++ libm.fixed 2 config.minCorrelationRho ++ ") | Max Power=" ++ libm.fixed 2 m.maxPowerMw ++
  "mW (Limit: " ++ libm.fixed 2 config.maxPowerMwLimit ++ "mW) | Max EM=" ++ libm.fixed 2 m.maxEmUT ++ "uT [" ++
  (if !m.sidechannelAnomalyDetected then "\x1b[1;32m[PASSED] Physical-Cyber Correlated\x1b[0m"
    else "\x1b[1;31m[ANOMALY] Out-of-Band Power Spike / Decoupling\x1b[0m") ++ "]"

def evaluateCorrelation (libm : Libm F) (config : SideChannelConfig F) (networkPacketRates : List F)
    (powerTraces : List (PowerTracePoint F)) : SideChannelMetrics F :=
  if networkPacketRates.isEmpty ∨ networkPacketRates.length ≠ powerTraces.length then
    { summaryReport := "Invalid or mismatched network/power trace sizes" }
  else
    let powerValues := powerTraces.map (·.powerMw)
    let maxP := powerValues.foldl stdMax 0
    let maxEm := (powerTraces.map (·.emFieldUT)).foldl stdMax 0
    let pearsonCorrelationRho := calculatePearsonRho libm networkPacketRates powerValues
    let powerSpikeOnIdle := decide (maxP > config.maxPowerMwLimit)
    let lowCorrelation := decide (pearsonCorrelationRho < config.minCorrelationRho)
    let m : SideChannelMetrics F :=
      { maxPowerMw := maxP
        maxEmUT := maxEm
        pearsonCorrelationRho
        sidechannelAnomalyDetected := powerSpikeOnIdle || lowCorrelation
        valid := true }
    { m with summaryReport := summaryReport libm config m }

end

/-! ## The coefficient as a cosine -/

noncomputable def centred (x : List ℝ) : List ℝ := x.map (· - Library.Deviation.mean x)

theorem length_centred (x : List ℝ) : (centred x).length = x.length := List.length_map _

theorem accumulate_div (x : List ℝ) : accumulate x / (x.length : ℝ) = Library.Deviation.mean x := by
  rw [accumulate, ← List.sum_eq_foldl, Library.Deviation.mean]

theorem calculatePearsonRho_eq {x y : List ℝ} (same : x.length = y.length) :
    calculatePearsonRho exact x y = cosine (centred x) (centred y) := by
  by_cases empty : x = []
  · subst empty
    obtain rfl := List.eq_nil_of_length_eq_zero same.symm
    rw [calculatePearsonRho, if_pos (.inl rfl), cosine]
    exact (if_pos (.inl le_rfl)).symm
  · have mean_y : accumulate y / (x.length : ℝ) = Library.Deviation.mean y := by rw [same, accumulate_div]
    unfold calculatePearsonRho cosine runningSums centred
    rw [if_neg (by simp [empty, same]), List.zip_map, List.foldl_map]
    simp only [accumulate_div, mean_y]
    rfl

/-! ## Calibration -/

noncomputable def calibrate (gain offset : ℝ) (x : List ℝ) : List ℝ := x.map fun value => gain * value + offset

theorem length_calibrate (gain offset : ℝ) (x : List ℝ) : (calibrate gain offset x).length = x.length :=
  List.length_map _

theorem centred_calibrate (gain offset : ℝ) (x : List ℝ) :
    centred (calibrate gain offset x) = (centred x).map (gain * ·) := by
  by_cases empty : x = []
  · subst empty
    rfl
  · rw [centred, calibrate, Library.Deviation.mean_affine empty, List.map_map, centred, List.map_map]
    apply List.map_congr_left
    intro value _
    change gain * value + offset - (gain * Library.Deviation.mean x + offset) = gain * (value - Library.Deviation.mean x)
    ring

theorem pearson_calibrate {x y : List ℝ} (same : x.length = y.length) {a c : ℝ} (gain : 0 < a) (gain' : 0 < c)
    (b d : ℝ) : calculatePearsonRho exact (calibrate a b x) (calibrate c d y) = calculatePearsonRho exact x y := by
  have long : (centred x).length = (centred y).length := by rwa [length_centred, length_centred]
  rw [calculatePearsonRho_eq (by rwa [length_calibrate, length_calibrate]), centred_calibrate, centred_calibrate,
    cosine_scale_left (by rwa [List.length_map]) gain, cosine_scale_right long gain', calculatePearsonRho_eq same]

theorem centred_nonzero {x : List ℝ} (varies : ∃ u ∈ x, ∃ v ∈ x, u ≠ v) : ∃ a ∈ centred x, a ≠ 0 := by
  by_contra zeros
  push Not at zeros
  have at_mean (value : ℝ) (member : value ∈ x) : value = Library.Deviation.mean x :=
    sub_eq_zero.mp (zeros _ (List.mem_map_of_mem member))
  obtain ⟨u, here, v, there, differ⟩ := varies
  exact differ ((at_mean u here).trans (at_mean v there).symm)

/-- The coefficient is in the range of a cosine and symmetric, calibrations of positive gain do not change it,
a change of sign negates it, and it is 1 for a sequence and its calibrations. -/
theorem pearson_bounded_invariant (x y : List ℝ) (same : x.length = y.length) :
    calculatePearsonRho exact x y ∈ Set.Icc (-1) 1 ∧
      calculatePearsonRho exact y x = calculatePearsonRho exact x y ∧
      (∀ a c b d : ℝ, 0 < a → 0 < c →
        calculatePearsonRho exact (x.map fun value => a * value + b) (y.map fun value => c * value + d) =
          calculatePearsonRho exact x y) ∧
      calculatePearsonRho exact (x.map fun value => -value) y = -calculatePearsonRho exact x y ∧
      ((∃ u ∈ x, ∃ v ∈ x, u ≠ v) →
        ∀ a b : ℝ, 0 < a → calculatePearsonRho exact x (x.map fun value => a * value + b) = 1) := by
  have long : (centred x).length = (centred y).length := by rwa [length_centred, length_centred]
  refine ⟨?_, ?_, ?_, ?_, ?_⟩
  · rw [calculatePearsonRho_eq same]
    exact ⟨neg_one_le_cosine long, cosine_le_one long⟩
  · rw [calculatePearsonRho_eq same, calculatePearsonRho_eq same.symm, cosine_comm long]
  · intro a c b d gain gain'
    exact pearson_calibrate same gain gain' b d
  · have negated : (x.map fun value => -value) = calibrate (-1) 0 x := by simp [calibrate]
    rw [negated, calculatePearsonRho_eq (by rwa [length_calibrate]), centred_calibrate, cosine_neg_left long,
      calculatePearsonRho_eq same]
  · intro varies a b gain
    change calculatePearsonRho exact x (calibrate a b x) = 1
    rw [calculatePearsonRho_eq (length_calibrate a b x).symm, centred_calibrate,
      cosine_eq_one_iff (by rw [List.length_map])]
    exact ⟨centred_nonzero varies, a, gain, rfl⟩

theorem pearson_bounded_invariant_two_units :
    calculatePearsonRho exact [0, 1] [1, 3] ∈ Set.Icc (-1) 1 ∧ calculatePearsonRho exact [0, 1] [1, 3] = 1 := by
  obtain ⟨bounded, _, _, _, multiple⟩ := pearson_bounded_invariant [0, 1] [1, 3] rfl
  refine ⟨bounded, ?_⟩
  have calibrated := multiple ⟨0, by simp, 1, by simp, zero_ne_one⟩ 2 1 two_pos
  norm_num at calibrated
  exact calibrated

/-- The verdict does not depend on the unit in which the packet rates are counted. -/
theorem anomaly_calibrate (config : SideChannelConfig ℝ) (networkPacketRates : List ℝ)
    (powerTraces : List (PowerTracePoint ℝ)) {a : ℝ} (gain : 0 < a) (b : ℝ) :
    (evaluateCorrelation exact config (calibrate a b networkPacketRates) powerTraces).sidechannelAnomalyDetected =
      (evaluateCorrelation exact config networkPacketRates powerTraces).sidechannelAnomalyDetected := by
  have empty : (calibrate a b networkPacketRates).isEmpty = networkPacketRates.isEmpty := by
    rw [calibrate, List.isEmpty_map]
  unfold evaluateCorrelation
  rw [empty, length_calibrate]
  split
  next invalid => rfl
  next valid =>
    rw [not_or, not_not] at valid
    have same : networkPacketRates.length = (powerTraces.map (·.powerMw)).length := by rw [List.length_map, valid.2]
    have unchanged := pearson_calibrate same gain one_pos b 0
    have kept : calibrate 1 0 (powerTraces.map (·.powerMw)) = powerTraces.map (·.powerMw) := by simp [calibrate]
    rw [kept] at unchanged
    dsimp only
    rw [unchanged]

end SentinelLab.SideChannelCorrelator
