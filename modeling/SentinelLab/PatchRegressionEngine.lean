import SentinelLab.Library.FloatingPoint

/-! `PatchRegressionEngine` over an exact number field, with 64-bit counts: four criteria on the
metrics before and after a patch. -/

namespace SentinelLab.PatchRegressionEngine
open Library.FloatingPoint

variable {F : Type} [Field F]

structure PatchMetricsSnapshot (F : Type) [Field F] where
  throughputEps : F := 0
  meanLatencyNs : F := 0
  attackNeutralizationRatePct : F := 0
  falsePositivesCount : BitVec 64 := 0

structure PatchRegressionScorecard (F : Type) [Field F] where
  valid : Bool := false
  patchApproved : Bool := false
  packageId : String := ""
  neutralizationRatePct : F := 0
  throughputDeltaPct : F := 0
  latencyDeltaNs : F := 0
  falsePositiveDelta : BitVec 64 := 0
  scorecardSummary : String := ""

structure PatchRegressionConfig (F : Type) [Field F] where
  minNeutralizationPct : F := (100 : Nat)
  maxThroughputDropPct : F := (5 : Nat) / (10 : Nat)
  maxLatencyDeltaNs : F := (120 : Nat)

def scorecardSummary (libm : Libm F) (config : PatchRegressionConfig F) (sc : PatchRegressionScorecard F) : String :=
  "PATCH REGRESSION SCORECARD [" ++ sc.packageId ++ "]: " ++
  "Exploit Neutralization=" ++ libm.fixed 2 sc.neutralizationRatePct ++ "% (Target: " ++
  libm.fixed 2 config.minNeutralizationPct ++ "%) | " ++
  "Throughput Delta=" ++ libm.fixed 2 sc.throughputDeltaPct ++ "% (Limit: " ++
  libm.fixed 2 config.maxThroughputDropPct ++ "%) | " ++
  "Latency Delta=" ++ libm.fixed 2 sc.latencyDeltaNs ++ "ns (Limit: " ++ libm.fixed 2 config.maxLatencyDeltaNs ++
  "ns) | " ++
  "False Positives Delta=" ++ toString sc.falsePositiveDelta.toNat ++ " [" ++
  (if sc.patchApproved then "\x1b[1;32m[APPROVED FOR FLEET DEPLOYMENT]\x1b[0m"
    else "\x1b[1;31m[REJECTED] Patch Regression Detected\x1b[0m") ++ "]"

variable [LinearOrder F]

def throughputDeltaPct (prePatch postPatch : PatchMetricsSnapshot F) : F :=
  if 0 < prePatch.throughputEps then
    (postPatch.throughputEps - prePatch.throughputEps) / prePatch.throughputEps * (100 : Nat)
  else 0

def evaluatePatch (libm : Libm F) (config : PatchRegressionConfig F) (packageId : String)
    (prePatch postPatch : PatchMetricsSnapshot F) : PatchRegressionScorecard F :=
  let sc : PatchRegressionScorecard F :=
    { packageId
      neutralizationRatePct := postPatch.attackNeutralizationRatePct
      throughputDeltaPct := throughputDeltaPct prePatch postPatch
      latencyDeltaNs := postPatch.meanLatencyNs - prePatch.meanLatencyNs
      falsePositiveDelta := postPatch.falsePositivesCount - prePatch.falsePositivesCount
      valid := true }
  let neutralizationPassed := decide (config.minNeutralizationPct ≤ sc.neutralizationRatePct)
  let throughputPassed :=
    decide (|sc.throughputDeltaPct| ≤ config.maxThroughputDropPct ∨ 0 ≤ sc.throughputDeltaPct)
  let latencyPassed := decide (sc.latencyDeltaNs ≤ config.maxLatencyDeltaNs)
  let fpPassed := decide (sc.falsePositiveDelta = 0)
  let approved := { sc with patchApproved := neutralizationPassed && throughputPassed && latencyPassed && fpPassed }
  { approved with scorecardSummary := scorecardSummary libm config approved }

/-! ## The criteria on the snapshots -/

/-- What an approved patch has shown. -/
structure Passes (config : PatchRegressionConfig F) (prePatch postPatch : PatchMetricsSnapshot F) : Prop where
  neutralization : config.minNeutralizationPct ≤ postPatch.attackNeutralizationRatePct
  throughput : prePatch.throughputEps ≤ 0 ∨ prePatch.throughputEps ≤ postPatch.throughputEps ∨
    (prePatch.throughputEps - postPatch.throughputEps) * (100 : Nat) ≤
      config.maxThroughputDropPct * prePatch.throughputEps
  latency : postPatch.meanLatencyNs ≤ prePatch.meanLatencyNs + config.maxLatencyDeltaNs
  falsePositives : postPatch.falsePositivesCount = prePatch.falsePositivesCount

/-- `b` is at least as good as `a` in every metric. -/
structure AtLeastAsGood (a b : PatchMetricsSnapshot F) : Prop where
  neutralization : a.attackNeutralizationRatePct ≤ b.attackNeutralizationRatePct
  throughput : a.throughputEps ≤ b.throughputEps
  latency : b.meanLatencyNs ≤ a.meanLatencyNs
  falsePositives : b.falsePositivesCount ≤ a.falsePositivesCount

variable [IsStrictOrderedRing F]

theorem throughput_passed_iff (limit : F) (prePatch postPatch : PatchMetricsSnapshot F) :
    |throughputDeltaPct prePatch postPatch| ≤ limit ∨ 0 ≤ throughputDeltaPct prePatch postPatch ↔
      prePatch.throughputEps ≤ 0 ∨ prePatch.throughputEps ≤ postPatch.throughputEps ∨
        (prePatch.throughputEps - postPatch.throughputEps) * (100 : Nat) ≤ limit * prePatch.throughputEps := by
  have hundred : (0 : F) < (100 : Nat) := by norm_num
  unfold throughputDeltaPct
  by_cases positive : 0 < prePatch.throughputEps
  · rw [if_pos positive]
    by_cases rise : prePatch.throughputEps ≤ postPatch.throughputEps
    · have gain : 0 ≤ (postPatch.throughputEps - prePatch.throughputEps) / prePatch.throughputEps * (100 : Nat) :=
        mul_nonneg (div_nonneg (sub_nonneg.mpr rise) positive.le) hundred.le
      exact iff_of_true (.inr gain) (.inr (.inl rise))
    · have loss : (postPatch.throughputEps - prePatch.throughputEps) / prePatch.throughputEps * (100 : Nat) < 0 :=
        mul_neg_of_neg_of_pos (div_neg_of_neg_of_pos (sub_neg.mpr (not_le.mp rise)) positive) hundred
      have scaled : -((postPatch.throughputEps - prePatch.throughputEps) / prePatch.throughputEps * (100 : Nat)) =
          (prePatch.throughputEps - postPatch.throughputEps) * (100 : Nat) / prePatch.throughputEps := by
        ring
      rw [abs_of_neg loss, scaled, div_le_iff₀ positive]
      simp only [not_le.mpr loss, not_le.mpr positive, rise, or_false, false_or]
  · rw [if_neg positive]
    exact iff_of_true (.inr le_rfl) (.inl (not_lt.mp positive))

theorem approved_iff (libm : Libm F) (config : PatchRegressionConfig F) (packageId : String)
    (prePatch postPatch : PatchMetricsSnapshot F) :
    (evaluatePatch libm config packageId prePatch postPatch).patchApproved = true ↔
      Passes config prePatch postPatch := by
  simp only [evaluatePatch, Bool.and_eq_true, decide_eq_true_eq, throughput_passed_iff, sub_le_iff_le_add',
    sub_eq_zero]
  constructor
  · rintro ⟨⟨⟨neutralization, throughput⟩, latency⟩, falsePositives⟩
    exact ⟨neutralization, throughput, latency, falsePositives⟩
  · rintro ⟨neutralization, throughput, latency, falsePositives⟩
    exact ⟨⟨⟨neutralization, throughput⟩, latency⟩, falsePositives⟩

theorem Passes.mono {config : PatchRegressionConfig F} {prePatch a b : PatchMetricsSnapshot F}
    (passes : Passes config prePatch a) (better : AtLeastAsGood a b)
    (same : b.falsePositivesCount = prePatch.falsePositivesCount) : Passes config prePatch b := by
  refine ⟨passes.neutralization.trans better.neutralization, ?_, better.latency.trans passes.latency, same⟩
  rcases passes.throughput with no_baseline | rise | drop
  · exact .inl no_baseline
  · exact .inr (.inl (rise.trans better.throughput))
  · right
    right
    calc
      (prePatch.throughputEps - b.throughputEps) * (100 : Nat) ≤
          (prePatch.throughputEps - a.throughputEps) * (100 : Nat) := by
        apply mul_le_mul_of_nonneg_right _ (Nat.cast_nonneg _)
        exact sub_le_sub_left better.throughput _
      _ ≤ config.maxThroughputDropPct * prePatch.throughputEps := drop

/-- A better patch is approved with a worse one unless it has fewer false positives than there
were before the patch. -/
theorem approval_mono_iff (libm : Libm F) (config : PatchRegressionConfig F) (packageA packageB : String)
    (prePatch a b : PatchMetricsSnapshot F) (better : AtLeastAsGood a b) :
    ((evaluatePatch libm config packageA prePatch a).patchApproved = true →
      (evaluatePatch libm config packageB prePatch b).patchApproved = true) ↔
      (Passes config prePatch a → ¬b.falsePositivesCount < prePatch.falsePositivesCount) := by
  rw [approved_iff, approved_iff]
  constructor
  · intro mono passes fewer
    rw [(mono passes).falsePositives] at fewer
    exact absurd fewer (BitVec.lt_irrefl _)
  · intro no_fewer passes
    apply passes.mono better
    have at_most := better.falsePositives
    rw [passes.falsePositives] at at_most
    exact BitVec.le_antisymm at_most (BitVec.not_lt.mp (no_fewer passes))

private noncomputable def beforePatch : PatchMetricsSnapshot ℝ :=
  { throughputEps := (1000 : Nat), meanLatencyNs := (500 : Nat), attackNeutralizationRatePct := 0,
    falsePositivesCount := 3 }

private noncomputable def patched (throughputEps : ℝ) (falsePositivesCount : BitVec 64) : PatchMetricsSnapshot ℝ :=
  { throughputEps, meanLatencyNs := 510, attackNeutralizationRatePct := 100, falsePositivesCount }

private theorem patched_better {slower faster : ℝ} {fewer more : BitVec 64} (throughput : slower ≤ faster)
    (count : fewer ≤ more) : AtLeastAsGood (patched slower more) (patched faster fewer) :=
  ⟨le_rfl, throughput, le_rfl, count⟩

theorem approval_mono_iff_faster :
    (evaluatePatch exact {} "fast" beforePatch (patched 1200 3)).patchApproved = true :=
  (approval_mono_iff exact {} "slow" "fast" beforePatch (patched 998 3) (patched 1200 3)
    (patched_better (by norm_num) (by decide))).mpr (fun _ => by decide)
    ((approved_iff exact {} "slow" beforePatch (patched 998 3)).mpr
      ⟨le_rfl, by norm_num [beforePatch, patched], by norm_num [beforePatch, patched], rfl⟩)

/-- Two false positives in place of three are a regression. -/
theorem fewer_false_positives_rejected :
    AtLeastAsGood (patched 1000 3) (patched 1000 2) ∧
      (evaluatePatch exact {} "same" beforePatch (patched 1000 3)).patchApproved = true ∧
      (evaluatePatch exact {} "fewer" beforePatch (patched 1000 2)).patchApproved = false := by
  refine ⟨patched_better le_rfl (by decide), ?_, ?_⟩
  · rw [approved_iff]
    exact ⟨le_rfl, .inr (.inl le_rfl), by norm_num [beforePatch, patched], rfl⟩
  · rw [Bool.eq_false_iff, Ne, approved_iff]
    intro passes
    exact absurd passes.falsePositives (by decide)

end SentinelLab.PatchRegressionEngine
