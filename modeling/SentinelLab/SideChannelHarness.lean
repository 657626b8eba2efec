import SentinelLab.Numpy
import SentinelLab.SideChannelCorrelator

/-! `SideChannelAnalyzer`, the script next to `SideChannelCorrelator`: the draws of its generator and
numpy are parameters, the numbers exact, and a coefficient that is NaN is `none`. -/

namespace SentinelLab.SideChannelHarness
open SideChannelCorrelator Library.FloatingPoint Library.Cosine Library.Deviation

/-! ## The script -/

structure SideChannelAnalyzer where
  maxPowerMw : ℝ := (450 : Nat)
  minRho : ℝ := (85 : Nat) / (100 : Nat)

/-- What the generator yields: the noise of the rates and of the power. -/
structure Draws (numSamples : Nat) where
  networkNoise : List ℝ
  powerNoise : List ℝ
  length_networkNoise : networkNoise.length = numSamples
  length_powerNoise : powerNoise.length = numSamples

structure Case where
  maxPower : ℝ
  rho : Option ℝ
  status : String

variable {numSamples : Nat}

noncomputable def networkRate (np : Numpy) (draws : Draws numSamples) : List ℝ :=
  List.zipWith (fun t noise => (1000 : Nat) + (500 : Nat) * np.sin t + noise) (np.linspace 0 (10 : Nat) numSamples)
    draws.networkNoise

noncomputable def powerTraceNormal (np : Numpy) (draws : Draws numSamples) : List ℝ :=
  List.zipWith (fun rate noise => (200 : Nat) + (15 : Nat) / (100 : Nat) * rate + noise) (networkRate np draws)
    draws.powerNoise

/-- `trace[200:300] += 300.0` -/
noncomputable def powerTraceAnomaly (np : Numpy) (draws : Draws numSamples) : List ℝ :=
  (powerTraceNormal np draws).mapIdx fun i power => if 200 ≤ i ∧ i < 300 then power + (300 : Nat) else power

noncomputable def passed (analyzer : SideChannelAnalyzer) (maxPower : ℝ) (rho : Option ℝ) : Bool :=
  decide (maxPower ≤ analyzer.maxPowerMw) && rho.any fun rho => decide (analyzer.minRho ≤ rho)

noncomputable def analyzeTraces (np : Numpy) (analyzer : SideChannelAnalyzer) (draws : Draws numSamples) :
    Option (Case × Case) := do
  let rhoNormal := np.corrcoef (networkRate np draws) (powerTraceNormal np draws)
  let rhoAnomaly := np.corrcoef (networkRate np draws) (powerTraceAnomaly np draws)
  let maxPNorm ← np.amax (powerTraceNormal np draws)
  let maxPAnom ← np.amax (powerTraceAnomaly np draws)
  let normal : Case :=
    { maxPower := maxPNorm
      rho := rhoNormal
      status := if passed analyzer maxPNorm rhoNormal then "[PASSED] Correlated" else "[ANOMALY]" }
  let anomaly : Case :=
    { maxPower := maxPAnom
      rho := rhoAnomaly
      status := "\x1b[1;31m[ANOMALY DETECTED] Physical Power Spike / Hardware Implant\x1b[0m" }
  return (normal, anomaly)

/-! ## The coefficient -/

def Varies (x : List ℝ) : Prop := ∃ u ∈ x, ∃ v ∈ x, u ≠ v

variable {np : Numpy} {x y : List ℝ}

theorem covariance_eq (x y : List ℝ) : covariance x y = dot (centred x) (centred y) / ((x.length : ℝ) - 1) := by
  rw [covariance, dot, centred, centred, ← List.map_uncurry_zip_eq_zipWith]
  rfl

theorem dot_self_pos_iff (v : List ℝ) : 0 < dot v v ↔ ∃ a ∈ v, a ≠ 0 := by
  have norm := norm_toVector (rfl : v.length = v.length)
  rw [← Real.sqrt_pos, ← norm, norm_pos_iff, ne_eq, toVector_eq_zero_iff rfl]
  push Not
  rfl

theorem dot_self_nonneg (v : List ℝ) : 0 ≤ dot v v := by
  rw [← inner_toVector rfl rfl]
  exact real_inner_self_nonneg

theorem centred_nonzero_iff : (∃ a ∈ centred x, a ≠ 0) ↔ Varies x := by
  constructor
  · intro nonzero
    by_contra constant
    unfold Varies at constant
    push Not at constant
    obtain ⟨a, member, off⟩ := nonzero
    obtain ⟨value, inside, rfl⟩ := List.mem_map.mp member
    have all : x = List.replicate x.length value :=
      List.eq_replicate_iff.mpr ⟨rfl, fun other there => constant other there value inside⟩
    have positive : (x.length : ℝ) ≠ 0 := by
      exact_mod_cast (List.length_pos_of_mem inside).ne'
    apply off
    rw [Library.Deviation.mean, all, List.sum_replicate, List.length_replicate, nsmul_eq_mul,
      mul_div_cancel_left₀ value positive, sub_self]
  · exact centred_nonzero

theorem dot_centred_pos_iff : 0 < dot (centred x) (centred x) ↔ Varies x :=
  (dot_self_pos_iff _).trans centred_nonzero_iff

theorem Varies.length (varies : Varies x) : 2 ≤ x.length := by
  obtain ⟨u, here, v, there, differ⟩ := varies
  by_contra few
  match x, here, there with
  | [value], here, there =>
    rw [List.mem_singleton.mp here, List.mem_singleton.mp there] at differ
    exact differ rfl
  | first :: second :: rest, _, _ => exact few (by simp)

theorem covariance_self_eq_zero_iff (several : 2 ≤ x.length) : covariance x x = 0 ↔ ¬Varies x := by
  have count : (2 : ℝ) ≤ x.length := by exact_mod_cast several
  have positive : (x.length : ℝ) - 1 ≠ 0 := by
    have above : 0 < (x.length : ℝ) - 1 := by linarith
    exact above.ne'
  rw [covariance_eq, div_eq_zero_iff, or_iff_left positive, ← dot_centred_pos_iff, not_lt]
  exact ⟨fun zero => zero.le, fun below => le_antisymm below (dot_self_nonneg _)⟩

theorem corrcoef_eq_none_iff (documented : np.Documented) (same : x.length = y.length) :
    np.corrcoef x y = none ↔ ¬(Varies x ∧ Varies y) := by
  rw [documented.corrcoef x y same]
  split
  next degenerate =>
    refine iff_of_true rfl fun ⟨variesX, variesY⟩ => ?_
    rcases degenerate with few | constant | constant
    · exact absurd variesX.length (by omega)
    · exact (covariance_self_eq_zero_iff variesX.length).mp constant variesX
    · exact (covariance_self_eq_zero_iff variesY.length).mp constant variesY
  next regular =>
    rw [not_or, not_or, not_lt] at regular
    obtain ⟨several, notX, notY⟩ := regular
    rw [covariance_self_eq_zero_iff several, not_not] at notX
    rw [covariance_self_eq_zero_iff (same ▸ several), not_not] at notY
    exact iff_of_false (Option.some_ne_none _) (not_not.mpr ⟨notX, notY⟩)

theorem corrcoef_of_varies (documented : np.Documented) (same : x.length = y.length) (variesX : Varies x)
    (variesY : Varies y) : np.corrcoef x y = some (calculatePearsonRho exact x y) := by
  have count : (2 : ℝ) ≤ x.length := by exact_mod_cast variesX.length
  have divisor : 0 < (x.length : ℝ) - 1 := by linarith
  have positiveX := dot_centred_pos_iff.mpr variesX
  have positiveY := dot_centred_pos_iff.mpr variesY
  have regular : ¬(x.length < 2 ∨ covariance x x = 0 ∨ covariance y y = 0) := by
    rw [not_or, not_or, not_lt, covariance_self_eq_zero_iff variesX.length, covariance_self_eq_zero_iff variesY.length]
    exact ⟨variesX.length, not_not.mpr variesX, not_not.mpr variesY⟩
  have long : (centred x).length = (centred y).length := by rwa [length_centred, length_centred]
  rw [documented.corrcoef x y same, if_neg regular, calculatePearsonRho_eq same, cosine, runningSums_zip long]
  dsimp only
  rw [if_neg (by rw [not_or, not_le, not_le]; exact ⟨positiveX, positiveY⟩), Option.some.injEq, covariance_eq,
    covariance_eq, covariance_eq, ← same, div_mul_div_comm, Real.sqrt_div' _ (mul_self_nonneg _),
    Real.sqrt_mul_self divisor.le, Real.sqrt_mul positiveX.le]
  exact div_div_div_cancel_right₀ divisor.ne' _ _

theorem pearson_of_constant (same : x.length = y.length) (constant : ¬(Varies x ∧ Varies y)) :
    calculatePearsonRho exact x y = 0 := by
  have long : (centred x).length = (centred y).length := by rwa [length_centred, length_centred]
  rw [calculatePearsonRho_eq same, cosine, runningSums_zip long]
  dsimp only
  rw [← dot_centred_pos_iff, ← dot_centred_pos_iff, not_and_or, not_lt, not_lt] at constant
  rw [if_pos constant]

/-! ## The correlator on the same traces -/

def correlatorConfig (analyzer : SideChannelAnalyzer) : SideChannelConfig ℝ where
  maxPowerMwLimit := analyzer.maxPowerMw
  minCorrelationRho := analyzer.minRho

noncomputable def powerPoints (powers : List ℝ) : List (PowerTracePoint ℝ) := powers.map fun power => { powerMw := power }

noncomputable def anomalous (analyzer : SideChannelAnalyzer) (rates powers : List ℝ) : Bool :=
  (evaluateCorrelation exact (correlatorConfig analyzer) rates (powerPoints powers)).sidechannelAnomalyDetected

variable {analyzer : SideChannelAnalyzer} {rates powers : List ℝ}

def Within (analyzer : SideChannelAnalyzer) (powers : List ℝ) : Prop := ∀ power ∈ powers, power ≤ analyzer.maxPowerMw

theorem foldl_stdMax_le_iff {bound : ℝ} (values : List ℝ) :
    values.foldl stdMax 0 ≤ bound ↔ 0 ≤ bound ∧ ∀ value ∈ values, value ≤ bound := by
  obtain ⟨reached, above⟩ := foldl_stdMax_isGreatest (0 : ℝ) values
  constructor
  · intro below
    exact ⟨(above (Set.mem_insert ..)).trans below, fun value member => (above (.inr member)).trans below⟩
  · rintro ⟨positive, all⟩
    rcases reached with zero | member
    · rw [zero]
      exact positive
    · exact all _ member

theorem anomalous_eq_false_iff (same : rates.length = powers.length) (nonempty : rates ≠ []) :
    anomalous analyzer rates powers = false ↔
      0 ≤ analyzer.maxPowerMw ∧ Within analyzer powers ∧ analyzer.minRho ≤ calculatePearsonRho exact rates powers := by
  have valid : ¬(rates.isEmpty ∨ rates.length ≠ (powerPoints powers).length) := by
    rw [powerPoints, List.length_map, not_or, not_not, List.isEmpty_iff]
    exact ⟨nonempty, same⟩
  have values : (powerPoints powers).map (·.powerMw) = powers := by
    rw [powerPoints, List.map_map]
    exact List.map_id powers
  unfold anomalous evaluateCorrelation
  rw [if_neg valid]
  dsimp only
  rw [values, Bool.or_eq_false_iff, decide_eq_false_iff_not, decide_eq_false_iff_not, not_lt, not_lt, foldl_stdMax_le_iff,
    and_assoc]
  rfl

theorem passed_iff (documented : np.Documented) (same : rates.length = powers.length) {maxPower : ℝ}
    (greatest : powers.max? = some maxPower) :
    passed analyzer maxPower (np.corrcoef rates powers) = true ↔
      Within analyzer powers ∧ (Varies rates ∧ Varies powers) ∧
        analyzer.minRho ≤ calculatePearsonRho exact rates powers := by
  obtain ⟨member, above⟩ := List.max?_eq_some_iff.mp greatest
  have within : maxPower ≤ analyzer.maxPowerMw ↔ Within analyzer powers :=
    ⟨fun below power inside => (above power inside).trans below, fun all => all _ member⟩
  rw [passed, Bool.and_eq_true, decide_eq_true_iff, within]
  refine and_congr_right fun _ => ?_
  by_cases varies : Varies rates ∧ Varies powers
  · rw [corrcoef_of_varies documented same varies.1 varies.2, Option.any_some, decide_eq_true_iff, and_iff_right varies]
  · rw [(corrcoef_eq_none_iff documented same).mpr varies, Option.any_none]
    exact iff_of_false Bool.false_ne_true fun both => varies both.1

/-- What the two programs see differently: below a negative limit, which the running maximum of the
correlator never is, and in constant traces, whose coefficient is 0 there and NaN here. -/
def Disputed (analyzer : SideChannelAnalyzer) (rates powers : List ℝ) : Prop :=
  Within analyzer powers ∧
    ((Varies rates ∧ Varies powers) ∧ analyzer.maxPowerMw < 0 ∧
        analyzer.minRho ≤ calculatePearsonRho exact rates powers ∨
      ¬(Varies rates ∧ Varies powers) ∧ 0 ≤ analyzer.maxPowerMw ∧ analyzer.minRho ≤ 0)

theorem verdicts_agree_iff (documented : np.Documented) (same : rates.length = powers.length) {maxPower : ℝ}
    (greatest : powers.max? = some maxPower) :
    (passed analyzer maxPower (np.corrcoef rates powers) = !anomalous analyzer rates powers) ↔
      ¬Disputed analyzer rates powers := by
  have nonempty : rates ≠ [] := by
    rintro rfl
    obtain rfl := List.eq_nil_of_length_eq_zero same.symm
    cases greatest
  have script := @passed_iff np analyzer rates powers documented same maxPower greatest
  clear documented
  have correlator := @anomalous_eq_false_iff analyzer rates powers same nonempty
  rw [Bool.eq_iff_iff, Bool.not_eq_true', script, correlator, Disputed]
  by_cases varies : Varies rates ∧ Varies powers
  · rw [← not_le]
    tauto
  · rw [pearson_of_constant same varies]
    tauto

/-! ## The runs of the script -/

section Runs

variable (documented : np.Documented) (draws : Draws numSamples)
include documented

theorem length_networkRate : (networkRate np draws).length = numSamples := by
  rw [networkRate, List.length_zipWith, documented.length_linspace, draws.length_networkNoise, Nat.min_self]

theorem length_powerTraceNormal : (powerTraceNormal np draws).length = numSamples := by
  rw [powerTraceNormal, List.length_zipWith, length_networkRate documented, draws.length_powerNoise, Nat.min_self]

/-- The traces of the two cases are the same in a run of 200 samples or fewer: the window of the spike lies
behind them, and the status of the second case is printed all the same. -/
theorem powerTraceAnomaly_eq_iff : powerTraceAnomaly np draws = powerTraceNormal np draws ↔ numSamples ≤ 200 := by
  have length := length_powerTraceNormal documented draws
  constructor
  · intro same
    by_contra long
    have inside : 200 < (powerTraceNormal np draws).length := by omega
    have spike := congrArg (·[200]?) same
    simp only [powerTraceAnomaly, List.getElem?_mapIdx, List.getElem?_eq_getElem inside, Option.map_some,
      Option.some.injEq] at spike
    norm_num at spike
  · intro short
    apply List.ext_getElem?
    intro i
    rw [powerTraceAnomaly, List.getElem?_mapIdx]
    by_cases inside : i < (powerTraceNormal np draws).length
    · rw [List.getElem?_eq_getElem inside, Option.map_some, if_neg (by omega)]
    · rw [List.getElem?_eq_none (by omega), Option.map_none]

theorem analyzeTraces_isSome (analyzer : SideChannelAnalyzer) (some_sample : 0 < numSamples) :
    (analyzeTraces np analyzer draws).isSome := by
  have normal : powerTraceNormal np draws ≠ [] := by
    rwa [← List.length_pos_iff, length_powerTraceNormal documented]
  have anomaly : powerTraceAnomaly np draws ≠ [] := by
    rwa [← List.length_pos_iff, powerTraceAnomaly, List.length_mapIdx, length_powerTraceNormal documented]
  obtain ⟨maxPNorm, found⟩ := Option.isSome_iff_exists.mp (List.isSome_max?_iff.mpr normal)
  obtain ⟨maxPAnom, found'⟩ := Option.isSome_iff_exists.mp (List.isSome_max?_iff.mpr anomaly)
  simp [analyzeTraces, documented.amax, found, found']

end Runs

/-- The first case of a run passes exactly if the correlator finds no anomaly in its traces, whatever is
drawn, but for disputed traces. -/
theorem analyzeTraces_agrees_iff (np : Numpy) (documented : np.Documented) (analyzer : SideChannelAnalyzer)
    (draws : Draws numSamples) (normal anomaly : Case)
    (analysis : analyzeTraces np analyzer draws = some (normal, anomaly)) :
    (normal.status = "[PASSED] Correlated" ↔
        anomalous analyzer (networkRate np draws) (powerTraceNormal np draws) = false) ↔
      ¬Disputed analyzer (networkRate np draws) (powerTraceNormal np draws) := by
  have same : (networkRate np draws).length = (powerTraceNormal np draws).length := by
    rw [length_networkRate documented, length_powerTraceNormal documented]
  obtain ⟨maxPNorm, greatest, analysis⟩ := Option.bind_eq_some_iff.mp analysis
  obtain ⟨maxPAnom, _, analysis⟩ := Option.bind_eq_some_iff.mp analysis
  obtain ⟨rfl, rfl⟩ := Prod.mk.inj (Option.some.inj analysis)
  rw [documented.amax] at greatest
  have status : (if passed analyzer maxPNorm (np.corrcoef (networkRate np draws) (powerTraceNormal np draws)) then
      "[PASSED] Correlated" else "[ANOMALY]") = "[PASSED] Correlated" ↔
      passed analyzer maxPNorm (np.corrcoef (networkRate np draws) (powerTraceNormal np draws)) = true := by
    split
    next holds => exact iff_of_true rfl holds
    next fails => exact iff_of_false (by decide) fails
  dsimp only
  rw [status, ← verdicts_agree_iff documented same greatest, ← Bool.not_eq_true', ← Bool.eq_iff_iff]

theorem analyzeTraces_agrees_iff_one_sample : ∃ draws : Draws 1, ∃ normal anomaly,
    analyzeTraces Numpy.exactly {} draws = some (normal, anomaly) ∧
      ((normal.status = "[PASSED] Correlated" ↔
          anomalous {} (networkRate Numpy.exactly draws) (powerTraceNormal Numpy.exactly draws) = false) ↔
        ¬Disputed {} (networkRate Numpy.exactly draws) (powerTraceNormal Numpy.exactly draws)) := by
  obtain ⟨⟨normal, anomaly⟩, analysis⟩ := Option.isSome_iff_exists.mp
    (analyzeTraces_isSome Numpy.exactly_documented (⟨[0], [0], rfl, rfl⟩ : Draws 1) {} Nat.one_pos)
  exact ⟨_, normal, anomaly, analysis,
    analyzeTraces_agrees_iff Numpy.exactly Numpy.exactly_documented {} _ normal anomaly analysis⟩

end SentinelLab.SideChannelHarness
