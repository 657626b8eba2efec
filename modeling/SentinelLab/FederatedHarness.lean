import SentinelLab.KrumSymmetry
import SentinelLab.Numpy

/-! `FederatedPoisonEvaluator`, the script next to `FederatedEvaluator`: it draws the updates of the
nodes around one gradient and compares the mean of the updates with the one that Krum selects. The
draws and numpy are parameters, the numbers exact. -/

namespace SentinelLab.FederatedHarness
open FederatedEvaluator Krum Library.FloatingPoint Library.Ranges Library.Norms Library.Deviation

/-! ## The script -/

structure FederatedPoisonEvaluator where
  numTotalNodes : Int := 5
  numByzantine : Int := 1
  maxPasr : ℝ := (2 : Nat)
  strategy : String := "SIGN_FLIP_GRADIENT"

/-- What the generator yields: the baseline, and the noise of each update. -/
structure Draws (weightDim : Nat) where
  benignGrad : List ℝ
  noise : Nat → List ℝ
  attackNoise : Nat → List ℝ
  length_benignGrad : benignGrad.length = weightDim
  length_noise : ∀ i, (noise i).length = weightDim
  length_attackNoise : ∀ i, (attackNoise i).length = weightDim

variable {weightDim : Nat}

noncomputable def benignUpdate (draws : Draws weightDim) (i : Nat) : List ℝ :=
  List.zipWith (· + ·) draws.benignGrad (draws.noise i)

noncomputable def poisonedUpdate (evaluator : FederatedPoisonEvaluator) (draws : Draws weightDim) (i : Nat) : List ℝ :=
  if evaluator.strategy = "SIGN_FLIP_GRADIENT" then
    List.zipWith (· + ·) (draws.benignGrad.map (-(10 : Nat) * ·)) (draws.attackNoise i)
  else draws.attackNoise i

noncomputable def clientGradients (evaluator : FederatedPoisonEvaluator) (draws : Draws weightDim) : List (List ℝ) :=
  (List.range (evaluator.numTotalNodes - evaluator.numByzantine).toNat).map (benignUpdate draws) ++
    (List.range evaluator.numByzantine.toNat).map (poisonedUpdate evaluator draws)

def isByzantine (evaluator : FederatedPoisonEvaluator) : List Bool :=
  List.replicate (evaluator.numTotalNodes - evaluator.numByzantine).toNat false ++
    List.replicate evaluator.numByzantine.toNat true

noncomputable def distortion (np : Numpy) (after before : List ℝ) : ℝ := np.norm (difference after before)

noncomputable def krumScoreOf (np : Numpy) (evaluator : FederatedPoisonEvaluator) (gradients : List (List ℝ))
    (i : Nat) : ℝ :=
  let dists := ((List.range evaluator.numTotalNodes.toNat).filter fun j => i ≠ j).map fun j =>
    distortion np (gradients.getD i []) (gradients.getD j [])
  let neighborsCount := max 1 (evaluator.numTotalNodes - evaluator.numByzantine - 2)
  ((dists.mergeSort fun first second => first ≤ second).take neighborsCount.toNat).sum

structure Evaluation where
  fedAvgDist : ℝ
  krumBestIdx : Nat
  krumIsPoisoned : Bool
  krumDist : ℝ

noncomputable def runFederatedEvaluation (np : Numpy) (evaluator : FederatedPoisonEvaluator) (draws : Draws weightDim) :
    Option Evaluation :=
  let gradients := clientGradients evaluator draws
  let krumScores := (List.range evaluator.numTotalNodes.toNat).map (krumScoreOf np evaluator gradients)
  (np.argmin krumScores).map fun krumBestIdx =>
    { fedAvgDist := distortion np (np.meanRows gradients) draws.benignGrad
      krumBestIdx
      krumIsPoisoned := (isByzantine evaluator).getD krumBestIdx false
      krumDist := distortion np (gradients.getD krumBestIdx []) draws.benignGrad }

/-! ## The distances -/

theorem squares_difference (after before : List ℝ) :
    ((after.zip before).map fun (a, b) => (a - b) ^ 2).sum = sumSq (difference after before) := by
  induction after generalizing before with
  | nil => rfl
  | cons a after ih =>
    cases before with
    | nil => rfl
    | cons b before =>
      rw [List.zip_cons_cons, List.map_cons, List.sum_cons, ih, difference_cons, sumSq_cons]

theorem distortion_eq_distance {np : Numpy} (documented : np.Documented) {after before : List ℝ}
    (same : after.length = before.length) : distortion np after before = distance after before := by
  rw [distortion, documented.norm]
  unfold distance calculateEuclideanDistance
  by_cases empty : after = []
  · subst empty
    simp [difference, euclidNorm, sumSq]
  · rw [if_neg (by simp [empty, same]), foldl_squares, zero_add, squares_difference]
    rfl

theorem length_benignUpdate (draws : Draws weightDim) (i : Nat) : (benignUpdate draws i).length = weightDim := by
  rw [benignUpdate, List.length_zipWith, draws.length_benignGrad, draws.length_noise, Nat.min_self]

theorem length_poisonedUpdate (evaluator : FederatedPoisonEvaluator) (draws : Draws weightDim) (i : Nat) :
    (poisonedUpdate evaluator draws i).length = weightDim := by
  unfold poisonedUpdate
  split
  · rw [List.length_zipWith, List.length_map, draws.length_benignGrad, draws.length_attackNoise, Nat.min_self]
  · exact draws.length_attackNoise i

theorem dimension (evaluator : FederatedPoisonEvaluator) (draws : Draws weightDim) :
    ∀ gradient ∈ clientGradients evaluator draws, gradient.length = weightDim := by
  intro gradient member
  rcases List.mem_append.mp member with benign | poisoned
  · obtain ⟨i, -, rfl⟩ := List.mem_map.mp benign
    exact length_benignUpdate draws i
  · obtain ⟨i, -, rfl⟩ := List.mem_map.mp poisoned
    exact length_poisonedUpdate evaluator draws i

/-! ## The selection -/

/-- A configuration with `n` nodes, `k` of them compromised. -/
structure Sized (evaluator : FederatedPoisonEvaluator) (n k : Nat) : Prop where
  total : evaluator.numTotalNodes = n
  byzantine : evaluator.numByzantine = k
  few : k ≤ n

section Selection

variable {np : Numpy} {evaluator : FederatedPoisonEvaluator} {draws : Draws weightDim} {n k : Nat}

theorem Sized.honest (sized : Sized evaluator n k) :
    (evaluator.numTotalNodes - evaluator.numByzantine).toNat = n - k := by
  rw [sized.total, sized.byzantine]
  omega

theorem length_clientGradients (sized : Sized evaluator n k) : (clientGradients evaluator draws).length = n := by
  have few := sized.few
  rw [clientGradients, List.length_append, List.length_map, List.length_map, List.length_range, List.length_range,
    sized.honest, sized.byzantine, Int.toNat_natCast]
  omega

theorem length_isByzantine (sized : Sized evaluator n k) : (isByzantine evaluator).length = n := by
  have few := sized.few
  rw [isByzantine, List.length_append, List.length_replicate, List.length_replicate, sized.honest, sized.byzantine,
    Int.toNat_natCast]
  omega

theorem count_isByzantine (sized : Sized evaluator n k) : (isByzantine evaluator).count true = k := by
  rw [isByzantine, List.count_append, List.count_replicate_self, List.count_replicate, sized.byzantine]
  simp

theorem length_gradient (sized : Sized evaluator n k) {i : Nat} (inside : i < n) :
    ((clientGradients evaluator draws).getD i []).length = weightDim := by
  have bound : i < (clientGradients evaluator draws).length := (length_clientGradients sized).symm ▸ inside
  rw [List.getD_eq_getElem _ _ bound]
  exact dimension evaluator draws _ (List.getElem_mem bound)

theorem neighbors_eq (sized : Sized evaluator n k) :
    (max 1 (evaluator.numTotalNodes - evaluator.numByzantine - 2)).toNat = neighborsCount n k := by
  rw [sized.total, sized.byzantine, neighborsCount]
  split <;> omega

theorem krumScoreOf_eq (documented : np.Documented) (sized : Sized evaluator n k) {i : Nat} (inside : i < n) :
    krumScoreOf np evaluator (clientGradients evaluator draws) i =
      (nearest (clientGradients evaluator draws) n k i).sum := by
  unfold krumScoreOf nearest dists
  dsimp only
  rw [neighbors_eq sized, sized.total, Int.toNat_natCast]
  congr 3
  apply List.map_congr_left
  intro j member
  have other : j < n := List.mem_range.mp (List.mem_of_mem_filter member)
  rw [distortion_eq_distance documented (by rw [length_gradient sized inside, length_gradient sized other])]

theorem length_columnMeans (gradients : List (List ℝ)) (draws : Draws weightDim) :
    (columnMeans weightDim gradients).length = draws.benignGrad.length := by
  rw [columnMeans, List.length_map, List.length_range, draws.length_benignGrad]

theorem run_eq_some (documented : np.Documented) (draws : Draws weightDim) (sized : Sized evaluator n k)
    (several : 2 ≤ n) :
    ∃ evaluation, runFederatedEvaluation np evaluator draws = some evaluation ∧
      selectBest exact (clientGradients evaluator draws) n k = some evaluation.krumBestIdx ∧
      evaluation.krumBestIdx < n ∧
      (∀ i < n, (nearest (clientGradients evaluator draws) n k evaluation.krumBestIdx).sum ≤
        (nearest (clientGradients evaluator draws) n k i).sum) ∧
      evaluation.krumIsPoisoned = (isByzantine evaluator).getD evaluation.krumBestIdx false ∧
      evaluation.krumDist =
        distance ((clientGradients evaluator draws).getD evaluation.krumBestIdx []) draws.benignGrad ∧
      evaluation.fedAvgDist =
        distance (columnMeans weightDim (clientGradients evaluator draws)) draws.benignGrad := by
  have few : neighborsCount n k ≤ n - 1 := by
    unfold neighborsCount
    split <;> omega
  have scores : (List.range evaluator.numTotalNodes.toNat).map
      (krumScoreOf np evaluator (clientGradients evaluator draws)) =
        (List.range n).map fun i => (nearest (clientGradients evaluator draws) n k i).sum := by
    rw [sized.total, Int.toNat_natCast]
    apply List.map_congr_left
    intro i member
    exact krumScoreOf_eq documented sized (List.mem_range.mp member)
  have some_score : (List.range n).map (fun i => (nearest (clientGradients evaluator draws) n k i).sum) ≠ [] := by
    simp only [ne_eq, List.map_eq_nil_iff, List.range_eq_nil]
    omega
  obtain ⟨bestIdx, inside, selected, least⟩ := selectBest_spec (clientGradients evaluator draws) k
    (show 0 < n by omega) few
  have same : bestIdx = minElement
      ((List.range n).map fun i => (nearest (clientGradients evaluator draws) n k i).sum) := by
    have all : (List.range n).mapM (krumScore exact (clientGradients evaluator draws) n k) =
        some ((List.range n).map fun i => (nearest (clientGradients evaluator draws) n k i).sum) :=
      mapM_eq_map fun i member => krumScore_eq (List.mem_range.mp member) few
    rw [selectBest, all, Option.map_some] at selected
    exact (Option.some.inj selected).symm
  have some_gradient : clientGradients evaluator draws ≠ [] := by
    rw [← List.length_pos_iff, length_clientGradients sized]
    omega
  unfold runFederatedEvaluation
  simp only [scores, documented.argmin_eq some_score, ← same, Option.map_some]
  refine ⟨_, rfl, selected, inside, least, rfl, ?_, ?_⟩
  · exact distortion_eq_distance documented (by rw [length_gradient sized inside, draws.length_benignGrad])
  · dsimp only
    rw [documented.meanRows weightDim _ some_gradient (dimension evaluator draws)]
    exact distortion_eq_distance documented (length_columnMeans _ draws)

end Selection

/-! ## The same verdict -/

/-- The script and the evaluator pass the same verdict on what the script drew. -/
theorem harness_agrees_with_evaluator (np : Numpy) (documented : np.Documented) (evaluator : FederatedPoisonEvaluator)
    (config : FederatedConfig ℝ) (draws : Draws weightDim) (n k : Nat) (sized : Sized evaluator n k) (several : 2 ≤ n)
    (fits : n < 2 ^ 32) (some_weight : 0 < weightDim) :
    ∃ evaluation m, runFederatedEvaluation np evaluator draws = some evaluation ∧
      evaluateAggregationRobustness exact config (clientGradients evaluator draws) draws.benignGrad
        (isByzantine evaluator) = some m ∧
      selectBest exact (clientGradients evaluator draws) n k = some evaluation.krumBestIdx ∧
      m.gradientCosineDistance = evaluation.krumDist ∧
      m.poisoningAttackSuccessRate = (if evaluation.krumIsPoisoned then 100 else 0) ∧
      (0 ≤ config.maxPasrPct → m.byzantineDefenseSuccessful = !evaluation.krumIsPoisoned) := by
  obtain ⟨evaluation, ran, selected, -, -, poisoned, distance_eq, -⟩ := run_eq_some documented draws sized several
  have nodes : KrumInputs.totalNodes (clientGradients evaluator draws) = n := by
    rw [KrumSymmetry.totalNodes_of_fits (by rwa [length_clientGradients sized]), length_clientGradients sized]
  have byzantine : KrumInputs.byzantineNodes (isByzantine evaluator) = k := by
    have few := sized.few
    rw [KrumInputs.byzantineNodes, countByzantine_eq, count_isByzantine sized, BitVec.toNat_ofNat,
      Nat.mod_eq_of_lt (by omega)]
  have nonempty : draws.benignGrad ≠ [] := by
    rw [← List.length_pos_iff, draws.length_benignGrad]
    exact some_weight
  have some_nodes : KrumInputs.totalNodes (clientGradients evaluator draws) ≠ 0 := by omega
  have chosen : selectBest exact (clientGradients evaluator draws)
      (KrumInputs.totalNodes (clientGradients evaluator draws))
      (KrumInputs.byzantineNodes (isByzantine evaluator)) = some evaluation.krumBestIdx := by
    rw [nodes, byzantine, selected]
  obtain ⟨m, evaluated, distance_m, rate, successful⟩ :=
    KrumSymmetry.evaluate_of_selected config some_nodes nonempty chosen
  rw [← poisoned] at rate successful
  refine ⟨evaluation, m, ran, evaluated, selected, ?_, ?_, ?_⟩
  · rw [distance_m, distance_eq]
  · rw [rate]
    norm_num
  · intro nonneg
    rw [successful, rate]
    cases evaluation.krumIsPoisoned with
    | true => rfl
    | false => simpa using nonneg

/-! ## Updates as vectors -/

section Vectors

variable {v w : List ℝ}

theorem toVector_apply (w : List ℝ) (index : Fin weightDim) : toVector weightDim w index = w.getD index 0 := rfl

theorem toVector_add (first : v.length = weightDim) (second : w.length = weightDim) :
    toVector weightDim (List.zipWith (· + ·) v w) = toVector weightDim v + toVector weightDim w := by
  ext index
  have inside := index.isLt
  rw [PiLp.add_apply, toVector_apply, toVector_apply, toVector_apply]
  simp [first, second]

theorem toVector_scale (factor : ℝ) (w : List ℝ) :
    toVector weightDim (w.map (factor * ·)) = factor • toVector weightDim w := by
  ext index
  rw [PiLp.smul_apply, toVector_apply, toVector_apply, smul_eq_mul]
  by_cases inside : index.val < w.length
  · simp [inside]
  · rw [List.getD_eq_default _ _ (not_lt.mp inside), List.getD_eq_default _ _ (by simpa using inside), mul_zero]

theorem euclidNorm_eq (length : w.length = weightDim) : euclidNorm w = ‖toVector weightDim w‖ := by
  subst length
  rw [EuclideanSpace.norm_eq, euclidNorm, sumSq, ← List.sum_ofFn]
  congr 2
  apply List.ext_getElem
  · simp
  · intro index bound bound'
    simp [toVector, Real.norm_eq_abs, sq_abs]

theorem toVector_sum (gradients : List (List ℝ)) (index : Fin weightDim) :
    (gradients.map (toVector weightDim)).sum index = (gradients.map fun gradient => gradient.getD index 0).sum := by
  induction gradients with
  | nil => rfl
  | cons gradient gradients ih =>
    rw [List.map_cons, List.sum_cons, PiLp.add_apply, ih, toVector_apply, List.map_cons, List.sum_cons]

theorem toVector_columnMeans (gradients : List (List ℝ)) :
    toVector weightDim (columnMeans weightDim gradients) =
      (gradients.length : ℝ)⁻¹ • (gradients.map (toVector weightDim)).sum := by
  ext index
  have inside := index.isLt
  rw [PiLp.smul_apply, toVector_sum, toVector_apply, smul_eq_mul, inv_mul_eq_div]
  simp [columnMeans, mean]

end Vectors

section Attack

variable {evaluator : FederatedPoisonEvaluator} {draws : Draws weightDim} {n k i j : Nat} {r s : ℝ}

theorem unflagged_iff (sized : Sized evaluator n k) : Unflagged (isByzantine evaluator) i ↔ i < n - k := by
  have few := sized.few
  unfold Unflagged isByzantine
  rw [sized.honest, sized.byzantine, Int.toNat_natCast]
  by_cases honest : i < n - k
  · rw [List.getElem?_append_left (by simpa using honest), List.getElem?_replicate]
    simp [honest]
  · rw [List.getElem?_append_right (by simpa using honest), List.length_replicate, List.getElem?_replicate]
    simp [honest]

theorem benign_at (sized : Sized evaluator n k) (honest : i < n - k) :
    toVector weightDim ((clientGradients evaluator draws).getD i []) =
      toVector weightDim draws.benignGrad + toVector weightDim (draws.noise i) := by
  have update : (clientGradients evaluator draws).getD i [] = benignUpdate draws i := by
    rw [clientGradients, sized.honest, List.getD_append _ _ _ _ (by simpa using honest)]
    simp [honest]
  rw [update, benignUpdate, toVector_add draws.length_benignGrad (draws.length_noise i)]

theorem toVector_poisonedUpdate (flip : evaluator.strategy = "SIGN_FLIP_GRADIENT") (i : Nat) :
    toVector weightDim (poisonedUpdate evaluator draws i) =
      -((10 : Nat) : ℝ) • toVector weightDim draws.benignGrad + toVector weightDim (draws.attackNoise i) := by
  rw [poisonedUpdate, if_pos flip, toVector_add (by rw [List.length_map, draws.length_benignGrad])
    (draws.length_attackNoise i), toVector_scale]

theorem poisoned_at (sized : Sized evaluator n k) (flip : evaluator.strategy = "SIGN_FLIP_GRADIENT")
    (inside : i < n) (byz : ¬i < n - k) :
    toVector weightDim ((clientGradients evaluator draws).getD i []) =
      -((10 : Nat) : ℝ) • toVector weightDim draws.benignGrad + toVector weightDim (draws.attackNoise (i - (n - k))) := by
  have few := sized.few
  have position : i - (n - k) < k := by omega
  have update : (clientGradients evaluator draws).getD i [] = poisonedUpdate evaluator draws (i - (n - k)) := by
    rw [clientGradients, sized.honest, sized.byzantine, Int.toNat_natCast,
      List.getD_append_right _ _ _ _ (by simpa using not_lt.mp byz)]
    simp [position]
  rw [update, toVector_poisonedUpdate flip]

/-- The noise of the honest nodes is at most `r` long, and that of the attack at most `s`. -/
structure NoiseWithin (draws : Draws weightDim) (n k : Nat) (r s : ℝ) : Prop where
  honest : ∀ i < n - k, euclidNorm (draws.noise i) ≤ r
  attack : ∀ i < k, euclidNorm (draws.attackNoise i) ≤ s

theorem NoiseWithin.norm_honest (within : NoiseWithin draws n k r s) (honest : i < n - k) :
    ‖toVector weightDim (draws.noise i)‖ ≤ r := by
  rw [← euclidNorm_eq (draws.length_noise i)]
  exact within.honest i honest

theorem NoiseWithin.norm_attack (within : NoiseWithin draws n k r s) (inside : i < k) :
    ‖toVector weightDim (draws.attackNoise i)‖ ≤ s := by
  rw [← euclidNorm_eq (draws.length_attackNoise i)]
  exact within.attack i inside

theorem honest_close (sized : Sized evaluator n k) (within : NoiseWithin draws n k r s) (first : i < n - k)
    (second : j < n - k) :
    distance ((clientGradients evaluator draws).getD i []) ((clientGradients evaluator draws).getD j []) ≤ 2 * r := by
  rw [distance_eq_dist (length_gradient sized (by omega)) (length_gradient sized (by omega)), benign_at sized first,
    benign_at sized second, dist_add_left, dist_eq_norm]
  calc _ ≤ ‖toVector weightDim (draws.noise i)‖ + ‖toVector weightDim (draws.noise j)‖ := norm_sub_le _ _
    _ ≤ 2 * r := by linarith [within.norm_honest first, within.norm_honest second]

theorem poisoned_far (sized : Sized evaluator n k) (flip : evaluator.strategy = "SIGN_FLIP_GRADIENT")
    (within : NoiseWithin draws n k r s) (inside : i < n) (byz : ¬i < n - k) (honest : j < n - k) :
    11 * euclidNorm draws.benignGrad - s - r ≤
      distance ((clientGradients evaluator draws).getD i []) ((clientGradients evaluator draws).getD j []) := by
  have few := sized.few
  rw [distance_eq_dist (length_gradient sized inside) (length_gradient sized (by omega)),
    poisoned_at sized flip inside byz, benign_at sized honest, dist_eq_norm, euclidNorm_eq draws.length_benignGrad]
  set b := toVector weightDim draws.benignGrad
  set attack := toVector weightDim (draws.attackNoise (i - (n - k)))
  set noise := toVector weightDim (draws.noise j)
  have split : (11 : ℝ) • b = (attack - noise) - (-((10 : Nat) : ℝ) • b + attack - (b + noise)) := by
    push_cast
    module
  have length : 11 * ‖b‖ = ‖(11 : ℝ) • b‖ := by
    rw [norm_smul]
    norm_num
  have apart : 11 * ‖b‖ ≤ ‖attack - noise‖ + ‖-((10 : Nat) : ℝ) • b + attack - (b + noise)‖ := by
    rw [length, split]
    exact norm_sub_le _ _
  have noises : ‖attack - noise‖ ≤ s + r :=
    (norm_sub_le _ _).trans (add_le_add (within.norm_attack (by omega)) (within.norm_honest honest))
  linarith

/-! ## Krum against the mean -/

theorem norm_sum_range_le {update : Nat → EuclideanSpace ℝ (Fin weightDim)} {count : Nat} {bound : ℝ}
    (small : ∀ i < count, ‖update i‖ ≤ bound) : ‖((List.range count).map update).sum‖ ≤ count * bound := by
  induction count with
  | zero => simp
  | succ count ih =>
    have before := ih fun i inside => small i (Nat.lt_succ_of_lt inside)
    have last := small count (Nat.lt_succ_self count)
    rw [List.range_succ, List.map_append, List.sum_append, List.map_singleton, List.sum_singleton]
    calc _ ≤ ‖((List.range count).map update).sum‖ + ‖update count‖ := norm_add_le _ _
      _ ≤ count * bound + bound := add_le_add before last
      _ = _ := by push_cast; ring

theorem sum_around (centre : EuclideanSpace ℝ (Fin weightDim)) (update : Nat → EuclideanSpace ℝ (Fin weightDim))
    (count : Nat) : ((List.range count).map fun i => centre + update i).sum =
      (count : ℝ) • centre + ((List.range count).map update).sum := by
  rw [List.sum_map_add, List.map_const', List.sum_replicate, List.length_range, Nat.cast_smul_eq_nsmul]

noncomputable def totalNoise (draws : Draws weightDim) (n k : Nat) : EuclideanSpace ℝ (Fin weightDim) :=
  ((List.range (n - k)).map fun i => toVector weightDim (draws.noise i)).sum +
    ((List.range k).map fun i => toVector weightDim (draws.attackNoise i)).sum

theorem sum_updates (sized : Sized evaluator n k) (flip : evaluator.strategy = "SIGN_FLIP_GRADIENT") :
    ((clientGradients evaluator draws).map (toVector weightDim)).sum =
      (n : ℝ) • toVector weightDim draws.benignGrad +
        (totalNoise draws n k - (11 * k : ℝ) • toVector weightDim draws.benignGrad) := by
  have honest : (toVector weightDim) ∘ (benignUpdate draws) = fun i =>
      toVector weightDim draws.benignGrad + toVector weightDim (draws.noise i) := by
    funext i
    exact toVector_add draws.length_benignGrad (draws.length_noise i)
  have attack : (toVector weightDim) ∘ (poisonedUpdate evaluator draws) = fun i =>
      -((10 : Nat) : ℝ) • toVector weightDim draws.benignGrad + toVector weightDim (draws.attackNoise i) := by
    funext i
    exact toVector_poisonedUpdate flip i
  rw [clientGradients, sized.honest, sized.byzantine, Int.toNat_natCast, List.map_append, List.sum_append,
    List.map_map, List.map_map, honest, attack, sum_around, sum_around, totalNoise, Nat.cast_sub sized.few]
  push_cast
  module

theorem NoiseWithin.norm_totalNoise (within : NoiseWithin draws n k r s) (few : k ≤ n) :
    ‖totalNoise draws n k‖ ≤ (n - k) * r + k * s := by
  have honest := norm_sum_range_le fun i inside => within.norm_honest inside
  have attack := norm_sum_range_le fun i inside => within.norm_attack inside
  rw [Nat.cast_sub few] at honest
  exact (norm_add_le _ _).trans (add_le_add honest attack)

/-- The mean is off by eleven times the share of the compromised nodes, up to the noise. -/
theorem fedAvg_distorted (sized : Sized evaluator n k) (flip : evaluator.strategy = "SIGN_FLIP_GRADIENT")
    (within : NoiseWithin draws n k r s) (some_node : 0 < n) :
    (11 * k * euclidNorm draws.benignGrad - (n - k) * r - k * s) / n ≤
      distance (columnMeans weightDim (clientGradients evaluator draws)) draws.benignGrad := by
  have positive : (0 : ℝ) < n := Nat.cast_pos.mpr some_node
  have width := length_columnMeans (clientGradients evaluator draws) draws
  have shift : toVector weightDim (columnMeans weightDim (clientGradients evaluator draws)) -
      toVector weightDim draws.benignGrad =
        (n : ℝ)⁻¹ • (totalNoise draws n k - (11 * k : ℝ) • toVector weightDim draws.benignGrad) := by
    rw [toVector_columnMeans, length_clientGradients sized, sum_updates sized flip, smul_add, smul_smul,
      inv_mul_cancel₀ positive.ne', one_smul, add_sub_cancel_left]
  rw [distance_eq_dist (width.trans draws.length_benignGrad) draws.length_benignGrad,
    dist_eq_norm, shift, norm_smul, norm_inv, Real.norm_natCast, div_eq_inv_mul, euclidNorm_eq draws.length_benignGrad]
  apply mul_le_mul_of_nonneg_left _ (inv_nonneg.mpr positive.le)
  have apart := norm_sub_norm_le ((11 * k : ℝ) • toVector weightDim draws.benignGrad) (totalNoise draws n k)
  have length : ‖(11 * k : ℝ) • toVector weightDim draws.benignGrad‖ =
      11 * k * ‖toVector weightDim draws.benignGrad‖ := by
    rw [norm_smul, Real.norm_of_nonneg (by positivity)]
  rw [norm_sub_rev, length] at apart
  linarith [within.norm_totalNoise sized.few]

/-- A compromised update is so far from all honest ones that its score is not the least. -/
theorem least_is_honest (sized : Sized evaluator n k) (flip : evaluator.strategy = "SIGN_FLIP_GRADIENT")
    (within : NoiseWithin draws n k r s) (enough : 2 * k + 3 ≤ n)
    (dominates : (n - k - 2) * (2 * r) < (n - 2 * k - 1) * (11 * euclidNorm draws.benignGrad - s - r)) (inside : i < n)
    (least : ∀ j < n, (nearest (clientGradients evaluator draws) n k i).sum ≤
      (nearest (clientGradients evaluator draws) n k j).sum) : i < n - k := by
  by_contra byz
  have flags := length_isByzantine sized
  have count := count_isByzantine sized
  have flagged : ¬Unflagged (isByzantine evaluator) i := fun clean => byz ((unflagged_iff sized).mp clean)
  have close (i j : Nat) (first : Unflagged (isByzantine evaluator) i) (second : Unflagged (isByzantine evaluator) j) :
      distance ((clientGradients evaluator draws).getD i []) ((clientGradients evaluator draws).getD j []) ≤ 2 * r :=
    honest_close sized within ((unflagged_iff sized).mp first) ((unflagged_iff sized).mp second)
  obtain ⟨j, clean, near⟩ : ∃ j, Unflagged (isByzantine evaluator) j ∧
      ((n - 2 * k - 1 : Nat) : ℝ) *
          distance ((clientGradients evaluator draws).getD i []) ((clientGradients evaluator draws).getD j []) ≤
        (nearest (clientGradients evaluator draws) n k i).sum := by
    rw [← count]
    exact exists_near flags (by rwa [count]) inside flagged
  have honest := (unflagged_iff sized).mp clean
  have low : (nearest (clientGradients evaluator draws) n k j).sum ≤ ((n - k - 2 : Nat) : ℝ) * (2 * r) := by
    have score := score_le flags close (by rwa [count]) clean
    rwa [count] at score
  have far := poisoned_far sized flip within inside byz honest
  have apart : ((n - 2 * k - 1 : Nat) : ℝ) * (11 * euclidNorm draws.benignGrad - s - r) ≤
      ((n - k - 2 : Nat) : ℝ) * (2 * r) :=
    calc _ ≤ _ := mul_le_mul_of_nonneg_left far (Nat.cast_nonneg _)
      _ ≤ _ := near
      _ ≤ _ := least j (by omega)
      _ ≤ _ := low
  rw [Nat.sub_sub, Nat.sub_sub, Nat.cast_sub (by omega), Nat.cast_sub (by omega)] at apart
  push_cast at apart
  linarith

end Attack

/-- Under the sign-flipping attack, with enough honest nodes and noise that is small against the
baseline, the script's Krum selects an honest update, no further from the baseline than its noise,
while the mean is off by the share of the compromised nodes. -/
theorem krum_neutralizes_sign_flip (np : Numpy) (documented : np.Documented) (evaluator : FederatedPoisonEvaluator)
    (draws : Draws weightDim) (n k : Nat) (r s : ℝ) (sized : Sized evaluator n k)
    (flip : evaluator.strategy = "SIGN_FLIP_GRADIENT") (within : NoiseWithin draws n k r s) (enough : 2 * k + 3 ≤ n)
    (dominates : (n - k - 2) * (2 * r) < (n - 2 * k - 1) * (11 * euclidNorm draws.benignGrad - s - r)) :
    ∃ evaluation, runFederatedEvaluation np evaluator draws = some evaluation ∧ evaluation.krumIsPoisoned = false ∧
      evaluation.krumDist ≤ r ∧
      (11 * k * euclidNorm draws.benignGrad - (n - k) * r - k * s) / n ≤ evaluation.fedAvgDist := by
  obtain ⟨evaluation, ran, -, inside, least, poisoned, distance_eq, mean⟩ :=
    run_eq_some documented draws sized (by omega)
  have honest := least_is_honest sized flip within enough dominates inside least
  refine ⟨evaluation, ran, ?_, ?_, ?_⟩
  · have clean : (isByzantine evaluator)[evaluation.krumBestIdx]? = some false := (unflagged_iff sized).mpr honest
    rw [poisoned, List.getD_eq_getElem?_getD, clean]
    rfl
  · rw [distance_eq, distance_eq_dist (length_gradient sized inside) draws.length_benignGrad, benign_at sized honest,
      dist_self_add_left]
    exact within.norm_honest honest
  · rw [mean]
    exact fedAvg_distorted sized flip within (by omega)

/-! The defaults, with one noisy update and a noisy attack. -/

private noncomputable def noisy : Draws 1 := ⟨[1], fun i => if i = 0 then [1] else [0], fun _ => [1], rfl,
  fun i => by split <;> rfl, fun _ => rfl⟩

private theorem sized_default : Sized {} 5 1 := ⟨rfl, rfl, by decide⟩

private theorem norm_single (x : ℝ) : euclidNorm [x] = |x| := by
  rw [euclidNorm, sumSq, List.map_singleton, List.sum_singleton, Real.sqrt_sq_eq_abs]

private theorem noise_within : NoiseWithin noisy 5 1 1 1 := by
  constructor
  · intro i _
    unfold noisy
    dsimp only
    split <;> rw [norm_single] <;> norm_num
  · intro i _
    rw [noisy, norm_single, abs_one]

theorem krum_neutralizes_sign_flip_default :
    ∃ evaluation, runFederatedEvaluation Numpy.exactly {} noisy = some evaluation ∧ evaluation.krumIsPoisoned = false ∧
      evaluation.krumDist ≤ 1 ∧
      (11 * ((1 : Nat) : ℝ) * euclidNorm [1] - (((5 : Nat) : ℝ) - ((1 : Nat) : ℝ)) * 1 - ((1 : Nat) : ℝ) * 1) /
        ((5 : Nat) : ℝ) ≤ evaluation.fedAvgDist := by
  have unit : euclidNorm noisy.benignGrad = 1 := by rw [noisy, norm_single, abs_one]
  exact krum_neutralizes_sign_flip Numpy.exactly Numpy.exactly_documented {} noisy 5 1 1 1 sized_default rfl
    noise_within (by decide) (by rw [unit]; norm_num)

theorem harness_agrees_with_evaluator_default :
    ∃ evaluation m, runFederatedEvaluation Numpy.exactly {} noisy = some evaluation ∧
      evaluateAggregationRobustness exact {} (clientGradients {} noisy) noisy.benignGrad (isByzantine {}) = some m ∧
      m.byzantineDefenseSuccessful = !evaluation.krumIsPoisoned := by
  obtain ⟨evaluation, m, ran, evaluated, -, -, -, successful⟩ := harness_agrees_with_evaluator Numpy.exactly
    Numpy.exactly_documented {} {} noisy 5 1 sized_default (by decide) (by decide) (by decide)
  exact ⟨evaluation, m, ran, evaluated, successful (by norm_num)⟩

end SentinelLab.FederatedHarness
