import SentinelLab.KrumInputs
import SentinelLab.Library.OrderStatistics
import SentinelLab.Library.Reordering

/-! The selection of `evaluate_aggregation_robustness` follows the clients when they are listed in another order. -/

namespace SentinelLab.KrumSymmetry
open FederatedEvaluator KrumInputs Library.FloatingPoint Library.Ranges Library.OrderStatistics Library.Reordering

theorem totalNodes_of_fits {F : Type} {gradients : List (List F)} (fits : gradients.length < 2 ^ 32) :
    totalNodes gradients = gradients.length := by
  rw [totalNodes_eq, Nat.mod_eq_of_lt fits]

section
variable {F : Type} [Field F] [LinearOrder F] {n k : Nat} (libm : Libm F) (clientGradients : List (List F))

/-! ## Scores -/

omit [LinearOrder F] in
theorem dists_eq_finRange (i : Fin n) :
    dists libm clientGradients n i = ((List.finRange n).filter fun j => decide (i ≠ j)).map fun j : Fin n =>
      calculateEuclideanDistance libm (clientGradients.getD i []) (clientGradients.getD j []) := by
  unfold dists
  rw [← List.map_coe_finRange_eq_range, List.filter_map, List.map_map]
  congr 2
  funext j
  simp [Fin.ext_iff]

omit [LinearOrder F] in
theorem dists_reorder (σ : Equiv.Perm (Fin n)) (i : Fin n) :
    (dists libm (reorder σ clientGradients []) n i).Perm (dists libm clientGradients n (σ i)) := by
  have same : dists libm (reorder σ clientGradients []) n i =
      ((List.finRange n).filter fun j => decide (σ i ≠ σ j)).map fun j : Fin n =>
        calculateEuclideanDistance libm (clientGradients.getD (σ i) []) (clientGradients.getD (σ j) []) := by
    rw [dists_eq_finRange]
    simp only [getD_reorder, ne_eq, EmbeddingLike.apply_eq_iff_eq]
  rw [same, dists_eq_finRange]
  exact map_filter_perm σ (fun j => decide (σ i ≠ j)) fun j : Fin n =>
    calculateEuclideanDistance libm (clientGradients.getD (σ i) []) (clientGradients.getD j [])

theorem krumScore_reorder (σ : Equiv.Perm (Fin n)) (i : Fin n) :
    krumScore libm (reorder σ clientGradients []) n k i = krumScore libm clientGradients n k (σ i) := by
  unfold krumScore
  rw [mergeSort_eq_of_perm (dists_reorder libm clientGradients σ i)]

/-- One client has a lower score than every other. -/
def SingleWinner (n k : Nat) (winner : Fin n) : Prop :=
  ∃ least, krumScore libm clientGradients n k winner = some least ∧
    ∀ i : Fin n, i ≠ winner → ∃ score, krumScore libm clientGradients n k i = some score ∧ least < score

variable {libm clientGradients} {winner : Fin n}

theorem SingleWinner.reorder (single : SingleWinner libm clientGradients n k winner) (σ : Equiv.Perm (Fin n)) :
    SingleWinner libm (reorder σ clientGradients []) n k (σ.symm winner) := by
  obtain ⟨least, score, others⟩ := single
  refine ⟨least, ?_, ?_⟩
  · rw [krumScore_reorder, Equiv.apply_symm_apply, score]
  · intro i different
    rw [krumScore_reorder]
    exact others (σ i) fun same => different (by rw [← same, Equiv.symm_apply_apply])

theorem SingleWinner.selectBest (single : SingleWinner libm clientGradients n k winner) :
    selectBest libm clientGradients n k = some winner.val := by
  obtain ⟨least, score, others⟩ := single
  let total (i : Nat) : F := (krumScore libm clientGradients n k i).getD 0
  have scored : ∀ i ∈ List.range n, krumScore libm clientGradients n k i = some (total i) := by
    intro i member
    by_cases same : i = winner
    · simp only [total, same, score, Option.getD_some]
    · obtain ⟨other, found, _⟩ := others ⟨i, List.mem_range.mp member⟩ fun equal => same (congrArg Fin.val equal)
      simp only [total, found, Option.getD_some]
  have nonempty : (List.range n).map total ≠ [] := by
    simpa using (winner.pos).ne'
  obtain ⟨smallest, found, below⟩ := minElement_spec nonempty
  have position : minElement ((List.range n).map total) = winner := by
    obtain ⟨inside, value⟩ := List.getElem?_eq_some_iff.mp found
    rw [List.length_map, List.length_range] at inside
    rw [List.getElem_map, List.getElem_range] at value
    by_contra different
    obtain ⟨other, found', above⟩ := others ⟨_, inside⟩ fun equal => different (congrArg Fin.val equal)
    have reached : total winner ∈ (List.range n).map total :=
      List.mem_map.mpr ⟨winner, List.mem_range.mpr winner.isLt, rfl⟩
    have low := below _ reached
    simp only [← value, total, found', score, Option.getD_some] at low
    exact absurd above (not_lt.mpr low)
  unfold FederatedEvaluator.selectBest
  rw [mapM_eq_map scored, Option.pure_def, Option.map_some, position]

/-! ## The report -/

def SelectedFields (libm : Libm F) (config : FederatedConfig F) (trueBenignGradient gradient : List F)
    (bestIsByzantine : Bool) (m : FederatedMetrics F) : Prop :=
  m.gradientCosineDistance = calculateEuclideanDistance libm gradient trueBenignGradient ∧
    m.poisoningAttackSuccessRate = (if bestIsByzantine then ((100 : Nat) : F) else 0) ∧
    m.byzantineDefenseSuccessful = (!bestIsByzantine && decide (m.poisoningAttackSuccessRate ≤ config.maxPasrPct))

variable {isByzantineNode : List Bool} {trueBenignGradient : List F}

theorem evaluate_of_selected (config : FederatedConfig F) (some_nodes : totalNodes clientGradients ≠ 0)
    (nonempty : trueBenignGradient ≠ []) {bestIdx : Nat}
    (selected : FederatedEvaluator.selectBest libm clientGradients (totalNodes clientGradients)
      (byzantineNodes isByzantineNode) = some bestIdx) :
    ∃ m, evaluateAggregationRobustness libm config clientGradients trueBenignGradient isByzantineNode = some m ∧
      SelectedFields libm config trueBenignGradient (clientGradients.getD bestIdx [])
        (isByzantineNode.getD bestIdx false) m := by
  have valid : ¬(BitVec.ofNat 32 clientGradients.length = 0 ∨ trueBenignGradient.isEmpty = true) := by
    rw [not_or]
    constructor
    · intro zero
      rw [totalNodes, zero] at some_nodes
      exact some_nodes rfl
    · simpa using nonempty
  unfold totalNodes byzantineNodes at selected
  unfold evaluateAggregationRobustness
  dsimp only
  rw [if_neg valid, selected]
  exact ⟨_, rfl, rfl, rfl, rfl⟩

theorem byzantineNodes_perm {other : List Bool} (perm : other.Perm isByzantineNode) :
    byzantineNodes other = byzantineNodes isByzantineNode := by
  unfold byzantineNodes
  rw [Krum.countByzantine_eq, Krum.countByzantine_eq, perm.count_eq]

/-- What the selection is asked of two lists of the same clients. -/
structure SameSelection (libm : Libm F) (config : FederatedConfig F) (clientGradients : List (List F))
    (trueBenignGradient : List F) (isByzantineNode : List Bool) (winner : Fin clientGradients.length)
    (σ : Equiv.Perm (Fin clientGradients.length)) : Prop where
  before : FederatedEvaluator.selectBest libm clientGradients (totalNodes clientGradients)
    (byzantineNodes isByzantineNode) = some winner.val
  after : FederatedEvaluator.selectBest libm (reorder σ clientGradients [])
    (totalNodes (reorder σ clientGradients [])) (byzantineNodes (reorder σ isByzantineNode false)) =
      some (σ.symm winner).val
  fields : ∃ m m',
    evaluateAggregationRobustness libm config clientGradients trueBenignGradient isByzantineNode = some m ∧
    evaluateAggregationRobustness libm config (reorder σ clientGradients []) trueBenignGradient
      (reorder σ isByzantineNode false) = some m' ∧
    m'.gradientCosineDistance = m.gradientCosineDistance ∧
    m'.poisoningAttackSuccessRate = m.poisoningAttackSuccessRate ∧
    m'.byzantineDefenseSuccessful = m.byzantineDefenseSuccessful

/-- As long as the number of clients fits into `total_nodes`, a single winner is selected wherever it is listed,
and the report is the same. -/
theorem selection_follows_clients (libm : Libm F) (config : FederatedConfig F) (clientGradients : List (List F))
    (trueBenignGradient : List F) (isByzantineNode : List Bool) (nonempty : trueBenignGradient ≠ [])
    (flags : isByzantineNode.length = clientGradients.length) (fits : clientGradients.length < 2 ^ 32)
    (winner : Fin clientGradients.length)
    (single : SingleWinner libm clientGradients clientGradients.length (byzantineNodes isByzantineNode) winner)
    (σ : Equiv.Perm (Fin clientGradients.length)) :
    SameSelection libm config clientGradients trueBenignGradient isByzantineNode winner σ := by
  have counted : byzantineNodes (reorder σ isByzantineNode false) = byzantineNodes isByzantineNode :=
    byzantineNodes_perm (reorder_perm σ flags false)
  have nodes := totalNodes_of_fits fits
  have nodes' : totalNodes (reorder σ clientGradients []) = clientGradients.length := by
    rw [totalNodes_of_fits (by rwa [length_reorder]), length_reorder]
  have positive : clientGradients.length ≠ 0 := (winner.pos).ne'
  have before : FederatedEvaluator.selectBest libm clientGradients (totalNodes clientGradients)
      (byzantineNodes isByzantineNode) = some winner.val := by
    rw [nodes]
    exact single.selectBest
  have after : FederatedEvaluator.selectBest libm (reorder σ clientGradients [])
      (totalNodes (reorder σ clientGradients [])) (byzantineNodes (reorder σ isByzantineNode false)) =
        some (σ.symm winner).val := by
    rw [nodes', counted]
    exact (single.reorder σ).selectBest
  refine ⟨before, after, ?_⟩
  obtain ⟨m, evaluated, distance, rate, defense⟩ :=
    evaluate_of_selected config (by rwa [nodes]) nonempty before
  obtain ⟨m', evaluated', distance', rate', defense'⟩ :=
    evaluate_of_selected config (by rwa [nodes']) nonempty after
  rw [getD_reorder, Equiv.apply_symm_apply] at distance' rate' defense'
  have same_rate := rate'.trans rate.symm
  refine ⟨m, m', evaluated, evaluated', distance'.trans distance.symm, same_rate, ?_⟩
  rw [defense', defense, same_rate]

end

/-! ## Four clients in a row -/

theorem distance_single (a b : ℝ) : calculateEuclideanDistance exact [a] [b] = |a - b| := by
  simp [calculateEuclideanDistance, exact, Real.sqrt_mul_self_eq_abs]

theorem krumScore_of_sorted {clientGradients : List (List ℝ)} {n k i : Nat} {sorted : List ℝ}
    (perm : (dists exact clientGradients n i).Perm sorted) (ordered : sorted.Pairwise (· ≤ ·))
    (few : neighborsCount n k ≤ sorted.length) :
    krumScore exact clientGradients n k i = some (sorted.take (neighborsCount n k)).sum := by
  have sorts : ((dists exact clientGradients n i).mergeSort fun a b => a ≤ b) = sorted := by
    rw [mergeSort_eq_of_perm perm]
    exact List.mergeSort_eq_self (· ≤ ·) ordered
  unfold krumScore
  dsimp only
  rw [sorts, if_pos few]

private def line (many : Nat) : List (List ℝ) :=
  [0] :: [1] :: [(3 : Nat)] :: [(100 : Nat)] :: List.replicate many [(1000 : Nat)]

private theorem dists_line (many : Nat) {i : Nat} {a : ℝ} (at_i : (line many).getD i [] = [a]) :
    dists exact (line many) 4 i =
      ((List.range 4).filter fun j => i ≠ j).map fun j => |a - [0, 1, 3, 100].getD j 0| := by
  unfold dists
  apply List.map_congr_left
  intro j member
  have inside : j < 4 := List.mem_range.mp (List.mem_filter.mp member).1
  rw [at_i]
  match j, inside with
  | 0, _ | 1, _ | 2, _ | 3, _ => exact distance_single _ _

private theorem score_line (many : Nat) {i : Nat} {a : ℝ} (at_i : (line many).getD i [] = [a]) {sorted : List ℝ}
    (perm : (((List.range 4).filter fun j => i ≠ j).map fun j => |a - [0, 1, 3, 100].getD j 0|).Perm sorted)
    (ordered : sorted.Pairwise (· ≤ ·)) (three : sorted.length = 3) :
    krumScore exact (line many) 4 0 i = some (sorted.take 2).sum := by
  have neighbors : neighborsCount 4 0 = 2 := rfl
  rw [krumScore_of_sorted ((List.Perm.of_eq (dists_line many at_i)).trans perm) ordered, neighbors]
  omega

private theorem single_line (many : Nat) : SingleWinner exact (line many) 4 0 1 := by
  have first : krumScore exact (line many) 4 0 0 = some ([1, 3, 100].take 2).sum := by
    apply score_line many rfl _ (by norm_num) rfl
    norm_num [List.range_succ]
  have second : krumScore exact (line many) 4 0 1 = some ([1, 2, 99].take 2).sum := by
    apply score_line many rfl _ (by norm_num) rfl
    norm_num [List.range_succ]
  have third : krumScore exact (line many) 4 0 2 = some ([2, 3, 97].take 2).sum := by
    apply score_line many rfl _ (by norm_num) rfl
    norm_num [List.range_succ]
    exact List.Perm.swap _ _ _
  have fourth : krumScore exact (line many) 4 0 3 = some ([97, 99, 100].take 2).sum := by
    apply score_line many rfl _ (by norm_num) rfl
    norm_num [List.range_succ]
    exact List.reverse_perm [97, 99, 100]
  refine ⟨_, second, ?_⟩
  intro i different
  match i with
  | 0 => exact ⟨_, first, by norm_num⟩
  | 1 => exact absurd rfl different
  | 2 => exact ⟨_, third, by norm_num⟩
  | 3 => exact ⟨_, fourth, by norm_num⟩

private def lineFlags (many : Nat) : List Bool := List.replicate (many + 4) false

private theorem byzantineNodes_line (many : Nat) : byzantineNodes (lineFlags many) = 0 := by
  rw [byzantineNodes, Krum.countByzantine_eq]
  simp [lineFlags, List.count_replicate]

theorem selection_follows_clients_backwards :
    SameSelection exact {} (line 0) [0] (lineFlags 0) ⟨1, by decide⟩ Fin.revPerm := by
  apply selection_follows_clients exact {} (line 0) [0] (lineFlags 0) (by simp) rfl (by decide)
  rw [byzantineNodes_line]
  exact single_line 0

/-- The clients are counted as four and have a single winner, and in some other order another client is selected. -/
def LosesWinner (clientGradients : List (List ℝ)) (isByzantineNode : List Bool) : Prop :=
  ∃ (winner : Fin 4) (σ : Equiv.Perm (Fin clientGradients.length)) (bestIdx : Fin clientGradients.length),
    totalNodes clientGradients = 4 ∧
    SingleWinner exact clientGradients 4 (byzantineNodes isByzantineNode) winner ∧
    selectBest exact (reorder σ clientGradients []) (totalNodes (reorder σ clientGradients []))
      (byzantineNodes (reorder σ isByzantineNode false)) = some bestIdx.val ∧
    (σ bestIdx).val ≠ winner.val

/-- Where the 32-bit counter sees the first four clients only, their winner is lost when it trades places with a
client behind them. -/
private theorem losesWinner_line {many : Nat} (positive : 0 < many) (wraps : BitVec.ofNat 32 (many + 4) = 4) :
    LosesWinner (line many) (lineFlags many) := by
  have length : (line many).length = many + 4 := by simp [line]
  have nodes : totalNodes (line many) = 4 := by
    rw [totalNodes, length, wraps]
    rfl
  let second : Fin (line many).length := ⟨1, by omega⟩
  let fifth : Fin (line many).length := ⟨4, by omega⟩
  let σ := Equiv.swap second fifth
  have nodes' : totalNodes (reorder σ (line many) []) = 4 := by
    rw [totalNodes, length_reorder, ← totalNodes, nodes]
  have flags' : byzantineNodes (reorder σ (lineFlags many) false) = 0 := by
    rw [byzantineNodes_perm (reorder_perm σ (by simp [lineFlags, length]) false), byzantineNodes_line]
  obtain ⟨bestIdx, inside, selected, _⟩ :=
    Krum.selectBest_spec (reorder σ (line many) []) 0 (show 0 < 4 by decide) (by decide)
  refine ⟨1, σ, ⟨bestIdx, by omega⟩, nodes, ?_, ?_, ?_⟩
  · rw [byzantineNodes_line]
    exact single_line many
  · rw [nodes', flags']
    exact selected
  · intro same
    have at_second : σ ⟨bestIdx, by omega⟩ = second := Fin.ext same
    have origin : (⟨bestIdx, by omega⟩ : Fin (line many).length) = fifth := by
      rw [← Equiv.swap_apply_left second fifth]
      exact Equiv.swap_apply_eq_iff.mp at_second
    have outside : bestIdx = 4 := congrArg Fin.val origin
    omega

/-- `2 ^ 32 + 4` clients are counted as four. -/
theorem selection_lost_when_truncated :
    ∃ clientGradients isByzantineNode, clientGradients.length = 2 ^ 32 + 4 ∧
      isByzantineNode.length = clientGradients.length ∧ LosesWinner clientGradients isByzantineNode := by
  have lost : ∀ many, 0 < many → BitVec.ofNat 32 (many + 4) = 4 →
      ∃ clientGradients isByzantineNode, clientGradients.length = many + 4 ∧
        isByzantineNode.length = clientGradients.length ∧ LosesWinner clientGradients isByzantineNode :=
    fun many positive wraps =>
      ⟨line many, lineFlags many, by simp [line], by simp [line, lineFlags], losesWinner_line positive wraps⟩
  exact lost (2 ^ 32) (by norm_num) (by decide)

end SentinelLab.KrumSymmetry
