import SentinelLab.FederatedEvaluator

/-! Byzantine robustness of the selection in `evaluate_aggregation_robustness`, over the reals.
Among the nearest neighbours of any client there are more unflagged clients than flagged ones
could hide, so the winner is not far from one of them. -/

namespace SentinelLab.Krum
open FederatedEvaluator Library.FloatingPoint Library.Ranges

noncomputable abbrev distance : List ℝ → List ℝ → ℝ := calculateEuclideanDistance exact

/-! ## The distance is Euclidean -/

noncomputable def toVector (dimension : Nat) (w : List ℝ) : EuclideanSpace ℝ (Fin dimension) :=
  WithLp.toLp 2 fun index => w.getD index 0

theorem foldl_squares (pairs : List (ℝ × ℝ)) (start : ℝ) :
    pairs.foldl (fun distSq (a, b) => distSq + (a - b) * (a - b)) start =
      start + (pairs.map fun (a, b) => (a - b) ^ 2).sum := by
  induction pairs generalizing start with
  | nil => simp
  | cons pair rest ih =>
    simp only [List.foldl_cons, ih, List.map_cons, List.sum_cons]
    ring

theorem distance_eq_dist {w1 w2 : List ℝ} {dimension : Nat} (length1 : w1.length = dimension)
    (length2 : w2.length = dimension) : distance w1 w2 = dist (toVector dimension w1) (toVector dimension w2) := by
  subst length1
  rw [EuclideanSpace.dist_eq]
  have squares : ((w1.zip w2).map fun (a, b) => (a - b) ^ 2).sum =
      ∑ index : Fin w1.length, dist (toVector w1.length w1 index) (toVector w1.length w2 index) ^ 2 := by
    rw [← List.sum_ofFn]
    congr 1
    apply List.ext_getElem
    · simp [length2]
    · intro index bound bound'
      simp [toVector, Real.dist_eq, sq_abs, length2]
  unfold distance calculateEuclideanDistance
  by_cases empty : w1 = []
  · subst empty
    simp
  · rw [if_neg (by simp [empty, length2]), foldl_squares, zero_add, squares]
    rfl

theorem countByzantine_eq (isByzantineNode : List Bool) :
    countByzantine isByzantineNode = BitVec.ofNat 32 (isByzantineNode.count true) := by
  have from_any (start : BitVec 32) :
      isByzantineNode.foldl (fun byzantineNodes byz => if byz then byzantineNodes + 1 else byzantineNodes) start =
        start + BitVec.ofNat 32 (isByzantineNode.count true) := by
    induction isByzantineNode generalizing start with
    | nil => simp
    | cons byz rest ih =>
      rw [List.foldl_cons, ih]
      cases byz with
      | false => simp
      | true =>
        rw [if_pos rfl, List.count_cons_self, BitVec.ofNat_add, BitVec.add_assoc, BitVec.add_comm 1]
        rfl
  exact (from_any 0).trans (BitVec.zero_add _)

/-! ## Flagged and unflagged clients -/

def Unflagged (isByzantineNode : List Bool) (i : Nat) : Prop := isByzantineNode[i]? = some false

instance (isByzantineNode : List Bool) (i : Nat) : Decidable (Unflagged isByzantineNode i) := by
  unfold Unflagged
  infer_instance

def unflagged (isByzantineNode : List Bool) : Finset Nat :=
  (Finset.range isByzantineNode.length).filter (Unflagged isByzantineNode)

def flagged (isByzantineNode : List Bool) : Finset Nat :=
  (Finset.range isByzantineNode.length).filter fun i => ¬Unflagged isByzantineNode i

theorem Unflagged.lt {isByzantineNode : List Bool} {i : Nat} (clean : Unflagged isByzantineNode i) :
    i < isByzantineNode.length :=
  (List.getElem?_eq_some_iff.mp clean).1

theorem mem_unflagged (isByzantineNode : List Bool) (i : Nat) :
    i ∈ unflagged isByzantineNode ↔ Unflagged isByzantineNode i := by
  simp only [unflagged, Finset.mem_filter, Finset.mem_range, and_iff_right_iff_imp]
  exact Unflagged.lt

theorem countP_range (n : Nat) (condition : Nat → Bool) :
    (List.range n).countP condition = ((Finset.range n).filter fun j => condition j = true).card := by
  rw [List.countP_eq_length_filter, ← List.toFinset_card_of_nodup (List.nodup_range.filter _),
    List.toFinset_filter, List.toFinset_range]

theorem card_flagged (isByzantineNode : List Bool) :
    (flagged isByzantineNode).card = isByzantineNode.count true := by
  have whole : isByzantineNode =
      (List.range isByzantineNode.length).map fun i => isByzantineNode.getD i false := by
    apply List.ext_getElem
    · simp
    · intro index bound _
      simp [bound]
  calc
    (flagged isByzantineNode).card =
        (List.range isByzantineNode.length).countP fun i => isByzantineNode.getD i false == true := by
      rw [countP_range, flagged]
      congr 1
      apply Finset.filter_congr
      intro i member
      have inside := Finset.mem_range.mp member
      simp [Unflagged, inside]
    _ = ((List.range isByzantineNode.length).map fun i => isByzantineNode.getD i false).count true := by
      rw [List.count, List.countP_map]
      rfl
    _ = isByzantineNode.count true := by rw [← whole]

theorem card_unflagged (isByzantineNode : List Bool) :
    (unflagged isByzantineNode).card + isByzantineNode.count true = isByzantineNode.length := by
  rw [← card_flagged, unflagged, flagged, Finset.card_filter_add_card_filter_not, Finset.card_range]

theorem countP_dists (clientGradients : List (List ℝ)) (n i : Nat) (condition : ℝ → Bool) :
    (dists exact clientGradients n i).countP condition =
      ((Finset.range n).filter fun j => i ≠ j ∧
        condition (distance (clientGradients.getD i []) (clientGradients.getD j [])) = true).card := by
  unfold dists
  rw [List.countP_map, List.countP_filter, countP_range]
  congr 1
  apply Finset.filter_congr
  intro j _
  simp [and_comm]

theorem length_dists (clientGradients : List (List ℝ)) {n i : Nat} (inside : i < n) :
    (dists exact clientGradients n i).length = n - 1 := by
  have all := countP_dists clientGradients n i fun _ => true
  simp only [List.countP_true, and_true] at all
  rw [all, Finset.filter_ne, Finset.card_erase_of_mem (Finset.mem_range.mpr inside), Finset.card_range]

/-! ## Scores -/

noncomputable def nearest (clientGradients : List (List ℝ)) (n k i : Nat) : List ℝ :=
  ((dists exact clientGradients n i).mergeSort fun first second => first ≤ second).take (neighborsCount n k)

variable {clientGradients : List (List ℝ)} {n k i : Nat}

theorem length_sorted (inside : i < n) :
    ((dists exact clientGradients n i).mergeSort fun first second => first ≤ second).length = n - 1 := by
  rw [List.length_mergeSort, length_dists clientGradients inside]

theorem length_nearest (inside : i < n) (few : neighborsCount n k ≤ n - 1) :
    (nearest clientGradients n k i).length = neighborsCount n k := by
  rw [nearest, List.length_take, length_sorted inside, min_eq_left few]

theorem krumScore_eq (inside : i < n) (few : neighborsCount n k ≤ n - 1) :
    krumScore exact clientGradients n k i = some (nearest clientGradients n k i).sum := by
  unfold krumScore
  dsimp only
  rw [if_pos (by rwa [length_sorted inside])]
  rfl

theorem selectBest_spec (clientGradients : List (List ℝ)) (k : Nat) (positive : 0 < n) (few : neighborsCount n k ≤ n - 1) :
    ∃ bestIdx < n, selectBest exact clientGradients n k = some bestIdx ∧
      ∀ i < n, (nearest clientGradients n k bestIdx).sum ≤ (nearest clientGradients n k i).sum := by
  have scores : (List.range n).mapM (krumScore exact clientGradients n k) =
      some ((List.range n).map fun i => (nearest clientGradients n k i).sum) :=
    mapM_eq_map fun i member => krumScore_eq (List.mem_range.mp member) few
  have nonempty : (List.range n).map (fun i => (nearest clientGradients n k i).sum) ≠ [] := by
    simp [List.range_eq_nil, positive.ne']
  obtain ⟨least, found, below⟩ := minElement_spec nonempty
  obtain ⟨inside, value⟩ := List.getElem?_eq_some_iff.mp found
  rw [List.length_map, List.length_range] at inside
  rw [List.getElem_map, List.getElem_range] at value
  refine ⟨_, inside, by rw [selectBest, scores, Option.map_some], ?_⟩
  intro i bound
  rw [value]
  exact below _ (List.mem_map.mpr ⟨i, List.mem_range.mpr bound, rfl⟩)

theorem distance_nonneg (w1 w2 : List ℝ) : 0 ≤ distance w1 w2 := by
  unfold distance calculateEuclideanDistance
  split
  · exact le_rfl
  · exact Real.sqrt_nonneg _

theorem nearest_nonneg (clientGradients : List (List ℝ)) (n k i : Nat) :
    ∀ entry ∈ nearest clientGradients n k i, 0 ≤ entry := by
  intro entry member
  have original : entry ∈ dists exact clientGradients n i := by
    rw [← List.mem_mergeSort]
    exact List.mem_of_mem_take member
  obtain ⟨j, _, rfl⟩ := List.mem_map.mp original
  exact distance_nonneg _ _

/-! ## The bound -/

/-- The gradients have one dimension, and those of the unflagged clients are within `R` of each
other and of the true one. -/
structure HonestWithin (clientGradients : List (List ℝ)) (trueBenignGradient : List ℝ)
    (isByzantineNode : List Bool) (R : ℝ) : Prop where
  nonempty : trueBenignGradient ≠ []
  dimension : ∀ gradient ∈ clientGradients, gradient.length = trueBenignGradient.length
  flags : isByzantineNode.length = clientGradients.length
  radius : 0 ≤ R
  close : ∀ i j, Unflagged isByzantineNode i → Unflagged isByzantineNode j →
    distance (clientGradients.getD i []) (clientGradients.getD j []) ≤ R
  near : ∀ i, Unflagged isByzantineNode i →
    distance trueBenignGradient (clientGradients.getD i []) ≤ R

variable {isByzantineNode : List Bool} {R : ℝ}

theorem neighborsCount_of_enough (enough : 2 * k + 3 ≤ n) : neighborsCount n k = n - k - 2 := by
  unfold neighborsCount
  rw [if_pos (by omega)]

theorem score_le (flags : isByzantineNode.length = n)
    (close : ∀ i j, Unflagged isByzantineNode i → Unflagged isByzantineNode j →
      distance (clientGradients.getD i []) (clientGradients.getD j []) ≤ R)
    (enough : 2 * isByzantineNode.count true + 3 ≤ n) (clean : Unflagged isByzantineNode i) :
    (nearest clientGradients n (isByzantineNode.count true) i).sum ≤
      ((n - isByzantineNode.count true - 2 : Nat) : ℝ) * R := by
  have member := (mem_unflagged isByzantineNode i).mpr clean
  have inside : i < n := flags ▸ clean.lt
  have count := neighborsCount_of_enough enough
  have few : neighborsCount n (isByzantineNode.count true) ≤ n - 1 := by omega
  have others : n - isByzantineNode.count true - 1 ≤
      (dists exact clientGradients n i).countP fun entry => entry ≤ R := by
    have total := card_unflagged isByzantineNode
    calc
      n - isByzantineNode.count true - 1 = ((unflagged isByzantineNode).erase i).card := by
        rw [Finset.card_erase_of_mem member]
        omega
      _ ≤ _ := by
        rw [countP_dists]
        apply Finset.card_le_card
        intro j close_by
        obtain ⟨different, clean'⟩ := Finset.mem_erase.mp close_by
        have clean'' := (mem_unflagged isByzantineNode j).mp clean'
        rw [Finset.mem_filter]
        exact ⟨flags ▸ (Finset.mem_filter.mp clean').1, Ne.symm different, by simpa using close i j clean clean''⟩
  have sorted := List.pairwise_mergeSort' (· ≤ ·) (dists exact clientGradients n i)
  have below : ∀ entry ∈ nearest clientGradients n (isByzantineNode.count true) i, entry ≤ R := by
    apply le_of_mem_take sorted
    rw [(List.mergeSort_perm _ _).countP_eq, count]
    omega
  calc
    _ ≤ ((nearest clientGradients n (isByzantineNode.count true) i).length : ℝ) * R := sum_le_of_le below
    _ = _ := by rw [length_nearest inside few, count]

/-- Of the nearest neighbours of a flagged client, at least `n - 2k - 1` are unflagged, so a low
score means that one of them is near. -/
theorem exists_near (flags : isByzantineNode.length = n)
    (enough : 2 * isByzantineNode.count true + 3 ≤ n) (inside : i < n) (byz : ¬Unflagged isByzantineNode i) :
    ∃ j, Unflagged isByzantineNode j ∧
      ((n - 2 * isByzantineNode.count true - 1 : Nat) : ℝ) *
          distance (clientGradients.getD i []) (clientGradients.getD j []) ≤
        (nearest clientGradients n (isByzantineNode.count true) i).sum := by
  have count := neighborsCount_of_enough enough
  have few : neighborsCount n (isByzantineNode.count true) ≤ n - 1 := by omega
  have total := card_unflagged isByzantineNode
  have nonempty : (unflagged isByzantineNode).Nonempty := by
    rw [← Finset.card_pos]
    omega
  obtain ⟨j, member, least⟩ := Finset.exists_min_image (unflagged isByzantineNode)
    (fun j => distance (clientGradients.getD i []) (clientGradients.getD j [])) nonempty
  refine ⟨j, (mem_unflagged isByzantineNode j).mp member, ?_⟩
  set bound := distance (clientGradients.getD i []) (clientGradients.getD j [])
  have member_flagged : i ∈ flagged isByzantineNode :=
    Finset.mem_filter.mpr ⟨Finset.mem_range.mpr (flags ▸ inside), byz⟩
  -- Only flagged clients are nearer than the nearest unflagged one.
  have nearer : ((nearest clientGradients n (isByzantineNode.count true) i).countP fun entry => entry < bound) + 1 ≤
      isByzantineNode.count true := by
    have hidden : ((dists exact clientGradients n i).countP fun entry => entry < bound) ≤
        ((flagged isByzantineNode).erase i).card := by
      rw [countP_dists]
      apply Finset.card_le_card
      intro other near_by
      obtain ⟨range, different, below⟩ := Finset.mem_filter.mp near_by
      rw [Finset.mem_erase, flagged, Finset.mem_filter]
      refine ⟨Ne.symm different, flags ▸ range, ?_⟩
      intro clean
      have far := least other ((mem_unflagged isByzantineNode other).mpr clean)
      exact absurd (by simpa using below) (not_lt.mpr far)
    have positive := Finset.card_pos.mpr ⟨i, member_flagged⟩
    rw [Finset.card_erase_of_mem member_flagged, card_flagged] at hidden
    rw [card_flagged] at positive
    have first : (nearest clientGradients n (isByzantineNode.count true) i).countP (fun entry => entry < bound) ≤
        _ := (List.take_sublist _ _).countP_le
    rw [(List.mergeSort_perm _ _).countP_eq] at first
    omega
  calc
    _ ≤ (((nearest clientGradients n (isByzantineNode.count true) i).length : ℝ) -
        (nearest clientGradients n (isByzantineNode.count true) i).countP fun entry => entry < bound) * bound := by
      apply mul_le_mul_of_nonneg_right _ (distance_nonneg _ _)
      rw [length_nearest inside few, count, le_sub_iff_add_le]
      norm_cast
      omega
    _ ≤ _ := mul_le_sum (nearest_nonneg _ _ _ _)

theorem HonestWithin.length_getD {trueBenignGradient : List ℝ}
    (honest : HonestWithin clientGradients trueBenignGradient isByzantineNode R) (inside : i < clientGradients.length) :
    (clientGradients.getD i []).length = trueBenignGradient.length := by
  rw [List.getD_eq_getElem _ _ inside]
  exact honest.dimension _ (List.getElem_mem inside)

def SelectsNear (config : FederatedConfig ℝ) (clientGradients : List (List ℝ))
    (trueBenignGradient : List ℝ) (isByzantineNode : List Bool) (R : ℝ) : Prop :=
  ∃ bestIdx m, bestIdx < clientGradients.length ∧
    selectBest exact clientGradients (BitVec.ofNat 32 clientGradients.length).toNat
      (countByzantine isByzantineNode).toNat = some bestIdx ∧
    evaluateAggregationRobustness exact config clientGradients trueBenignGradient isByzantineNode = some m ∧
    (∃ i, Unflagged isByzantineNode i ∧
      distance (clientGradients.getD bestIdx []) (clientGradients.getD i []) ≤
        R * ((clientGradients.length - isByzantineNode.count true - 2) /
          (clientGradients.length - 2 * isByzantineNode.count true - 1))) ∧
    m.gradientCosineDistance ≤
      R * (1 + (clientGradients.length - isByzantineNode.count true - 2) /
        (clientGradients.length - 2 * isByzantineNode.count true - 1))

theorem evaluate_of_selectBest {config : FederatedConfig ℝ} {trueBenignGradient : List ℝ}
    {bestIdx : Nat} (some_nodes : BitVec.ofNat 32 clientGradients.length ≠ 0) (nonempty : trueBenignGradient ≠ [])
    (selected : selectBest exact clientGradients (BitVec.ofNat 32 clientGradients.length).toNat
      (countByzantine isByzantineNode).toNat = some bestIdx) :
    ∃ m, evaluateAggregationRobustness exact config clientGradients trueBenignGradient isByzantineNode =
        some m ∧
      m.gradientCosineDistance = distance (clientGradients.getD bestIdx []) trueBenignGradient := by
  unfold evaluateAggregationRobustness
  dsimp only
  have valid : ¬(BitVec.ofNat 32 clientGradients.length = 0 ∨ trueBenignGradient.isEmpty = true) := by
    intro invalid
    rcases invalid with zero | empty
    · exact some_nodes zero
    · exact nonempty (List.isEmpty_iff.mp empty)
  rw [if_neg valid, selected]
  exact ⟨_, rfl, rfl⟩

theorem margin_pos (enough : 2 * k + 3 ≤ n) : (0 : ℝ) < n - 2 * k - 1 := by
  have cast : ((2 * k + 3 : Nat) : ℝ) ≤ n := by exact_mod_cast enough
  push_cast at cast
  linarith

theorem ratio_nonneg (enough : 2 * k + 3 ≤ n) : (0 : ℝ) ≤ (n - k - 2) / (n - 2 * k - 1) := by
  have cast : ((2 * k + 3 : Nat) : ℝ) ≤ n := by exact_mod_cast enough
  push_cast at cast
  have few : (0 : ℝ) ≤ k := Nat.cast_nonneg k
  exact div_nonneg (by linarith) (margin_pos enough).le

/-- A client whose score is least is near an unflagged one: it is unflagged itself, or one of the
unflagged among its neighbours is near because the scores of the unflagged are low. -/
theorem near_unflagged_of_least {bestIdx : Nat} (flags : isByzantineNode.length = n) (radius : 0 ≤ R)
    (close : ∀ i j, Unflagged isByzantineNode i → Unflagged isByzantineNode j →
      distance (clientGradients.getD i []) (clientGradients.getD j []) ≤ R)
    (enough : 2 * isByzantineNode.count true + 3 ≤ n) (inside : bestIdx < n)
    (least : ∀ i < n, (nearest clientGradients n (isByzantineNode.count true) bestIdx).sum ≤
      (nearest clientGradients n (isByzantineNode.count true) i).sum) :
    ∃ i, Unflagged isByzantineNode i ∧
      distance (clientGradients.getD bestIdx []) (clientGradients.getD i []) ≤
        R * ((n - isByzantineNode.count true - 2) / (n - 2 * isByzantineNode.count true - 1)) := by
  by_cases clean : Unflagged isByzantineNode bestIdx
  · refine ⟨bestIdx, clean, ?_⟩
    rw [distance_eq_dist rfl rfl, dist_self]
    exact mul_nonneg radius (ratio_nonneg enough)
  · rcases exists_near flags enough inside clean with ⟨i, clean', near⟩
    refine ⟨i, clean', ?_⟩
    have low : (nearest clientGradients n (isByzantineNode.count true) bestIdx).sum ≤
        ((n - isByzantineNode.count true - 2 : Nat) : ℝ) * R :=
      (least i (flags ▸ clean'.lt)).trans (score_le flags close enough clean')
    have both := near.trans low
    rw [Nat.sub_sub, Nat.sub_sub, Nat.cast_sub (by omega), Nat.cast_sub (by omega)] at both
    push_cast at both
    rw [← mul_div_assoc, le_div_iff₀ (margin_pos enough)]
    linarith

theorem distance_triangle {w1 w2 w3 : List ℝ} (first : w1.length = w3.length) (second : w2.length = w3.length) :
    distance w1 w3 ≤ distance w1 w2 + distance w3 w2 := by
  rw [distance_eq_dist first rfl, distance_eq_dist first second, distance_eq_dist rfl second]
  exact dist_triangle_right _ _ _

/-- Krum is robust as long as the number of clients fits into `total_nodes`: whatever the flagged
gradients are, the selected one is within `R (n-k-2)/(n-2k-1)` of an unflagged one. -/
theorem krum_byzantine_robust (config : FederatedConfig ℝ)
    (clientGradients : List (List ℝ)) (trueBenignGradient : List ℝ) (isByzantineNode : List Bool) (R : ℝ)
    (honest : HonestWithin clientGradients trueBenignGradient isByzantineNode R)
    (enough : 2 * isByzantineNode.count true + 3 ≤ clientGradients.length)
    (fits : clientGradients.length < 2 ^ 32) :
    SelectsNear config clientGradients trueBenignGradient isByzantineNode R := by
  have nodes : (BitVec.ofNat 32 clientGradients.length).toNat = clientGradients.length := by
    rw [BitVec.toNat_ofNat, Nat.mod_eq_of_lt fits]
  have byzantine : (countByzantine isByzantineNode).toNat = isByzantineNode.count true := by
    rw [countByzantine_eq, BitVec.toNat_ofNat, Nat.mod_eq_of_lt (by omega)]
  have some_nodes : BitVec.ofNat 32 clientGradients.length ≠ 0 := by
    intro zero
    rw [zero] at nodes
    have positive : 0 < clientGradients.length := by omega
    exact absurd nodes positive.ne
  have count := neighborsCount_of_enough enough
  obtain ⟨bestIdx, inside, selected, least⟩ := selectBest_spec clientGradients (isByzantineNode.count true)
    (show 0 < clientGradients.length by omega) (by omega)
  rw [← nodes, ← byzantine] at selected
  obtain ⟨m, evaluated, reported⟩ := evaluate_of_selectBest some_nodes honest.nonempty selected
  have near_unflagged :=
    near_unflagged_of_least honest.flags honest.radius honest.close enough inside least
  refine ⟨bestIdx, m, inside, selected, evaluated, near_unflagged, ?_⟩
  obtain ⟨i, clean, close_by⟩ := near_unflagged
  have bound : i < clientGradients.length := honest.flags ▸ clean.lt
  have triangle := distance_triangle (honest.length_getD inside) (honest.length_getD bound)
  calc
    m.gradientCosineDistance = distance (clientGradients.getD bestIdx []) trueBenignGradient := reported
    _ ≤ _ := triangle.trans (add_le_add close_by (honest.near i clean))
    _ = _ := by ring

theorem krum_byzantine_robust_five :
    SelectsNear {} [[0], [0], [0], [0], [7]] [0] [false, false, false, false, true] 0 := by
  have same : distance [0] [0] ≤ 0 := by simp [distance, calculateEuclideanDistance, exact]
  have placed (i : Nat) (clean : Unflagged [false, false, false, false, true] i) :
      [[0], [0], [0], [0], [7]].getD i [] = [(0 : ℝ)] := by
    match i with
    | 0 | 1 | 2 | 3 => rfl
    | 4 => simp [Unflagged] at clean
    | j + 5 => simp [Unflagged] at clean
  apply krum_byzantine_robust
  · refine ⟨by simp, by simp, rfl, le_rfl, ?_, ?_⟩
    · intro i j clean clean'
      rwa [placed i clean, placed j clean']
    · intro i clean
      rwa [placed i clean]
  · decide
  · decide

private def crowd (many : Nat) : List (List ℝ) := [1000] :: [1000] :: List.replicate many [0]

private def crowdFlags (many : Nat) : List Bool := true :: true :: List.replicate many false

private theorem crowd_of_unflagged {many : Nat} (clean : Unflagged (crowdFlags many) i) :
    (crowd many).getD i [] = [0] := by
  match i with
  | 0 | 1 => simp [Unflagged, crowdFlags] at clean
  | j + 2 =>
    have inside : j < many := by
      by_contra outside
      simp [Unflagged, crowdFlags, outside] at clean
    simp [crowd, inside]

private theorem crowd_honest (many : Nat) : HonestWithin (crowd many) [0] (crowdFlags many) 0 := by
  have same : distance [0] [0] ≤ 0 := by simp [distance, calculateEuclideanDistance, exact]
  refine ⟨by simp, ?_, by simp [crowd, crowdFlags], le_rfl, ?_, ?_⟩
  · intro gradient member
    simp only [crowd, List.mem_cons, List.mem_replicate] at member
    rcases member with rfl | rfl | ⟨_, rfl⟩ <;> rfl
  · intro i j clean clean'
    rwa [crowd_of_unflagged clean, crowd_of_unflagged clean']
  · intro i clean
    rwa [crowd_of_unflagged clean]

/-- Where the 32-bit counter sees the two flagged clients only, one of them is selected. -/
private theorem crowd_not_near {many : Nat} (wraps : BitVec.ofNat 32 (many + 2) = 2)
    (config : FederatedConfig ℝ) :
    ¬SelectsNear config (crowd many) [0] (crowdFlags many) 0 := by
  intro near
  obtain ⟨bestIdx, m, _, selected, _, ⟨i, clean, close_by⟩, _⟩ := near
  have nodes : BitVec.ofNat 32 (crowd many).length = 2 := by
    simpa only [crowd, List.length_cons, List.length_replicate] using wraps
  have byzantine : countByzantine (crowdFlags many) = 2 := by
    rw [countByzantine_eq]
    simp [crowdFlags, List.count_replicate]
  rw [nodes, byzantine] at selected
  obtain ⟨best, inside, selected', _⟩ := selectBest_spec (crowd many) 2 (show 0 < 2 by decide) (by decide)
  obtain rfl : bestIdx = best := Option.some.inj (selected.symm.trans selected')
  have poisoned : (crowd many).getD bestIdx [] = [1000] := by
    match bestIdx, inside with
    | 0, _ | 1, _ => rfl
  rw [poisoned, crowd_of_unflagged clean, zero_mul] at close_by
  have far : distance [1000] [0] = 1000 := by
    simp [distance, calculateEuclideanDistance, exact]
  rw [far] at close_by
  norm_num at close_by

private theorem crowd_enough {many : Nat} (large : 5 ≤ many) :
    2 * (crowdFlags many).count true + 3 ≤ (crowd many).length := by
  simp [crowdFlags, crowd, List.count_replicate]
  omega

/-- `2 ^ 32 + 2` clients are counted as two. -/
theorem krum_count_truncated :
    ∃ clientGradients trueBenignGradient isByzantineNode R,
      clientGradients.length = 2 ^ 32 + 2 ∧
      HonestWithin clientGradients trueBenignGradient isByzantineNode R ∧
      2 * isByzantineNode.count true + 3 ≤ clientGradients.length ∧
      ∀ config, ¬SelectsNear config clientGradients trueBenignGradient isByzantineNode R := by
  have crowded : ∀ many, 5 ≤ many → BitVec.ofNat 32 (many + 2) = 2 →
      ∃ clientGradients trueBenignGradient isByzantineNode R, clientGradients.length = many + 2 ∧
        HonestWithin clientGradients trueBenignGradient isByzantineNode R ∧
        2 * isByzantineNode.count true + 3 ≤ clientGradients.length ∧
        ∀ config, ¬SelectsNear config clientGradients trueBenignGradient isByzantineNode R :=
    fun many large wraps => ⟨crowd many, [0], crowdFlags many, 0, by simp [crowd], crowd_honest many,
      crowd_enough large, crowd_not_near wraps⟩
  exact crowded (2 ^ 32) (by norm_num) (by decide)

end SentinelLab.Krum
