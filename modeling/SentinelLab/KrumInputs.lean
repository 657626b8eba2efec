import SentinelLab.Krum

/-! What the guard of `evaluate_aggregation_robustness` lets through: so few clients that there is
no neighbour to sum over, and gradients of other lengths, which are at distance 0 from everyone. -/

namespace SentinelLab.KrumInputs
open FederatedEvaluator Krum Library.FloatingPoint Library.Ranges

def totalNodes {F : Type} (clientGradients : List (List F)) : Nat := (BitVec.ofNat 32 clientGradients.length).toNat

def byzantineNodes (isByzantineNode : List Bool) : Nat := (countByzantine isByzantineNode).toNat

def neighbors {F : Type} (clientGradients : List (List F)) (isByzantineNode : List Bool) : Nat :=
  neighborsCount (totalNodes clientGradients) (byzantineNodes isByzantineNode)

/-! ## The sum over the neighbours -/

theorem totalNodes_eq {F : Type} (clientGradients : List (List F)) :
    totalNodes clientGradients = clientGradients.length % 2 ^ 32 :=
  BitVec.toNat_ofNat ..

section
variable {F : Type} [Field F]

/-- In every round of the scoring loop there is a neighbour to sum over, and the sum does not
run over the end of the distances. -/
def NeighborsInBounds (libm : Libm F) (clientGradients : List (List F)) (isByzantineNode : List Bool) : Prop :=
  ∀ i < totalNodes clientGradients, 1 ≤ neighbors clientGradients isByzantineNode ∧
    neighbors clientGradients isByzantineNode ≤ (dists libm clientGradients (totalNodes clientGradients) i).length

theorem dists_length (libm : Libm F) (clientGradients : List (List F)) {n i : Nat} (inside : i < n) :
    (dists libm clientGradients n i).length = n - 1 := by
  calc
    _ = (List.range n).countP fun j => decide (i ≠ j) := by
      rw [dists, List.length_map, List.countP_eq_length_filter]
    _ = ((Finset.range n).erase i).card := by
      rw [countP_range]
      simp only [decide_eq_true_eq, Finset.filter_ne]
    _ = n - 1 := by rw [Finset.card_erase_of_mem (Finset.mem_range.mpr inside), Finset.card_range]

theorem one_le_neighborsCount (n k : Nat) : 1 ≤ neighborsCount n k := by
  unfold neighborsCount
  split <;> omega

theorem neighborsCount_le_iff (n k : Nat) (positive : 0 < n) : neighborsCount n k ≤ n - 1 ↔ n ≠ 1 := by
  unfold neighborsCount
  split <;> omega

/-- The sums stay in bounds unless the clients are counted as one, whatever the flags are. -/
theorem neighbors_in_bounds_iff (libm : Libm F) (clientGradients : List (List F)) (isByzantineNode : List Bool) :
    NeighborsInBounds libm clientGradients isByzantineNode ↔ clientGradients.length % 2 ^ 32 ≠ 1 := by
  rw [← totalNodes_eq]
  constructor
  · intro bounds single
    have inside : 0 < totalNodes clientGradients := by omega
    have few := (bounds 0 inside).2
    rw [dists_length libm clientGradients inside] at few
    exact (neighborsCount_le_iff _ _ inside).mp few single
  · intro several i inside
    rw [dists_length libm clientGradients inside]
    exact ⟨one_le_neighborsCount _ _, (neighborsCount_le_iff _ _ (by omega)).mpr several⟩

theorem neighbors_of_one_client : ¬NeighborsInBounds exact [[1]] [] := by
  intro bounds
  have few := (bounds 0 (by decide)).2
  rw [dists_length exact [[1]] (by decide)] at few
  exact absurd few (by decide)

variable [LinearOrder F]

theorem krumScore_isSome_iff (libm : Libm F) (clientGradients : List (List F)) {n k i : Nat} (inside : i < n) :
    (krumScore libm clientGradients n k i).isSome ↔ n ≠ 1 := by
  rw [← neighborsCount_le_iff n k (by omega)]
  unfold krumScore
  dsimp only
  rw [List.length_mergeSort, dists_length libm clientGradients inside]
  split <;> simp_all

theorem selectBest_isSome_iff (libm : Libm F) (clientGradients : List (List F)) (n k : Nat) :
    (selectBest libm clientGradients n k).isSome ↔ n ≠ 1 := by
  rw [selectBest, Option.isSome_map]
  by_cases single : n = 1
  · have faults : krumScore libm clientGradients n k 0 = none := by
      rw [← Option.not_isSome_iff_eq_none, krumScore_isSome_iff libm clientGradients (by omega)]
      exact not_not.mpr single
    subst single
    simp [List.range_succ, faults]
  · have scores : (List.range n).mapM (krumScore libm clientGradients n k) =
        some ((List.range n).map fun i => (krumScore libm clientGradients n k i).getD 0) := by
      apply mapM_eq_map
      intro i member
      have score : (krumScore libm clientGradients n k i).isSome :=
        (krumScore_isSome_iff libm clientGradients (List.mem_range.mp member)).mpr single
      obtain ⟨value, found⟩ := Option.isSome_iff_exists.mp score
      rw [found, Option.getD_some]
      rfl
    simp [scores, single]

theorem evaluate_eq_none_iff (libm : Libm F) (config : FederatedConfig F) (clientGradients : List (List F))
    (trueBenignGradient : List F) (isByzantineNode : List Bool) :
    evaluateAggregationRobustness libm config clientGradients trueBenignGradient isByzantineNode = none ↔
      trueBenignGradient ≠ [] ∧ clientGradients.length % 2 ^ 32 = 1 := by
  unfold evaluateAggregationRobustness
  dsimp only
  split
  · next invalid =>
    simp only [reduceCtorEq, false_iff, not_and]
    intro nonempty single
    rcases invalid with none_counted | empty
    · have counted := totalNodes_eq clientGradients
      rw [totalNodes, none_counted] at counted
      exact absurd (counted.trans single) (by decide)
    · exact nonempty (List.isEmpty_iff.mp empty)
  · next valid =>
    have nonempty : trueBenignGradient ≠ [] := fun empty => valid (.inr (List.isEmpty_iff.mpr empty))
    have selected := selectBest_isSome_iff libm clientGradients (totalNodes clientGradients)
      (byzantineNodes isByzantineNode)
    rw [← totalNodes_eq, and_iff_right nonempty, ← not_iff_not, ← Ne, ← Ne, ← selected, Option.isSome_iff_ne_none]
    unfold totalNodes byzantineNodes
    cases selectBest libm clientGradients (BitVec.ofNat 32 clientGradients.length).toNat
      (countByzantine isByzantineNode).toNat with
    | none => simp
    | some bestIdx => simp

end

/-! ## Gradients of other lengths -/

/-- A gradient of another length, or one of the same length within `radius`. -/
def Near (first second : List ℝ) (radius : ℝ) : Prop :=
  second.length ≠ first.length ∨ dist (toVector first.length first) (toVector first.length second) ≤ radius

noncomputable instance (first second : List ℝ) (radius : ℝ) : Decidable (Near first second radius) :=
  Classical.propDecidable _

/-- The number of clients other than `i` whose gradients are near that of client `i`. -/
noncomputable def within (clientGradients : List (List ℝ)) (n i : Nat) (radius : ℝ) : Nat :=
  ((Finset.range n).filter fun j =>
    i ≠ j ∧ Near (clientGradients.getD i []) (clientGradients.getD j []) radius).card

/-- The number of clients whose gradients have another length than that of client `i`. -/
def strangers {F : Type} (clientGradients : List (List F)) (n i : Nat) : Nat :=
  (List.range n).countP fun j => (clientGradients.getD j []).length ≠ (clientGradients.getD i []).length

variable {clientGradients : List (List ℝ)} {n k i j : Nat}

theorem distance_le_iff {first second : List ℝ} {radius : ℝ} (nonneg : 0 ≤ radius) :
    distance first second ≤ radius ↔ Near first second radius := by
  unfold Near
  by_cases same : second.length = first.length
  · rw [distance_eq_dist rfl same]
    simp [same]
  · have zero : distance first second = 0 := by
      unfold distance calculateEuclideanDistance
      rw [if_pos (.inr (Ne.symm same))]
    simp [zero, nonneg, same]

theorem countP_dists_eq_within {radius : ℝ} (nonneg : 0 ≤ radius) :
    ((dists exact clientGradients n i).countP fun entry => entry ≤ radius) = within clientGradients n i radius := by
  rw [countP_dists, within]
  congr 1
  apply Finset.filter_congr
  intro j _
  rw [decide_eq_true_eq, distance_le_iff nonneg]

theorem countP_dists_of_neg {radius : ℝ} (negative : radius < 0) :
    ((dists exact clientGradients n i).countP fun entry => entry ≤ radius) = 0 := by
  rw [List.countP_eq_zero]
  intro entry member low
  obtain ⟨j, _, rfl⟩ := List.mem_map.mp member
  exact absurd (negative.trans_le (distance_nonneg _ _)) (not_lt.mpr (of_decide_eq_true low))

theorem within_mono {first second : ℝ} (le : first ≤ second) :
    within clientGradients n i first ≤ within clientGradients n i second := by
  apply Finset.card_le_card
  intro j member
  rw [Finset.mem_filter] at member ⊢
  obtain ⟨inside, other, close⟩ := member
  refine ⟨inside, other, ?_⟩
  rcases close with stranger | near
  · exact .inl stranger
  · exact .inr (near.trans le)

/-! ## Clients ahead of others -/

/-- Within every radius, client `i` has as many others near it as client `j`, of the `count` that
a score takes. -/
def AsClose (clientGradients : List (List ℝ)) (n count i j : Nat) : Prop :=
  ∀ radius : ℝ, 0 ≤ radius → min count (within clientGradients n j radius) ≤ within clientGradients n i radius

/-- As close, and closer within some radius or earlier in the list. -/
def Ahead (clientGradients : List (List ℝ)) (n count i j : Nat) : Prop :=
  AsClose clientGradients n count i j ∧ (i < j ∨ ¬AsClose clientGradients n count j i)

/-- One of these clients is ahead of all the others. -/
def Leads (clientGradients : List (List ℝ)) (n count : Nat) (these : Nat → Prop) : Prop :=
  ∃ i < n, these i ∧ ∀ j < n, ¬these j → Ahead clientGradients n count i j

/-- All the neighbours that a score takes are at distance 0: of other lengths, or the same gradient. -/
def AtZero (clientGradients : List (List ℝ)) (n count i : Nat) : Prop := count ≤ within clientGradients n i 0

theorem asClose_iff (count : Nat) : AsClose clientGradients n count i j ↔
    MoreUpTo (dists exact clientGradients n i) (dists exact clientGradients n j) count := by
  constructor
  · intro close radius
    rcases lt_or_ge radius 0 with negative | nonneg
    · rw [countP_dists_of_neg negative, Nat.min_zero]
      exact Nat.zero_le _
    · rw [countP_dists_eq_within nonneg, countP_dists_eq_within nonneg]
      exact close radius nonneg
  · intro more radius nonneg
    rw [← countP_dists_eq_within nonneg, ← countP_dists_eq_within nonneg]
    exact more radius

theorem AsClose.score_le (close : AsClose clientGradients n (neighborsCount n k) i j) (inside : i < n) (inside' : j < n)
    (few : neighborsCount n k ≤ n - 1) :
    (nearest clientGradients n k i).sum ≤ (nearest clientGradients n k j).sum := by
  apply ((asClose_iff _).mp close).leastSum_le
  · rwa [length_dists clientGradients inside]
  · rwa [length_dists clientGradients inside']

theorem AsClose.score_lt (close : AsClose clientGradients n (neighborsCount n k) i j)
    (closer : ¬AsClose clientGradients n (neighborsCount n k) j i) (inside : i < n) (inside' : j < n)
    (few : neighborsCount n k ≤ n - 1) :
    (nearest clientGradients n k i).sum < (nearest clientGradients n k j).sum := by
  rw [asClose_iff] at close closer
  apply close.leastSum_lt closer
  · rwa [length_dists clientGradients inside]
  · rwa [length_dists clientGradients inside']

theorem AtZero.asClose {count : Nat} (zero : AtZero clientGradients n count i) (j : Nat) :
    AsClose clientGradients n count i j := by
  intro radius nonneg
  calc
    _ ≤ count := min_le_left _ _
    _ ≤ within clientGradients n i 0 := zero
    _ ≤ within clientGradients n i radius := within_mono nonneg

theorem AtZero.of_asClose {count : Nat} (zero : AtZero clientGradients n count j)
    (close : AsClose clientGradients n count i j) : AtZero clientGradients n count i := by
  have near := close 0 le_rfl
  rwa [min_eq_left zero] at near

theorem leads_of_first {count : Nat} {these : Nat → Prop} (inside : i < n) (member : these i)
    (zero : AtZero clientGradients n count i) (first : ∀ j < i, ¬AtZero clientGradients n count j) :
    Leads clientGradients n count these := by
  refine ⟨i, inside, member, ?_⟩
  intro j _ other
  refine ⟨zero.asClose j, ?_⟩
  rcases lt_trichotomy i j with later | rfl | earlier
  · exact .inl later
  · exact absurd member other
  · exact .inr fun close => first j earlier (zero.of_asClose close)

theorem exists_first {count : Nat} (zero : ∃ i < n, AtZero clientGradients n count i) :
    ∃ i < n, AtZero clientGradients n count i ∧ ∀ j < i, ¬AtZero clientGradients n count j := by
  classical
  obtain ⟨inside, found⟩ := Nat.find_spec zero
  refine ⟨Nat.find zero, inside, found, ?_⟩
  intro j earlier zero'
  exact Nat.find_min zero earlier ⟨earlier.trans inside, zero'⟩

/-! ## The selected client -/

theorem selectBest_first (clientGradients : List (List ℝ)) (k : Nat) (several : 2 ≤ n) :
    ∃ bestIdx < n, selectBest exact clientGradients n k = some bestIdx ∧
      (∀ i < n, (nearest clientGradients n k bestIdx).sum ≤ (nearest clientGradients n k i).sum) ∧
      ∀ i < bestIdx, (nearest clientGradients n k bestIdx).sum < (nearest clientGradients n k i).sum := by
  have few : neighborsCount n k ≤ n - 1 := (neighborsCount_le_iff n k (by omega)).mpr (by omega)
  obtain ⟨bestIdx, inside, selected, least⟩ := selectBest_spec clientGradients k (by omega) few
  refine ⟨bestIdx, inside, selected, least, ?_⟩
  intro i earlier
  have scores : (List.range n).mapM (krumScore exact clientGradients n k) =
      some ((List.range n).map fun i => (nearest clientGradients n k i).sum) :=
    mapM_eq_map fun i member => krumScore_eq (List.mem_range.mp member) few
  have position {j : Nat} (bound : j < n) :
      ((List.range n).map fun i => (nearest clientGradients n k i).sum)[j]? =
        some (nearest clientGradients n k j).sum := by
    simp [bound]
  rw [selectBest, scores, Option.map_some, Option.some_inj] at selected
  obtain ⟨found, at_best, below⟩ := minElement_first (position (earlier.trans inside)) (by rwa [selected])
  rw [selected, position inside, Option.some_inj] at at_best
  rwa [at_best]

theorem selectBest_of_leads {these : Nat → Prop} {bestIdx : Nat} (several : 2 ≤ n)
    (selected : selectBest exact clientGradients n k = some bestIdx)
    (leads : Leads clientGradients n (neighborsCount n k) these) : these bestIdx := by
  have few : neighborsCount n k ≤ n - 1 := (neighborsCount_le_iff n k (by omega)).mpr (by omega)
  obtain ⟨best, inside, selected', least, first⟩ := selectBest_first clientGradients k several
  obtain rfl : bestIdx = best := Option.some.inj (selected.symm.trans selected')
  obtain ⟨i, bound, _, ahead⟩ := leads
  by_contra other
  obtain ⟨close, earlier | closer⟩ := ahead bestIdx inside other
  · exact absurd (close.score_le bound inside few) (not_le.mpr (first i earlier))
  · exact absurd (least i bound) (not_le.mpr (close.score_lt closer bound inside few))

def WellFormed (clientGradients : List (List ℝ)) (trueBenignGradient : List ℝ) (i : Nat) : Prop :=
  (clientGradients.getD i []).length = trueBenignGradient.length

/-- The evaluation is valid and its selection is a client whose gradient has the true length. -/
def SelectsWellFormed (config : FederatedConfig ℝ) (clientGradients : List (List ℝ)) (trueBenignGradient : List ℝ)
    (isByzantineNode : List Bool) : Prop :=
  ∃ bestIdx m,
    selectBest exact clientGradients (totalNodes clientGradients) (byzantineNodes isByzantineNode) = some bestIdx ∧
    evaluateAggregationRobustness exact config clientGradients trueBenignGradient isByzantineNode = some m ∧
    m.valid = true ∧ WellFormed clientGradients trueBenignGradient bestIdx

/-- At least two clients send different gradients of the true length, and the others send
gradients of other lengths. -/
structure MalformedSetting (clientGradients : List (List ℝ)) (trueBenignGradient : List ℝ) : Prop where
  nonempty : trueBenignGradient ≠ []
  clients : 3 ≤ clientGradients.length
  two : ∃ i j, i < j ∧ j < clientGradients.length ∧ WellFormed clientGradients trueBenignGradient i ∧
    WellFormed clientGradients trueBenignGradient j
  distinct : ∀ i j, i < j → j < clientGradients.length → WellFormed clientGradients trueBenignGradient i →
    WellFormed clientGradients trueBenignGradient j → clientGradients.getD i [] ≠ clientGradients.getD j []

theorem valid_of_evaluate {config : FederatedConfig ℝ} {trueBenignGradient : List ℝ} {isByzantineNode : List Bool}
    {m : FederatedMetrics ℝ}
    (evaluated : evaluateAggregationRobustness exact config clientGradients trueBenignGradient isByzantineNode = some m) :
    m.valid = true ↔ totalNodes clientGradients ≠ 0 ∧ trueBenignGradient ≠ [] := by
  have counted : BitVec.ofNat 32 clientGradients.length = 0 ↔ totalNodes clientGradients = 0 := by
    rw [totalNodes, ← BitVec.toNat_inj]
    rfl
  unfold evaluateAggregationRobustness at evaluated
  dsimp only at evaluated
  split at evaluated
  · next invalid =>
    obtain rfl := Option.some.inj evaluated
    rw [counted, List.isEmpty_iff] at invalid
    simp only [Bool.false_eq_true, false_iff, not_and_or, not_not]
    exact invalid
  · next valid =>
    obtain ⟨bestIdx, _, reported⟩ := Option.bind_eq_some_iff.mp evaluated
    obtain rfl := Option.some.inj reported
    rw [counted, List.isEmpty_iff, not_or] at valid
    exact iff_of_true rfl valid

theorem selects_well_formed {config : FederatedConfig ℝ} {trueBenignGradient : List ℝ} {isByzantineNode : List Bool}
    (nonempty : trueBenignGradient ≠ []) (several : 2 ≤ totalNodes clientGradients)
    (good : ∀ bestIdx,
      selectBest exact clientGradients (totalNodes clientGradients) (byzantineNodes isByzantineNode) = some bestIdx →
        WellFormed clientGradients trueBenignGradient bestIdx) :
    SelectsWellFormed config clientGradients trueBenignGradient isByzantineNode := by
  obtain ⟨bestIdx, _, selected, _, _⟩ := selectBest_first clientGradients (byzantineNodes isByzantineNode) several
  have returned : evaluateAggregationRobustness exact config clientGradients trueBenignGradient isByzantineNode ≠
      none := by
    rw [Ne, evaluate_eq_none_iff, ← totalNodes_eq]
    omega
  obtain ⟨m, evaluated⟩ := Option.ne_none_iff_exists'.mp returned
  have valid := (valid_of_evaluate evaluated).mpr ⟨by omega, nonempty⟩
  exact ⟨bestIdx, m, selected, evaluated, valid, good bestIdx selected⟩

theorem SelectsWellFormed.several {config : FederatedConfig ℝ} {trueBenignGradient : List ℝ}
    {isByzantineNode : List Bool}
    (selects : SelectsWellFormed config clientGradients trueBenignGradient isByzantineNode) :
    trueBenignGradient ≠ [] ∧ 2 ≤ totalNodes clientGradients := by
  obtain ⟨bestIdx, m, selected, evaluated, valid, _⟩ := selects
  obtain ⟨counted, nonempty⟩ := (valid_of_evaluate evaluated).mp valid
  have single : totalNodes clientGradients ≠ 1 :=
    (selectBest_isSome_iff exact _ _ _).mp (Option.isSome_of_eq_some selected)
  exact ⟨nonempty, by omega⟩

theorem not_selects_well_formed {config : FederatedConfig ℝ} {trueBenignGradient : List ℝ}
    {isByzantineNode : List Bool}
    (leads : Leads clientGradients (totalNodes clientGradients) (neighbors clientGradients isByzantineNode)
      fun j => ¬WellFormed clientGradients trueBenignGradient j) :
    ¬SelectsWellFormed config clientGradients trueBenignGradient isByzantineNode := by
  intro selects
  obtain ⟨_, several⟩ := selects.several
  obtain ⟨bestIdx, m, selected, _, _, well_formed⟩ := selects
  exact selectBest_of_leads several selected leads well_formed

theorem strangers_le_within (clientGradients : List (List ℝ)) (n i : Nat) :
    strangers clientGradients n i ≤ within clientGradients n i 0 := by
  rw [strangers, countP_range, within]
  apply Finset.card_le_card
  intro j member
  rw [Finset.mem_filter] at member ⊢
  have stranger := of_decide_eq_true member.2
  exact ⟨member.1, fun same => stranger (by rw [same]), .inl stranger⟩

theorem eq_of_toVector_eq {first second : List ℝ} (same : second.length = first.length)
    (equal : toVector first.length first = toVector first.length second) : first = second := by
  apply List.ext_getElem same.symm
  intro index bound bound'
  have coordinate := congrFun (WithLp.toLp_injective 2 equal) ⟨index, bound⟩
  simpa [bound, bound'] using coordinate

theorem within_zero (different : ∀ j < n, i ≠ j → clientGradients.getD i [] ≠ clientGradients.getD j []) :
    within clientGradients n i 0 ≤ strangers clientGradients n i := by
  rw [strangers, countP_range, within]
  apply Finset.card_le_card
  intro j member
  rw [Finset.mem_filter] at member ⊢
  obtain ⟨inside, other, stranger | close⟩ := member
  · exact ⟨inside, decide_eq_true stranger⟩
  · refine ⟨inside, decide_eq_true ?_⟩
    intro same
    rw [dist_le_zero] at close
    exact different j (Finset.mem_range.mp inside) other (eq_of_toVector_eq same close)

/-- A malformed client with no more peers than flags can hide wins against different gradients of
the true length, wherever it stands in the list: none of them is at distance 0 from its neighbours. -/
theorem malformed_wins (config : FederatedConfig ℝ) {clientGradients : List (List ℝ)} {trueBenignGradient : List ℝ}
    {isByzantineNode : List Bool} (setting : MalformedSetting clientGradients trueBenignGradient)
    (fits : clientGradients.length < 2 ^ 32) {j : Nat} (inside : j < clientGradients.length)
    (alone : neighbors clientGradients isByzantineNode ≤ strangers clientGradients clientGradients.length j)
    (joined : ∀ i < clientGradients.length, WellFormed clientGradients trueBenignGradient i →
      strangers clientGradients clientGradients.length i < neighbors clientGradients isByzantineNode) :
    ¬SelectsWellFormed config clientGradients trueBenignGradient isByzantineNode := by
  have counted : totalNodes clientGradients = clientGradients.length :=
    (totalNodes_eq clientGradients).trans (Nat.mod_eq_of_lt fits)
  have apart : ∀ i < clientGradients.length, WellFormed clientGradients trueBenignGradient i →
      ¬AtZero clientGradients clientGradients.length (neighbors clientGradients isByzantineNode) i := by
    intro i bound well_formed zero
    have few : within clientGradients clientGradients.length i 0 ≤ strangers clientGradients clientGradients.length i := by
      apply within_zero
      intro other bound' different same
      have well_formed' : WellFormed clientGradients trueBenignGradient other := by rwa [WellFormed, ← same]
      rcases Nat.lt_or_gt_of_ne different with earlier | later
      · exact setting.distinct i other earlier bound' well_formed well_formed' same
      · exact setting.distinct other i later bound well_formed' well_formed same.symm
    exact absurd (zero.trans few) (not_le.mpr (joined i bound well_formed))
  have zero : AtZero clientGradients clientGradients.length (neighbors clientGradients isByzantineNode) j :=
    alone.trans (strangers_le_within _ _ _)
  have malformed : ¬WellFormed clientGradients trueBenignGradient j := fun well_formed => apart j inside well_formed zero
  apply not_selects_well_formed
  rw [counted]
  refine ⟨j, inside, malformed, ?_⟩
  intro i bound well_formed
  refine ⟨zero.asClose i, .inr ?_⟩
  intro close
  exact apart i bound (not_not.mp well_formed) (zero.of_asClose close)

end SentinelLab.KrumInputs
