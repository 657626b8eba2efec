import SentinelLab.Library.Ranking
import SentinelLab.Library.Reordering
import SentinelLab.QuantProfiler

/-! `calculate_rank_inversion_pct` of two attributions without repeated values, by the features that are displaced. -/

namespace SentinelLab.RankInversion
open QuantProfiler Library.Sorting Library.Ranking Library.Reordering

section
variable {F : Type} [Field F] [LinearOrder F] {n : Nat}

def Distinct (attr : List F) (n : Nat) : Prop := ∀ i j : Fin n, attr.getD i 0 = attr.getD j 0 → i = j

def featurePosition (attr : List F) (i : Fin n) : Nat := position (fun j : Fin n => attr.getD j 0) (List.finRange n) i

def displacedCount (fp32Attr quantAttr : List F) (n : Nat) : Nat :=
  (List.finRange n).countP fun i => featurePosition fp32Attr i ≠ featurePosition quantAttr i

variable (algorithm : SortAlgorithm) {attr fp32Attr quantAttr : List F}

theorem rank_perm (attr : List F) (n : Nat) : (rank algorithm attr n).Perm (List.finRange n) :=
  algorithm.perm _ _ (ranksBefore_order attr n)

theorem rank_descending (distinct : Distinct attr n) :
    (rank algorithm attr n).Pairwise fun i j : Fin n => attr.getD j 0 < attr.getD i 0 := by
  have sorted := algorithm.ordered (ranksBefore attr n) (List.finRange n) (ranksBefore_order attr n)
  have nodup : (rank algorithm attr n).Nodup := (rank_perm algorithm attr n).nodup_iff.mpr (List.nodup_finRange n)
  refine (sorted.and nodup).imp ?_
  rintro i j ⟨not_before, different⟩
  have not_above : ¬attr.getD i 0 < attr.getD j 0 := of_decide_eq_false not_before
  exact lt_of_le_of_ne (not_lt.mp not_above) fun same => different (distinct i j same.symm)

theorem position_rank (attr : List F) (i : Fin n) :
    position (fun j : Fin n => attr.getD j 0) (rank algorithm attr n) i = featurePosition attr i :=
  position_perm (rank_perm algorithm attr n)

theorem inversions_eq (distinct : Distinct fp32Attr n) (distinct' : Distinct quantAttr n) :
    inversions (rank algorithm fp32Attr n) (rank algorithm quantAttr n) = displacedCount fp32Attr quantAttr n := by
  have both := (rank_perm algorithm fp32Attr n).trans (rank_perm algorithm quantAttr n).symm
  calc inversions (rank algorithm fp32Attr n) (rank algorithm quantAttr n)
      = (rank algorithm fp32Attr n).countP fun i => featurePosition fp32Attr i ≠ featurePosition quantAttr i := by
        unfold inversions
        rw [countP_zip_eq (rank_descending algorithm distinct) (rank_descending algorithm distinct') both]
        simp only [position_rank]
    _ = displacedCount fp32Attr quantAttr n := (rank_perm algorithm fp32Attr n).countP_eq _

omit [LinearOrder F] in
theorem distinct_of_nodup (nodup : attr.Nodup) (long : attr.length = n) : Distinct attr n := by
  intro i j same
  rw [List.getD_eq_getElem _ _ (long ▸ i.isLt), List.getD_eq_getElem _ _ (long ▸ j.isLt)] at same
  exact Fin.ext ((nodup.getElem_inj_iff).mp same)

/-! ## The displaced features -/

theorem displacedCount_comm (fp32Attr quantAttr : List F) (n : Nat) :
    displacedCount quantAttr fp32Attr n = displacedCount fp32Attr quantAttr n := by
  unfold displacedCount
  simp only [ne_comm]

theorem displacedCount_le (fp32Attr quantAttr : List F) (n : Nat) : displacedCount fp32Attr quantAttr n ≤ n := by
  unfold displacedCount
  exact List.countP_le_length.trans_eq List.length_finRange

theorem featurePosition_reorder (σ : Equiv.Perm (Fin n)) (attr : List F) (i : Fin n) :
    featurePosition (reorder σ attr 0) i = featurePosition attr (σ i) := by
  unfold featurePosition position
  simp only [getD_reorder]
  exact countP_reorder σ fun j : Fin n => attr.getD (σ i) 0 < attr.getD j 0

theorem displacedCount_reorder (σ : Equiv.Perm (Fin n)) (fp32Attr quantAttr : List F) :
    displacedCount (reorder σ fp32Attr 0) (reorder σ quantAttr 0) n = displacedCount fp32Attr quantAttr n := by
  unfold displacedCount
  simp only [featurePosition_reorder]
  exact countP_reorder σ fun i => featurePosition fp32Attr i ≠ featurePosition quantAttr i

theorem featurePosition_lt_iff (attr : List F) (i j : Fin n) :
    featurePosition attr i < featurePosition attr j ↔ attr.getD j 0 < attr.getD i 0 :=
  position_lt_iff (List.mem_finRange i) (List.mem_finRange j)

theorem displacedCount_eq_zero_iff (long : fp32Attr.length = n) :
    displacedCount fp32Attr quantAttr n = 0 ↔ SameOrder fp32Attr quantAttr := by
  subst long
  unfold displacedCount
  rw [List.countP_eq_zero]
  constructor
  · intro placed i j inside inside'
    have at_i : featurePosition fp32Attr ⟨i, inside⟩ = featurePosition quantAttr ⟨i, inside⟩ := by
      simpa using placed _ (List.mem_finRange (⟨i, inside⟩ : Fin fp32Attr.length))
    have at_j : featurePosition fp32Attr ⟨j, inside'⟩ = featurePosition quantAttr ⟨j, inside'⟩ := by
      simpa using placed _ (List.mem_finRange (⟨j, inside'⟩ : Fin fp32Attr.length))
    have here := featurePosition_lt_iff fp32Attr ⟨i, inside⟩ ⟨j, inside'⟩
    rw [at_i, at_j] at here
    exact here.symm.trans (featurePosition_lt_iff quantAttr ⟨i, inside⟩ ⟨j, inside'⟩)
  · intro same i _
    have placed : featurePosition fp32Attr i = featurePosition quantAttr i := by
      apply List.countP_congr
      intro j _
      simpa using same j i j.isLt i.isLt
    simp [placed]

theorem two_le_displacedCount (distinct : Distinct fp32Attr n) (distinct' : Distinct quantAttr n)
    (some_displaced : displacedCount fp32Attr quantAttr n ≠ 0) : 2 ≤ displacedCount fp32Attr quantAttr n := by
  obtain ⟨i, _, displaced⟩ := List.countP_pos_iff.mp (Nat.pos_of_ne_zero some_displaced)
  rw [decide_eq_true_eq] at displaced
  have both := (rank_perm stable fp32Attr n).trans (rank_perm stable quantAttr n).symm
  have listed : i ∈ rank stable fp32Attr n := (rank_perm stable fp32Attr n).mem_iff.mpr (List.mem_finRange i)
  obtain ⟨j, _, different, displaced'⟩ :=
    exists_other_displaced (rank_descending stable distinct) both (rank_descending stable distinct') listed
      (by simpa only [position_rank] using displaced)
  simp only [position_rank] at displaced'
  have pair : [i, j].Nodup := by simpa using different.symm
  have found : [i, j] ⊆
      (List.finRange n).filter fun i => featurePosition fp32Attr i ≠ featurePosition quantAttr i := by
    intro k member
    rw [List.mem_filter, decide_eq_true_eq]
    rcases List.mem_pair.mp member with rfl | rfl
    · exact ⟨List.mem_finRange _, displaced⟩
    · exact ⟨List.mem_finRange _, displaced'⟩
  calc 2 = [i, j].length := rfl
    _ ≤ ((List.finRange n).filter fun i => featurePosition fp32Attr i ≠ featurePosition quantAttr i).length :=
        (pair.subperm found).length_le
    _ = displacedCount fp32Attr quantAttr n := List.countP_eq_length_filter.symm

/-! ## The percentage -/

theorem calculateRankInversionPct_eq (nonempty : fp32Attr ≠ []) (long : fp32Attr.length = quantAttr.length)
    (nodup : fp32Attr.Nodup) (nodup' : quantAttr.Nodup) :
    calculateRankInversionPct algorithm fp32Attr quantAttr =
      ((100 : Nat) : F) / fp32Attr.length * displacedCount fp32Attr quantAttr fp32Attr.length := by
  unfold calculateRankInversionPct
  rw [if_neg (by simp [nonempty, long])]
  dsimp only
  rw [inversions_eq algorithm (distinct_of_nodup nodup rfl) (distinct_of_nodup nodup' long.symm)]
  ring

variable [IsStrictOrderedRing F]

/-- The percentage of displaced features: a symmetric measure that does not depend on how the features are
numbered, is zero for vectors of the same order only, and counts two features at least otherwise. -/
theorem rank_inversion_measures_displacement (algorithm : SortAlgorithm) (fp32Attr quantAttr : List F)
    (nonempty : fp32Attr ≠ []) (long : fp32Attr.length = quantAttr.length) (nodup : fp32Attr.Nodup)
    (nodup' : quantAttr.Nodup) :
    calculateRankInversionPct algorithm fp32Attr quantAttr =
        ((100 : Nat) : F) / fp32Attr.length * displacedCount fp32Attr quantAttr fp32Attr.length ∧
      calculateRankInversionPct algorithm quantAttr fp32Attr =
        calculateRankInversionPct algorithm fp32Attr quantAttr ∧
      (∀ σ : Equiv.Perm (Fin fp32Attr.length),
        calculateRankInversionPct algorithm (reorder σ fp32Attr 0) (reorder σ quantAttr 0) =
          calculateRankInversionPct algorithm fp32Attr quantAttr) ∧
      (calculateRankInversionPct algorithm fp32Attr quantAttr = 0 ↔ SameOrder fp32Attr quantAttr) ∧
      (¬SameOrder fp32Attr quantAttr →
        ((200 : Nat) : F) / fp32Attr.length ≤ calculateRankInversionPct algorithm fp32Attr quantAttr ∧
          calculateRankInversionPct algorithm fp32Attr quantAttr ≤ (100 : Nat)) := by
  have pct := calculateRankInversionPct_eq algorithm nonempty long nodup nodup'
  have zero_iff : displacedCount fp32Attr quantAttr fp32Attr.length = 0 ↔ SameOrder fp32Attr quantAttr :=
    displacedCount_eq_zero_iff rfl
  have count : (0 : F) < fp32Attr.length := by exact_mod_cast List.length_pos_iff.mpr nonempty
  refine ⟨pct, ?_, ?_, ?_, ?_⟩
  · have nonempty' : quantAttr ≠ [] := by
      rw [← List.length_pos_iff, ← long]
      exact List.length_pos_iff.mpr nonempty
    rw [calculateRankInversionPct_eq algorithm nonempty' long.symm nodup' nodup, pct, ← long, displacedCount_comm]
  · intro σ
    have perm := reorder_perm σ rfl (0 : F)
    have perm' := reorder_perm σ long.symm (0 : F)
    have nonempty' : reorder σ fp32Attr 0 ≠ [] := by
      rw [← List.length_pos_iff, length_reorder]
      exact List.length_pos_iff.mpr nonempty
    have long' : (reorder σ fp32Attr 0).length = (reorder σ quantAttr 0).length := by
      rw [length_reorder, length_reorder]
    have kept := perm.nodup_iff.mpr nodup
    have kept' := perm'.nodup_iff.mpr nodup'
    rw [calculateRankInversionPct_eq algorithm nonempty' long' kept kept', pct, length_reorder, displacedCount_reorder]
  · have share : ((100 : Nat) : F) / fp32Attr.length ≠ 0 := by positivity
    rw [pct, mul_eq_zero_iff_left share, Nat.cast_eq_zero, zero_iff]
  · intro different
    have some_displaced := mt zero_iff.mp different
    have distinct := distinct_of_nodup nodup rfl
    have distinct' := distinct_of_nodup nodup' long.symm
    have two := two_le_displacedCount distinct distinct' some_displaced
    have all := displacedCount_le fp32Attr quantAttr fp32Attr.length
    have two' : (2 : F) ≤ displacedCount fp32Attr quantAttr fp32Attr.length := by exact_mod_cast two
    have all' : (displacedCount fp32Attr quantAttr fp32Attr.length : F) ≤ fp32Attr.length := by exact_mod_cast all
    rw [pct, div_mul_eq_mul_div, div_le_div_iff_of_pos_right count, div_le_iff₀ count]
    push_cast
    constructor
    · linarith
    · linarith

end

theorem rank_inversion_measures_displacement_swap :
    ¬SameOrder [3, 1, 2] [3, 2, (1 : ℝ)] ∧
      (200 : Nat) / (3 : Nat) ≤ calculateRankInversionPct stable [3, 1, 2] [3, 2, (1 : ℝ)] ∧
      calculateRankInversionPct stable [3, 1, 2] [3, 2, (1 : ℝ)] ≤ (100 : Nat) := by
  have different : ¬SameOrder [3, 1, 2] [3, 2, (1 : ℝ)] := by
    intro same
    have exchanged := same 2 1 (by decide) (by decide)
    norm_num at exchanged
  obtain ⟨_, _, _, _, bounds⟩ := rank_inversion_measures_displacement stable [3, 1, 2] [3, 2, (1 : ℝ)] (by simp) rfl
    (by norm_num) (by norm_num)
  exact ⟨different, bounds different⟩

end SentinelLab.RankInversion
