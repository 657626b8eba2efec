import SentinelLab.Library.FloatingPoint
import SentinelLab.Library.Sorting

/-! `QuantProfiler` over an exact number field: how far the outputs of a quantized model are from
those of the original. The ranks of the attributions come from two independent sorts. -/

namespace SentinelLab.QuantProfiler
open Library.FloatingPoint Library.Sorting

variable {F : Type} [Field F]

structure QuantDriftMetrics (F : Type) [Field F] where
  valid : Bool := false
  backendName : String := ""
  precisionType : String := ""
  cosineSimilarity : F := 1
  meanSquaredError : F := 0
  rankInversionPct : F := 0
  avgLatencyUs : F := 0
  precisionSlaSatisfied : Bool := true
  summaryReport : String := ""

structure QuantConfig (F : Type) [Field F] where
  minCosineSimilarity : F := (985 : Nat) / (1000 : Nat)
  maxRankInversionPct : F := (5 : Nat)

def calculateMse (fp32Logits quantLogits : List F) : F :=
  if fp32Logits.isEmpty ∨ fp32Logits.length ≠ quantLogits.length then 0
  else (fp32Logits.zip quantLogits).foldl (fun sumSqErr (a, b) => sumSqErr + (a - b) * (a - b)) 0 /
    (fp32Logits.length : F)

variable [LinearOrder F]

def calculateCosineSimilarity (libm : Libm F) (fp32Logits quantLogits : List F) : F :=
  if fp32Logits.isEmpty ∨ fp32Logits.length ≠ quantLogits.length then 0
  else
    let (dotProduct, normA, normB) := (fp32Logits.zip quantLogits).foldl
      (fun (dotProduct, normA, normB) (a, b) => (dotProduct + a * b, normA + a * a, normB + b * b)) ((0, 0, 0) : F × F × F)
    if normA ≤ 0 ∨ normB ≤ 0 then 0 else dotProduct / (libm.sqrt normA * libm.sqrt normB)

/-- The comparator of the sorts: greater attributions first. -/
def ranksBefore (attr : List F) (n : Nat) (i j : Fin n) : Bool := decide (attr.getD j 0 < attr.getD i 0)

def rank (algorithm : SortAlgorithm) (attr : List F) (n : Nat) : List (Fin n) :=
  algorithm.sort (ranksBefore attr n) (List.finRange n)

def inversions {n : Nat} (rankA rankB : List (Fin n)) : Nat := (rankA.zip rankB).countP fun (a, b) => a != b

def calculateRankInversionPct (algorithm : SortAlgorithm) (fp32Attr quantAttr : List F) : F :=
  if fp32Attr.isEmpty ∨ fp32Attr.length ≠ quantAttr.length then 0
  else
    let n := fp32Attr.length
    (inversions (rank algorithm fp32Attr n) (rank algorithm quantAttr n) : F) / (n : F) * (100 : Nat)

def summaryReport (libm : Libm F) (config : QuantConfig F) (m : QuantDriftMetrics F) : String :=
  "Multi-Silicon Drift [" ++ m.backendName ++ " (" ++ m.precisionType ++ ")]: " ++
  "Cosine Similarity=" ++ libm.fixed 4 m.cosineSimilarity ++ " (Limit: " ++ libm.fixed 4 config.minCosineSimilarity ++
  ") | " ++
  "MSE=" ++ libm.fixed 4 m.meanSquaredError ++ " | " ++
  "MRD XAI Rank Inversion=" ++ libm.fixed 2 m.rankInversionPct ++ "% | " ++
  "Latency=" ++ libm.fixed 2 m.avgLatencyUs ++ "us [" ++
  (if m.precisionSlaSatisfied then "\x1b[1;32m[PASSED] Quant Precision Retained\x1b[0m"
    else "\x1b[1;31m[FAILED] Quant Drift Breach\x1b[0m") ++ "]"

def evaluateBackendDrift (libm : Libm F) (algorithm : SortAlgorithm) (config : QuantConfig F)
    (backendName precisionType : String) (fp32Logits quantLogits fp32XaiAttr quantXaiAttr : List F) (latencyUs : F) :
    QuantDriftMetrics F :=
  let cosineSimilarity := calculateCosineSimilarity libm fp32Logits quantLogits
  let rankInversionPct := calculateRankInversionPct algorithm fp32XaiAttr quantXaiAttr
  let m : QuantDriftMetrics F :=
    { backendName
      precisionType
      avgLatencyUs := latencyUs
      cosineSimilarity
      meanSquaredError := calculateMse fp32Logits quantLogits
      rankInversionPct
      precisionSlaSatisfied :=
        decide (config.minCosineSimilarity ≤ cosineSimilarity) && decide (rankInversionPct ≤ config.maxRankInversionPct)
      valid := true }
  { m with summaryReport := summaryReport libm config m }

/-! ## When the ranks agree -/

theorem ranksBefore_order (attr : List F) (n : Nat) : StrictWeakOrder (ranksBefore attr n) :=
  strictWeakOrder_key fun index : Fin n => attr.getD index 0

theorem length_rank (algorithm : SortAlgorithm) (attr : List F) (n : Nat) : (rank algorithm attr n).length = n := by
  rw [rank, (algorithm.perm _ _ (ranksBefore_order attr n)).length_eq, List.length_finRange]

theorem inversions_eq_zero_iff {n : Nat} {rankA rankB : List (Fin n)} (long : rankA.length = rankB.length) :
    inversions rankA rankB = 0 ↔ rankA = rankB := by
  induction rankA generalizing rankB with
  | nil =>
    have nothing := List.eq_nil_of_length_eq_zero long.symm
    simp [inversions, nothing]
  | cons a rest ih =>
    cases rankB with
    | nil => cases long
    | cons b rest' =>
      have rest_iff := ih (Nat.succ.inj long)
      unfold inversions at rest_iff ⊢
      rw [List.zip_cons_cons, List.cons.injEq, ← rest_iff]
      by_cases same : a = b
      · rw [List.countP_cons_of_neg (by simpa using same)]
        exact (and_iff_right same).symm
      · rw [List.countP_cons_of_pos (by simpa using same)]
        simp [same]

/-- The vectors put the same attributions strictly before each other: what is tied in one of them
is tied in the other. -/
def SameOrder (fp32Attr quantAttr : List F) : Prop :=
  ∀ i j, i < fp32Attr.length → j < fp32Attr.length →
    (fp32Attr.getD j 0 < fp32Attr.getD i 0 ↔ quantAttr.getD j 0 < quantAttr.getD i 0)

/-- Quantization has not exchanged two attributions, though it may have merged them. -/
def Concordant (fp32Attr quantAttr : List F) : Prop :=
  fp32Attr.length = quantAttr.length ∧
    ∀ i j, i < fp32Attr.length → j < fp32Attr.length → fp32Attr.getD j 0 < fp32Attr.getD i 0 →
      quantAttr.getD j 0 ≤ quantAttr.getD i 0

theorem sameOrder_iff (fp32Attr quantAttr : List F) :
    SameOrder fp32Attr quantAttr ↔ ranksBefore fp32Attr fp32Attr.length = ranksBefore quantAttr fp32Attr.length := by
  constructor
  · intro same
    funext i j
    exact decide_eq_decide.mpr (same i j i.isLt j.isLt)
  · intro same i j inside inside'
    have here := congrFun (congrFun same ⟨i, inside⟩) ⟨j, inside'⟩
    exact decide_eq_decide.mp here

theorem rank_eq_iff (fp32Attr quantAttr : List F) :
    (∀ algorithm, rank algorithm fp32Attr fp32Attr.length = rank algorithm quantAttr fp32Attr.length) ↔
      SameOrder fp32Attr quantAttr := by
  rw [sameOrder_iff]
  constructor
  · intro alike
    have order := ranksBefore_order fp32Attr fp32Attr.length
    have order' := ranksBefore_order quantAttr fp32Attr.length
    funext i j
    rw [Bool.eq_iff_iff]
    constructor
    · exact before_of_sort_eq order order' alike (List.mem_finRange i) (List.mem_finRange j)
    · exact before_of_sort_eq order' order (fun algorithm => (alike algorithm).symm) (List.mem_finRange i) (List.mem_finRange j)
  · intro same algorithm
    rw [rank, rank, same]

/-! ## Two attributions -/

theorem perm_two {order : List (Fin 2)} (perm : order.Perm (List.finRange 2)) : order = [0, 1] ∨ order = [1, 0] := by
  have long := perm.length_eq
  have nodup := perm.nodup_iff.mpr (List.nodup_finRange 2)
  have ordered : ∀ a b : Fin 2, a ≠ b → [a, b] = [0, 1] ∨ [a, b] = [1, 0] := by decide
  match order, long with
  | [a, b], _ => exact ordered a b (by simpa using nodup)

theorem rank_two (algorithm : SortAlgorithm) (attr : List F) : rank algorithm attr 2 = [0, 1] ∨ rank algorithm attr 2 = [1, 0] :=
  perm_two (algorithm.perm _ _ (ranksBefore_order attr 2))

theorem rank_ascending (algorithm : SortAlgorithm) {attr : List F} (ascending : attr.getD 0 0 < attr.getD 1 0) :
    rank algorithm attr 2 = [1, 0] := by
  rcases rank_two algorithm attr with kept | swapped
  · have pair : [0, 1].Sublist (rank algorithm attr 2) := by rw [kept]
    have not_before := not_before_of_pair algorithm (ranksBefore_order attr 2) pair
    exact absurd ascending (of_decide_eq_false not_before)
  · exact swapped

theorem rank_descending (algorithm : SortAlgorithm) {attr : List F} (descending : attr.getD 1 0 < attr.getD 0 0) :
    rank algorithm attr 2 = [0, 1] := by
  rcases rank_two algorithm attr with kept | swapped
  · exact kept
  · have pair : [1, 0].Sublist (rank algorithm attr 2) := by rw [swapped]
    have not_before := not_before_of_pair algorithm (ranksBefore_order attr 2) pair
    exact absurd descending (of_decide_eq_false not_before)

/-! ## The percentage -/

variable [IsStrictOrderedRing F]

theorem calculateRankInversionPct_eq_zero_iff (algorithm : SortAlgorithm) {fp32Attr quantAttr : List F}
    (nonempty : fp32Attr ≠ []) (long : fp32Attr.length = quantAttr.length) :
    calculateRankInversionPct algorithm fp32Attr quantAttr = 0 ↔
      rank algorithm fp32Attr fp32Attr.length = rank algorithm quantAttr fp32Attr.length := by
  have guard : ¬(fp32Attr.isEmpty = true ∨ fp32Attr.length ≠ quantAttr.length) := by
    simp [nonempty, long]
  have count : (fp32Attr.length : F) ≠ 0 := by
    rw [Nat.cast_ne_zero]
    exact (List.length_pos_iff.mpr nonempty).ne'
  have hundred : ((100 : Nat) : F) ≠ 0 := by norm_num
  rw [calculateRankInversionPct, if_neg guard]
  dsimp only
  rw [mul_eq_zero_iff_right hundred, div_eq_zero_iff, or_iff_left count, Nat.cast_eq_zero, inversions_eq_zero_iff]
  rw [length_rank, length_rank]

/-- Whatever the sorting algorithm is, no rank is inverted: exactly for vectors with the same strict
order. A tie in one of them that is none in the other is an inversion for some algorithm. -/
theorem no_rank_inversion_iff (fp32Attr quantAttr : List F) :
    (∀ algorithm, calculateRankInversionPct algorithm fp32Attr quantAttr = 0) ↔
      fp32Attr.length ≠ quantAttr.length ∨ SameOrder fp32Attr quantAttr := by
  by_cases long : fp32Attr.length = quantAttr.length
  · by_cases empty : fp32Attr = []
    · apply iff_of_true
      · intro algorithm
        simp [calculateRankInversionPct, empty]
      · right
        intro i j inside
        rw [empty] at inside
        cases inside
    · simp only [calculateRankInversionPct_eq_zero_iff _ empty long, rank_eq_iff, long, ne_eq, not_true_eq_false, false_or]
  · apply iff_of_true _ (.inl long)
    intro algorithm
    rw [calculateRankInversionPct, if_pos (.inr long)]

theorem no_rank_inversion_iff_scaled :
    SameOrder [3, 1, 2] [6, 2, (4 : ℝ)] ∧
      ∀ algorithm, calculateRankInversionPct algorithm [3, 1, 2] [6, 2, (4 : ℝ)] = 0 := by
  have same : SameOrder [3, 1, 2] [6, 2, (4 : ℝ)] := by
    intro i j inside inside'
    have bound : i < 3 := inside
    have bound' : j < 3 := inside'
    interval_cases i <;> interval_cases j <;> norm_num
  exact ⟨same, (no_rank_inversion_iff [3, 1, 2] [6, 2, (4 : ℝ)]).mpr (.inr same)⟩

/-- Two attributions that the quantization merges: every algorithm puts the tie in one order, and
one of the two vectors it came from has the other. -/
theorem merged_attributions_inverted :
    Concordant [1, 2] [0, (0 : ℝ)] ∧ Concordant [2, 1] [0, (0 : ℝ)] ∧
      ∀ algorithm, calculateRankInversionPct algorithm [1, 2] [0, (0 : ℝ)] = 100 ∨
        calculateRankInversionPct algorithm [2, 1] [0, (0 : ℝ)] = 100 := by
  have merged (i : Nat) : [0, (0 : ℝ)].getD i 0 = 0 := by
    match i with
    | 0 | 1 => rfl
    | rest + 2 => rfl
  have concordant (fp32Attr : List ℝ) (two : fp32Attr.length = 2) : Concordant fp32Attr [0, (0 : ℝ)] :=
    ⟨two, fun i j _ _ _ => by rw [merged, merged]⟩
  refine ⟨concordant _ rfl, concordant _ rfl, ?_⟩
  intro algorithm
  rcases rank_two algorithm [0, (0 : ℝ)] with kept | swapped
  · left
    have ascending : rank algorithm [1, (2 : ℝ)] 2 = [1, 0] := rank_ascending algorithm (by norm_num)
    simp [calculateRankInversionPct, ascending, kept, inversions]
  · right
    have descending : rank algorithm [2, (1 : ℝ)] 2 = [0, 1] := rank_descending algorithm (by norm_num)
    simp [calculateRankInversionPct, descending, swapped, inversions]

end SentinelLab.QuantProfiler
