import SentinelLab.DriftHistory

/-! `TaskMatrixEvaluator`, the script next to `DriftProfiler`: it fills the task matrix of a sequence
of tasks and judges the backward transfer. The numbers are exact. -/

namespace SentinelLab.DriftHarness
open DriftProfiler DriftHistory Library.FloatingPoint

/-! ## The script -/

structure TaskMatrixEvaluator where
  taskSequence : List String :=
    ["dist/datasets/threat_stream_2017.slab", "dist/datasets/threat_stream_2020.slab",
      "dist/datasets/threat_stream_2024.slab"]
  bwtThreshold : ℝ := -((1 : Nat) / (100 : Nat))

/-- The score on task `j` after training on task `i`. -/
noncomputable def score (i j : Nat) : ℝ :=
  if j ≤ i then
    let decay : ℝ := ((i - j : Nat) : ℝ) * ((5 : Nat) / (1000 : Nat))
    max 0 ((995 : Nat) / (1000 : Nat) - decay)
  else (520 : Nat) / (1000 : Nat) + (j : ℝ) * ((5 : Nat) / (100 : Nat))

structure ContinualEvaluation where
  matrixR : List (List ℝ)
  bwt : ℝ
  passed : Bool

noncomputable def runContinualEvaluation (evaluator : TaskMatrixEvaluator) : ContinualEvaluation :=
  let numTasks := evaluator.taskSequence.length
  let matrixR := (List.range numTasks).map fun i => (List.range numTasks).map fun j => score i j
  let bwtSum := ((List.range (numTasks - 1)).map fun j => entry matrixR (numTasks - 1) j - entry matrixR j j).sum
  let bwt := if 1 < numTasks then bwtSum / ((numTasks - 1 : Nat) : ℝ) else 0
  { matrixR, bwt, passed := evaluator.bwtThreshold ≤ bwt }

/-! ## Feeding the profiler -/

/-- The matrix was recorded, in whatever order, and nothing else. -/
def Fed (evaluator : TaskMatrixEvaluator) (calls : List (Call ℝ)) : Prop :=
  ∀ i j : BitVec 64, scores calls i j =
    if i.toNat < evaluator.taskSequence.length ∧ j.toNat < evaluator.taskSequence.length then
      some (score i.toNat j.toNat)
    else none

theorem scores_of_cells (cells : List (BitVec 64 × BitVec 64)) (i j : BitVec 64) :
    scores (cells.map fun cell => Call.recordTaskScore cell.1 cell.2 (score cell.1.toNat cell.2.toNat)) i j =
      if (i, j) ∈ cells then some (score i.toNat j.toNat) else none := by
  induction cells using List.reverseRecOn with
  | nil => rfl
  | append_singleton cells cell ih =>
    rw [List.map_append, List.map_singleton, scores_append_record, ih]
    by_cases same : i = cell.1 ∧ j = cell.2
    · have listed : (i, j) ∈ cells ++ [cell] := by
        rw [same.1, same.2]
        exact List.mem_append_right _ (List.mem_singleton.mpr rfl)
      rw [if_pos same, if_pos listed, same.1, same.2]
    · have listed : (i, j) ∈ cells ++ [cell] ↔ (i, j) ∈ cells := by
        rw [List.mem_append, List.mem_singleton, or_iff_left]
        intro equal
        exact same ⟨congrArg Prod.fst equal, congrArg Prod.snd equal⟩
      rw [if_neg same]
      simp only [listed]

def cellsOf (numTasks : Nat) : List (BitVec 64 × BitVec 64) :=
  (List.range numTasks).flatMap fun i => (List.range numTasks).map fun j => (BitVec.ofNat 64 i, BitVec.ofNat 64 j)

theorem mem_cellsOf {numTasks : Nat} (fits : numTasks < 2 ^ 64) (i j : BitVec 64) :
    (i, j) ∈ cellsOf numTasks ↔ i.toNat < numTasks ∧ j.toNat < numTasks := by
  simp only [cellsOf, List.mem_flatMap, List.mem_map, List.mem_range, Prod.mk.injEq]
  constructor
  · rintro ⟨row, row_inside, column, column_inside, rfl, rfl⟩
    rw [BitVec.toNat_ofNat, BitVec.toNat_ofNat, Nat.mod_eq_of_lt (by omega), Nat.mod_eq_of_lt (by omega)]
    exact ⟨row_inside, column_inside⟩
  · intro inside
    exact ⟨i.toNat, inside.1, j.toNat, inside.2, BitVec.ofNat_toNat .. |>.trans (BitVec.setWidth_eq i),
      BitVec.ofNat_toNat .. |>.trans (BitVec.setWidth_eq j)⟩

theorem fed_of_perm (evaluator : TaskMatrixEvaluator) (fits : evaluator.taskSequence.length < 2 ^ 64)
    {cells : List (BitVec 64 × BitVec 64)} (perm : cells.Perm (cellsOf evaluator.taskSequence.length)) :
    Fed evaluator (cells.map fun cell => Call.recordTaskScore cell.1 cell.2 (score cell.1.toNat cell.2.toNat)) := by
  intro i j
  rw [scores_of_cells]
  simp only [perm.mem_iff, mem_cellsOf fits]

/-! ## The closed form -/

theorem bwt_eq_sum (evaluator : TaskMatrixEvaluator) {numTasks : Nat}
    (counted : evaluator.taskSequence.length = numTasks) (several : 2 ≤ numTasks) :
    (runContinualEvaluation evaluator).bwt =
      1 / ((numTasks - 1 : Nat) : ℝ) * ∑ j ∈ Finset.range (numTasks - 1), (score (numTasks - 1) j - score j j) := by
  have at_cell {i j : Nat} (row : i < numTasks) (column : j < numTasks) :
      entry ((List.range numTasks).map fun i => (List.range numTasks).map fun j => score i j) i j = score i j := by
    simp [entry, row, column]
  unfold runContinualEvaluation
  simp only [counted]
  rw [if_pos (by omega), one_div_mul_eq_div, ← List.toFinset_range, List.sum_toFinset _ List.nodup_range]
  congr 2
  apply List.map_congr_left
  intro j member
  have inside := List.mem_range.mp member
  rw [at_cell (by omega) (by omega), at_cell (by omega) (by omega)]

theorem score_of_le {i j : Nat} (le : j ≤ i) (near : i - j < 200) :
    score i j = 995 / 1000 - ((i - j : Nat) : ℝ) * (5 / 1000) := by
  have distance : ((i - j : Nat) : ℝ) ≤ 199 := by exact_mod_cast Nat.lt_succ_iff.mp near
  rw [score, if_pos le]
  push_cast
  rw [max_eq_right]
  linarith

theorem sum_naturals (n : Nat) : ∑ d ∈ Finset.range n, ((d + 1 : Nat) : ℝ) = n * ((n + 1 : Nat) : ℝ) / 2 := by
  induction n with
  | zero => simp
  | succ n ih =>
    rw [Finset.sum_range_succ, ih]
    push_cast
    ring

/-- With up to 200 tasks no score is cut off at 0, and each task costs a quarter of a percent. -/
theorem bwt_closed_form (evaluator : TaskMatrixEvaluator) {numTasks : Nat}
    (counted : evaluator.taskSequence.length = numTasks) (several : 2 ≤ numTasks) (few : numTasks ≤ 200) :
    (runContinualEvaluation evaluator).bwt = -(numTasks / 400) := by
  have each : ∀ j ∈ Finset.range (numTasks - 1), score (numTasks - 1) j - score j j =
      -(1 / 200) * ((numTasks - 1 - j : Nat) : ℝ) := by
    intro j member
    have inside := Finset.mem_range.mp member
    rw [score_of_le (by omega) (by omega), score_of_le le_rfl (by omega), Nat.sub_self]
    push_cast
    ring
  have triangle : ∑ j ∈ Finset.range (numTasks - 1), ((numTasks - 1 - j : Nat) : ℝ) =
      (numTasks - 1 : Nat) * (numTasks : ℝ) / 2 := by
    obtain ⟨last, rfl⟩ : ∃ last, numTasks = last + 1 := ⟨numTasks - 1, by omega⟩
    rw [Nat.add_sub_cancel]
    have reversed := Finset.sum_range_reflect (fun d => ((d + 1 : Nat) : ℝ)) last
    rw [← sum_naturals, ← reversed]
    apply Finset.sum_congr rfl
    intro j member
    have inside := Finset.mem_range.mp member
    congr 1
    omega
  have positive : (0 : ℝ) < (numTasks - 1 : Nat) := by
    rw [Nat.cast_pos]
    omega
  rw [bwt_eq_sum evaluator counted several, Finset.sum_congr rfl each, ← Finset.mul_sum, triangle]
  field_simp
  norm_num

/-- The scores of tasks that were not trained yet grow by five percent a task. -/
theorem forward_closed_form {numTasks : Nat} (several : 2 ≤ numTasks) :
    1 / ((numTasks - 1 : Nat) : ℝ) * ∑ j ∈ Finset.Ico 1 numTasks, (score (j - 1) j - 1 / 2) =
      2 / 100 + numTasks * (25 / 1000) := by
  obtain ⟨last, rfl⟩ : ∃ last, numTasks = last + 1 := ⟨numTasks - 1, by omega⟩
  have each (d : Nat) : score (1 + d - 1) (1 + d) - 1 / 2 = 2 / 100 + 5 / 100 * ((d + 1 : Nat) : ℝ) := by
    rw [score, if_neg (by omega)]
    push_cast
    ring
  have positive : (0 : ℝ) < last := by
    rw [Nat.cast_pos]
    omega
  rw [Finset.sum_Ico_eq_sum_range, Nat.add_sub_cancel, Finset.sum_congr rfl fun d _ => each d, Finset.sum_add_distrib,
    Finset.sum_const, Finset.card_range, ← Finset.mul_sum, sum_naturals, nsmul_eq_mul]
  push_cast
  field_simp
  ring

/-! ## The same verdict -/

theorem largestIndex_of_fed {evaluator : TaskMatrixEvaluator} {calls : List (Call ℝ)} {numTasks : Nat}
    (fed : Fed evaluator calls) (counted : evaluator.taskSequence.length = numTasks) (several : 2 ≤ numTasks)
    (fits : numTasks < 2 ^ 64) : LargestIndex (scores calls) (BitVec.ofNat 64 (numTasks - 1)) := by
  have last : (BitVec.ofNat 64 (numTasks - 1)).toNat = numTasks - 1 := by
    rw [BitVec.toNat_ofNat, Nat.mod_eq_of_lt (by omega)]
  constructor
  · refine ⟨BitVec.ofNat 64 (numTasks - 1), BitVec.ofNat 64 (numTasks - 1), ?_, Or.inl rfl⟩
    rw [fed, last, counted, if_pos (by omega)]
    rfl
  · intro i j stored
    rw [fed, counted] at stored
    split at stored
    next inside =>
      rw [BitVec.le_def, BitVec.le_def, last]
      omega
    next => cases stored

theorem denseEntry_of_fed {evaluator : TaskMatrixEvaluator} {calls : List (Call ℝ)} {numTasks i j : Nat}
    (fed : Fed evaluator calls) (counted : evaluator.taskSequence.length = numTasks) (fits : numTasks < 2 ^ 64)
    (row : i < numTasks) (column : j < numTasks) : denseEntry (scores calls) i j = score i j := by
  have row_eq : (BitVec.ofNat 64 i).toNat = i := by
    rw [BitVec.toNat_ofNat, Nat.mod_eq_of_lt (by omega)]
  have column_eq : (BitVec.ofNat 64 j).toNat = j := by
    rw [BitVec.toNat_ofNat, Nat.mod_eq_of_lt (by omega)]
  rw [denseEntry, fed, row_eq, column_eq, counted, if_pos ⟨row, column⟩]
  rfl

/-- A profiler that was fed the script's matrix computes the script's backward transfer and passes
its verdict; both transfers grow linearly with the number of tasks. -/
theorem profiler_agrees_with_harness (libm : Libm ℝ) (allocates : Nat → Bool) (config : DriftConfig ℝ)
    (evaluator : TaskMatrixEvaluator) (calls : List (Call ℝ)) (several : 2 ≤ evaluator.taskSequence.length)
    (fits : evaluator.taskSequence.length < 2 ^ 64) (memory : allocates evaluator.taskSequence.length = true)
    (fed : Fed evaluator calls) (threshold : config.bwtMinThreshold = evaluator.bwtThreshold) :
    ∃ m, computeDriftMetrics libm allocates config (afterCalls calls) = some m ∧ m.valid = true ∧
      m.taskMatrixR = (runContinualEvaluation evaluator).matrixR ∧
      m.backwardTransferBwt = (runContinualEvaluation evaluator).bwt ∧
      m.bwtThresholdSatisfied = (runContinualEvaluation evaluator).passed ∧
      m.forwardTransferFwt = 2 / 100 + evaluator.taskSequence.length * (25 / 1000) ∧
      (evaluator.taskSequence.length ≤ 200 → m.backwardTransferBwt = -(evaluator.taskSequence.length / 400)) := by
  generalize counted : evaluator.taskSequence.length = numTasks at several fits memory
  have last : (BitVec.ofNat 64 (numTasks - 1)).toNat + 1 = numTasks := by
    rw [BitVec.toNat_ofNat, Nat.mod_eq_of_lt (by omega)]
    omega
  obtain ⟨computes, describes⟩ := describes_of_largestIndex libm allocates config
    (largestIndex_of_fed fed counted several fits) (by omega)
  rw [last] at computes describes
  obtain ⟨m, computed⟩ := Option.isSome_iff_exists.mp (computes.mpr memory)
  have described := describes m computed
  have backward : m.backwardTransferBwt = (runContinualEvaluation evaluator).bwt := by
    rw [described.backward several, bwt_eq_sum evaluator counted several]
    congr 1
    apply Finset.sum_congr rfl
    intro j member
    have inside := Finset.mem_range.mp member
    rw [denseEntry_of_fed fed counted fits (by omega) (by omega), denseEntry_of_fed fed counted fits (by omega) (by omega)]
  refine ⟨m, computed, described.valid, ?_, backward, ?_, ?_, ?_⟩
  · rw [described.matrix, runContinualEvaluation, counted]
    apply List.map_congr_left
    intro i row
    apply List.map_congr_left
    intro j column
    exact denseEntry_of_fed fed counted fits (List.mem_range.mp row) (List.mem_range.mp column)
  · rw [Bool.eq_iff_iff, described.threshold several, threshold, backward]
    exact decide_eq_true_iff.symm
  · rw [described.forward several, ← forward_closed_form several]
    congr 1
    apply Finset.sum_congr rfl
    intro j member
    have inside := Finset.mem_Ico.mp member
    rw [denseEntry_of_fed fed counted fits (by omega) (by omega)]
  · intro few
    rw [backward]
    exact bwt_closed_form evaluator counted several few

theorem profiler_agrees_with_harness_default :
    ∃ m, computeDriftMetrics exact (fun _ => true) {}
        (afterCalls ((cellsOf 3).reverse.map fun cell =>
          Call.recordTaskScore cell.1 cell.2 (score cell.1.toNat cell.2.toNat))) = some m ∧
      m.backwardTransferBwt = (runContinualEvaluation {}).bwt ∧ m.backwardTransferBwt = -((3 : Nat) / 400) := by
  obtain ⟨m, computed, -, -, agrees, -, -, closed⟩ := profiler_agrees_with_harness exact (fun _ => true) {} {}
    ((cellsOf 3).reverse.map fun cell => Call.recordTaskScore cell.1 cell.2 (score cell.1.toNat cell.2.toNat))
    (by decide) (by decide) rfl (fed_of_perm {} (by decide) (List.reverse_perm _)) rfl
  exact ⟨m, computed, agrees, closed (by decide)⟩

end SentinelLab.DriftHarness
