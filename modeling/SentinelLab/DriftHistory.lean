import SentinelLab.DriftProfiler

/-! The drift metrics as a function of the last score of every cell, whatever calls led to it. -/

namespace SentinelLab.DriftHistory
open DriftProfiler Library.FloatingPoint

/-! ## The last scores -/

/-- The score was recorded for the cell, and no other one and no reset came after it. -/
def LastScore {F : Type} (calls : List (Call F)) (i j : BitVec 64) (score : F) : Prop :=
  ∃ before after, calls = before ++ Call.recordTaskScore i j score :: after ∧ Call.reset ∉ after ∧
    ∀ later, Call.recordTaskScore i j later ∉ after

def scores {F : Type} (calls : List (Call F)) (i j : BitVec 64) : Option F :=
  calls.foldl (fun last call => match call with
    | .recordTaskScore taskI taskJ score => if i = taskI ∧ j = taskJ then some score else last
    | .reset => none) none

section
variable {F : Type} {calls others : List (Call F)} {i j taskI taskJ : BitVec 64} {score s : F}

theorem scores_append_record :
    scores (calls ++ [.recordTaskScore taskI taskJ score]) i j =
      if i = taskI ∧ j = taskJ then some score else scores calls i j := by
  simp [scores]

theorem scores_append_reset : scores (calls ++ [.reset]) i j = none := by
  simp [scores]

theorem lastScore_append_reset : ¬LastScore (calls ++ [.reset]) i j s := by
  rintro ⟨before, after, split, kept, _⟩
  rcases last_or_earlier split with ⟨same, _⟩ | ⟨earlier, _, rfl⟩
  · cases same
  · simp at kept

theorem lastScore_append_record :
    LastScore (calls ++ [.recordTaskScore taskI taskJ score]) i j s ↔
      if i = taskI ∧ j = taskJ then s = score else LastScore calls i j s := by
  constructor
  · rintro ⟨before, after, split, kept, final⟩
    rcases last_or_earlier split with ⟨same, _⟩ | ⟨earlier, prior, rfl⟩
    · cases same
      rw [if_pos ⟨rfl, rfl⟩]
    · rw [if_neg]
      · refine ⟨before, earlier, prior, ?_, ?_⟩
        · exact fun found => kept (by simp [found])
        · exact fun later found => final later (by simp [found])
      · rintro ⟨rfl, rfl⟩
        exact final score (by simp)
  · split
    next same =>
      rintro rfl
      rw [same.1, same.2]
      exact ⟨calls, [], rfl, List.not_mem_nil, fun _ => List.not_mem_nil⟩
    next different =>
      rintro ⟨before, after, rfl, kept, final⟩
      refine ⟨before, after ++ [.recordTaskScore taskI taskJ score], by simp, by simpa using kept, ?_⟩
      intro later found
      rcases List.mem_append.mp found with earlier | last
      · exact final later earlier
      · cases List.mem_singleton.mp last
        exact different ⟨rfl, rfl⟩

theorem scores_eq_some_iff : scores calls i j = some s ↔ LastScore calls i j s := by
  induction calls using List.reverseRecOn with
  | nil => simp [scores, LastScore]
  | append_singleton calls call ih =>
    cases call with
    | recordTaskScore taskI taskJ score =>
      rw [scores_append_record, lastScore_append_record, ← ih]
      split
      · rw [Option.some.injEq, eq_comm]
      · exact Iff.rfl
    | reset => exact iff_of_false (by rw [scores_append_reset]; nofun) lastScore_append_reset

theorem scores_swap (before after : List (Call F)) (different : ¬(i = taskI ∧ j = taskJ)) :
    scores (before ++ .recordTaskScore i j s :: .recordTaskScore taskI taskJ score :: after) =
      scores (before ++ .recordTaskScore taskI taskJ score :: .recordTaskScore i j s :: after) := by
  funext row column
  unfold scores
  simp only [List.foldl_append, List.foldl_cons]
  congr 1
  by_cases first : row = i ∧ column = j
  · have second : ¬(row = taskI ∧ column = taskJ) := by
      rintro ⟨rfl, rfl⟩
      exact different ⟨first.1.symm, first.2.symm⟩
    rw [if_pos first, if_neg second, if_pos first]
  · rw [if_neg first, if_neg first]

theorem cell_afterCalls : cell (afterCalls calls) i j = scores calls i j := by
  induction calls using List.reverseRecOn with
  | nil => rfl
  | append_singleton calls call ih =>
    rw [afterCalls_append]
    cases call with
    | recordTaskScore taskI taskJ score => rw [scores_append_record, Call.apply, cell_recordTaskScore, ih]
    | reset => rw [scores_append_reset, Call.apply, reset, cell_empty]

/-! ## What the metrics read -/

structure LargestIndex (S : BitVec 64 → BitVec 64 → Option F) (top : BitVec 64) : Prop where
  occurs : ∃ i j, (S i j).isSome ∧ (top = i ∨ top = j)
  largest : ∀ i j, (S i j).isSome → i ≤ top ∧ j ≤ top

theorem topIndex_iff (top : BitVec 64) : TopIndex calls top ↔ LargestIndex (scores calls) top := by
  have recorded (i j : BitVec 64) : Recorded calls i j ↔ (scores calls i j).isSome := by
    rw [← cell_isSome_iff, cell_afterCalls]
  constructor
  · rintro ⟨⟨i, j, in_cell, same⟩, greatest⟩
    exact ⟨⟨i, j, (recorded i j).mp in_cell, same⟩, fun i j stored => greatest i j ((recorded i j).mpr stored)⟩
  · rintro ⟨⟨i, j, stored, same⟩, largest⟩
    exact ⟨⟨i, j, (recorded i j).mpr stored, same⟩, fun i j in_cell => largest i j ((recorded i j).mp in_cell)⟩

theorem rows_empty_iff : (afterCalls calls).rows.entries = [] ↔ ∀ i j, scores calls i j = none := by
  constructor
  · intro nothing i j
    rw [← cell_afterCalls, ← Option.not_isSome_iff_eq_none]
    intro stored
    have member := (mem_indices i).mpr ⟨i, j, stored, .inl rfl⟩
    rw [indices, nothing] at member
    cases member
  · intro nothing
    by_contra some_row
    obtain ⟨i, j, in_cell, _⟩ := (topIndex_maxIdx some_row).recorded
    have stored := cell_isSome_iff.mpr in_cell
    rw [cell_afterCalls, nothing] at stored
    cases stored

theorem maxIdx_eq {top : BitVec 64} (largest : LargestIndex (scores calls) top) :
    maxIdx (afterCalls calls) = top := ((topIndex_iff top).mpr largest).eq.2

theorem exists_largestIndex (some_score : ¬∀ i j, scores calls i j = none) :
    LargestIndex (scores calls) (maxIdx (afterCalls calls)) :=
  (topIndex_iff _).mp (topIndex_maxIdx fun nothing => some_score (rows_empty_iff.mp nothing))

theorem LargestIndex.below {top : BitVec 64} (largest : LargestIndex (scores calls) top)
    (indices : ∀ i j score, Call.recordTaskScore i j score ∈ calls → i.toNat < 2 ^ 64 - 1 ∧ j.toNat < 2 ^ 64 - 1) :
    top.toNat < 2 ^ 64 - 1 := by
  obtain ⟨i, j, stored, same⟩ := largest.occurs
  obtain ⟨score, found⟩ := Option.isSome_iff_exists.mp stored
  obtain ⟨before, after, split, _⟩ := scores_eq_some_iff.mp found
  have bounds := indices i j score (by simp [split])
  rcases same with rfl | rfl
  · exact bounds.1
  · exact bounds.2

end

/-! ## The metrics -/

section
variable {F : Type} [Field F]

def denseEntry (S : BitVec 64 → BitVec 64 → Option F) (i j : Nat) : F :=
  (S (BitVec.ofNat 64 i) (BitVec.ofNat 64 j)).getD 0

theorem foldl_range (term : Nat → F) (n : Nat) :
    (List.range n).foldl (fun sum j => sum + term j) 0 = ∑ j ∈ Finset.range n, term j := by
  induction n with
  | zero => rfl
  | succ n ih => rw [List.range_succ, List.foldl_append, ih, Finset.sum_range_succ, List.foldl_cons, List.foldl_nil]

variable {calls : List (Call F)} {n : Nat}

theorem entry_eq {i j : Nat} (row : i < n) (column : j < n) :
    entry (taskMatrix (afterCalls calls) n) i j = denseEntry (scores calls) i j := by
  rw [entry_taskMatrix _ row column, cell_afterCalls, denseEntry]

theorem backwardTransfer_eq :
    backwardTransfer (taskMatrix (afterCalls calls) n) n =
      (∑ j ∈ Finset.range (n - 1), (denseEntry (scores calls) (n - 1) j - denseEntry (scores calls) j j)) /
        ((n - 1 : Nat) : F) := by
  unfold backwardTransfer
  rw [foldl_range]
  congr 1
  apply Finset.sum_congr rfl
  intro j member
  have below := Finset.mem_range.mp member
  rw [entry_eq (by omega) (by omega), entry_eq (by omega) (by omega)]

theorem forwardTransfer_eq :
    forwardTransfer (taskMatrix (afterCalls calls) n) n =
      (∑ j ∈ Finset.Ico 1 n, (denseEntry (scores calls) (j - 1) j - (50 : Nat) / (100 : Nat))) /
        ((n - 1 : Nat) : F) := by
  unfold forwardTransfer
  rw [List.range'_eq_map_range, List.foldl_map, foldl_range, Finset.sum_Ico_eq_sum_range]
  congr 1
  apply Finset.sum_congr rfl
  intro j member
  have below := Finset.mem_range.mp member
  rw [entry_eq (by omega) (by omega)]

theorem taskMatrix_eq : taskMatrix (afterCalls calls) n =
    (List.range n).map fun i => (List.range n).map fun j => denseEntry (scores calls) i j := by
  unfold taskMatrix denseEntry
  simp only [cell_afterCalls]

variable [LinearOrder F]

/-- What the metrics say of a map of scores whose largest index is `n - 1`. -/
structure Describes (S : BitVec 64 → BitVec 64 → Option F) (config : DriftConfig F) (n : Nat) (m : DriftMetrics F) :
    Prop where
  valid : m.valid = true
  numTasks : m.numTasks.toNat = n
  matrix : m.taskMatrixR = (List.range n).map fun i => (List.range n).map fun j => denseEntry S i j
  backward : 2 ≤ n → m.backwardTransferBwt =
    1 / ((n - 1 : Nat) : F) * ∑ j ∈ Finset.range (n - 1), (denseEntry S (n - 1) j - denseEntry S j j)
  forward : 2 ≤ n → m.forwardTransferFwt =
    1 / ((n - 1 : Nat) : F) * ∑ j ∈ Finset.Ico 1 n, (denseEntry S (j - 1) j - 1 / 2)
  retention : 2 ≤ n → m.retentionDecayVector = (List.range n).map fun i => denseEntry S i 0
  threshold : 2 ≤ n → (m.bwtThresholdSatisfied = true ↔ config.bwtMinThreshold ≤ m.backwardTransferBwt)

theorem computeDriftMetrics_congr {others : List (Call F)} (same : scores others = scores calls) (libm : Libm F)
    (allocates : Nat → Bool) (config : DriftConfig F) :
    computeDriftMetrics libm allocates config (afterCalls others) =
      computeDriftMetrics libm allocates config (afterCalls calls) := by
  have empties : (afterCalls others).rows.entries.isEmpty = (afterCalls calls).rows.entries.isEmpty := by
    rw [Bool.eq_iff_iff, List.isEmpty_iff, List.isEmpty_iff, rows_empty_iff, rows_empty_iff, same]
  have matrices (n : Nat) : taskMatrix (afterCalls others) n = taskMatrix (afterCalls calls) n := by
    rw [taskMatrix_eq, taskMatrix_eq, same]
  unfold computeDriftMetrics
  rw [empties]
  split
  next empty => rfl
  next some_row =>
    have some_score : ¬∀ i j, scores calls i j = none := by
      rwa [← rows_empty_iff, ← List.isEmpty_iff]
    have tops : maxIdx (afterCalls others) = maxIdx (afterCalls calls) := by
      apply maxIdx_eq
      rw [same]
      exact exists_largestIndex some_score
    rw [tops]
    simp only [matrices]

theorem empty_of_no_score (libm : Libm F) (allocates : Nat → Bool) (config : DriftConfig F)
    (nothing : ∀ i j, scores calls i j = none) :
    ∃ m, computeDriftMetrics libm allocates config (afterCalls calls) = some m ∧ m.valid = false := by
  have empty := List.isEmpty_iff.mpr (rows_empty_iff.mpr nothing)
  unfold computeDriftMetrics
  rw [if_pos empty]
  exact ⟨_, rfl, rfl⟩

variable [IsStrictOrderedRing F]

/-- With memory for the matrix, the metrics are those of the last scores. -/
theorem describes_of_largestIndex (libm : Libm F) (allocates : Nat → Bool) (config : DriftConfig F) {top : BitVec 64}
    (largest : LargestIndex (scores calls) top) (below : top.toNat < 2 ^ 64 - 1) :
    ((computeDriftMetrics libm allocates config (afterCalls calls)).isSome ↔ allocates (top.toNat + 1)) ∧
      ∀ m, computeDriftMetrics libm allocates config (afterCalls calls) = some m →
        Describes (scores calls) config (top.toNat + 1) m := by
  have counted : (top + 1).toNat = top.toNat + 1 := by
    rw [BitVec.toNat_add]
    exact Nat.mod_eq_of_lt (by simpa using Nat.add_lt_of_lt_sub below)
  obtain ⟨some_row, top_eq⟩ := ((topIndex_iff top).mpr largest).eq
  unfold computeDriftMetrics
  rw [if_neg (by simpa using some_row), top_eq]
  dsimp only
  rw [counted]
  split
  next refused => exact ⟨iff_of_false nofun (by simpa using refused), fun _ => nofun⟩
  next allocated =>
    have enough : allocates (top.toNat + 1) = true := by simpa using allocated
    split
    next single =>
      refine ⟨iff_of_true rfl enough, ?_⟩
      rintro m ⟨⟩
      refine ⟨rfl, counted, taskMatrix_eq, ?_, ?_, ?_, ?_⟩ <;> exact fun several => absurd several (by omega)
    next several =>
      refine ⟨iff_of_true rfl enough, ?_⟩
      rintro m ⟨⟩
      refine ⟨rfl, counted, taskMatrix_eq, fun _ => ?_, fun _ => ?_, fun _ => ?_, fun _ => decide_eq_true_iff⟩
      · rw [one_div_mul_eq_div]
        exact backwardTransfer_eq
      · have baseline : ((50 : Nat) : F) / (100 : Nat) = 1 / 2 := by norm_num
        rw [one_div_mul_eq_div, ← baseline]
        exact forwardTransfer_eq
      · apply List.map_congr_left
        intro i member
        exact entry_eq (List.mem_range.mp member) (Nat.succ_pos _)

/-- For every sequence of records and resets the metrics are a function of the last scores since the reset: none
of them, or those of their dense matrix as far as there is memory for it. Records of distinct cells commute. -/
theorem drift_metrics_of_last_scores (libm : Libm F) (allocates : Nat → Bool) (config : DriftConfig F)
    (calls : List (Call F))
    (indices : ∀ i j score, Call.recordTaskScore i j score ∈ calls → i.toNat < 2 ^ 64 - 1 ∧ j.toNat < 2 ^ 64 - 1) :
    ((∀ i j, scores calls i j = none) →
        ∃ m, computeDriftMetrics libm allocates config (afterCalls calls) = some m ∧ m.valid = false) ∧
      ((¬∀ i j, scores calls i j = none) → ∃ top, LargestIndex (scores calls) top ∧
        ((computeDriftMetrics libm allocates config (afterCalls calls)).isSome ↔ allocates (top.toNat + 1)) ∧
        ∀ m, computeDriftMetrics libm allocates config (afterCalls calls) = some m →
          Describes (scores calls) config (top.toNat + 1) m) ∧
      (∀ others, (∀ i j score, LastScore others i j score ↔ LastScore calls i j score) →
        computeDriftMetrics libm allocates config (afterCalls others) =
          computeDriftMetrics libm allocates config (afterCalls calls)) ∧
      ∀ before after i j score i' j' score', ¬(i = i' ∧ j = j') →
        calls = before ++ .recordTaskScore i j score :: .recordTaskScore i' j' score' :: after →
        computeDriftMetrics libm allocates config
            (afterCalls (before ++ .recordTaskScore i' j' score' :: .recordTaskScore i j score :: after)) =
          computeDriftMetrics libm allocates config (afterCalls calls) := by
  refine ⟨empty_of_no_score libm allocates config, ?_, ?_, ?_⟩
  · intro some_score
    have largest := exists_largestIndex some_score
    exact ⟨_, largest, describes_of_largestIndex libm allocates config largest (largest.below indices)⟩
  · intro others same
    apply computeDriftMetrics_congr
    funext i j
    apply Option.ext
    intro score
    rw [scores_eq_some_iff, scores_eq_some_iff, same]
  · rintro before after i j score i' j' score' different rfl
    exact computeDriftMetrics_congr (scores_swap before after different).symm libm allocates config

end

private def history : List (Call ℝ) :=
  [.recordTaskScore 7 7 1, .reset, .recordTaskScore 0 0 0, .recordTaskScore 1 0 0, .recordTaskScore 0 0 1]

theorem drift_metrics_of_last_scores_two_tasks :
    ∃ top m, LargestIndex (scores history) top ∧
      computeDriftMetrics exact (fun _ => true) {} (afterCalls history) = some m ∧
      Describes (scores history) {} (top.toNat + 1) m := by
  have indices : ∀ i j score, Call.recordTaskScore i j score ∈ history →
      i.toNat < 2 ^ 64 - 1 ∧ j.toNat < 2 ^ 64 - 1 := by
    intro i j score member
    simp only [history, List.mem_cons, Call.recordTaskScore.injEq, reduceCtorEq, List.not_mem_nil, or_false,
      false_or] at member
    rcases member with ⟨rfl, rfl, _⟩ | ⟨rfl, rfl, _⟩ | ⟨rfl, rfl, _⟩ | ⟨rfl, rfl, _⟩ <;> decide
  have some_score : ¬∀ i j, scores history i j = none := by
    intro nothing
    have stored : scores history 1 0 = some 0 := by simp [scores, history]
    rw [nothing] at stored
    cases stored
  obtain ⟨top, largest, returns, describes⟩ :=
    (drift_metrics_of_last_scores exact (fun _ => true) {} history indices).2.1 some_score
  obtain ⟨m, computed⟩ := Option.isSome_iff_exists.mp (returns.mpr rfl)
  exact ⟨top, m, largest, computed, describes m computed⟩

end SentinelLab.DriftHistory
