import SentinelLab.Library.FloatingPoint

/-! The task matrix of `DriftProfiler` over an exact number field. Scores are recorded sparsely
under `size_t` indices; the metrics read a dense matrix whose size is the greatest index plus 1. -/

namespace SentinelLab.DriftProfiler
open Library.FloatingPoint

variable {F : Type}

/-- `matrix_raw_`: `operator[]` makes a row only to store a score into it. -/
structure MatrixRaw (F : Type) where
  rows : AList fun _ : BitVec 64 => AList fun _ : BitVec 64 => F
  nonempty : ∀ i row, rows.lookup i = some row → row.entries ≠ []

def MatrixRaw.empty : MatrixRaw F where
  rows := ∅
  nonempty := by
    intro i row found
    cases found

def cell (matrixRaw : MatrixRaw F) (i j : BitVec 64) : Option F := (matrixRaw.rows.lookup i).bind (·.lookup j)

def recordTaskScore (matrixRaw : MatrixRaw F) (taskI taskJ : BitVec 64) (score : F) : MatrixRaw F where
  rows := matrixRaw.rows.insert taskI (((matrixRaw.rows.lookup taskI).getD ∅).insert taskJ score)
  nonempty := by
    intro i row found
    by_cases same : i = taskI
    · rw [same, AList.lookup_insert] at found
      obtain rfl := Option.some.inj found
      simp [AList.insert]
    · rw [AList.lookup_insert_ne same] at found
      exact matrixRaw.nonempty i row found

def reset (_ : MatrixRaw F) : MatrixRaw F := .empty

def indices (matrixRaw : MatrixRaw F) : List (BitVec 64) :=
  matrixRaw.rows.entries.flatMap fun row => row.1 :: row.2.entries.map fun entry => entry.1

def maxIdx (matrixRaw : MatrixRaw F) : BitVec 64 := (indices matrixRaw).foldl stdMax 0

/-! ## Sequences of calls -/

inductive Call (F : Type) where
  | recordTaskScore (taskI taskJ : BitVec 64) (score : F)
  | reset

def Call.apply (matrixRaw : MatrixRaw F) : Call F → MatrixRaw F
  | .recordTaskScore taskI taskJ score => DriftProfiler.recordTaskScore matrixRaw taskI taskJ score
  | .reset => DriftProfiler.reset matrixRaw

def afterCalls (calls : List (Call F)) : MatrixRaw F := calls.foldl Call.apply .empty

/-- A score was recorded for the cell, and no reset came after it. -/
def Recorded (calls : List (Call F)) (i j : BitVec 64) : Prop :=
  ∃ before score after, calls = before ++ Call.recordTaskScore i j score :: after ∧ Call.reset ∉ after

variable {calls : List (Call F)} {matrixRaw : MatrixRaw F} {i j taskI taskJ : BitVec 64} {score : F}

theorem cell_empty : cell (.empty : MatrixRaw F) i j = none := rfl

theorem cell_recordTaskScore :
    cell (recordTaskScore matrixRaw taskI taskJ score) i j =
      if i = taskI ∧ j = taskJ then some score else cell matrixRaw i j := by
  unfold cell recordTaskScore
  by_cases same_row : i = taskI
  · subst same_row
    rw [AList.lookup_insert, Option.bind_some]
    by_cases same_column : j = taskJ
    · rw [if_pos ⟨rfl, same_column⟩, same_column, AList.lookup_insert]
    · rw [if_neg fun both => same_column both.2, AList.lookup_insert_ne same_column]
      cases matrixRaw.rows.lookup i with
      | none => rfl
      | some row => rfl
  · rw [if_neg fun both => same_row both.1, AList.lookup_insert_ne same_row]

theorem afterCalls_append (calls : List (Call F)) (call : Call F) :
    afterCalls (calls ++ [call]) = call.apply (afterCalls calls) := by
  simp [afterCalls, Call.apply]

theorem last_or_earlier {before after : List (Call F)} {made last : Call F}
    (split : calls ++ [last] = before ++ made :: after) :
    (made = last ∧ after = []) ∨ ∃ earlier, calls = before ++ made :: earlier ∧ after = earlier ++ [last] := by
  rcases List.eq_nil_or_concat after with rfl | ⟨earlier, final, rfl⟩
  · have same := List.append_inj_right' split rfl
    exact .inl ⟨(List.singleton_inj.mp same).symm, rfl⟩
  · rw [List.concat_eq_append, ← List.cons_append, ← List.append_assoc] at split
    have same := List.append_inj_right' split rfl
    rw [List.concat_eq_append, ← same]
    exact .inr ⟨earlier, List.append_inj_left' split rfl, rfl⟩

theorem recorded_append_record :
    Recorded (calls ++ [.recordTaskScore taskI taskJ score]) i j ↔ (i = taskI ∧ j = taskJ) ∨ Recorded calls i j := by
  constructor
  · rintro ⟨before, value, after, split, kept⟩
    rcases last_or_earlier split with ⟨same, _⟩ | ⟨earlier, prior, rfl⟩
    · cases same
      exact .inl ⟨rfl, rfl⟩
    · exact .inr ⟨before, value, earlier, prior, fun found => kept (by simp [found])⟩
  · rintro (⟨rfl, rfl⟩ | ⟨before, value, after, rfl, kept⟩)
    · exact ⟨calls, score, [], rfl, by simp⟩
    · exact ⟨before, value, after ++ [.recordTaskScore taskI taskJ score], by simp, by simpa using kept⟩

theorem not_recorded_append_reset : ¬Recorded (calls ++ [.reset]) i j := by
  rintro ⟨before, value, after, split, kept⟩
  rcases last_or_earlier split with ⟨same, _⟩ | ⟨earlier, _, rfl⟩
  · cases same
  · simp at kept

theorem cell_isSome_iff : (cell (afterCalls calls) i j).isSome ↔ Recorded calls i j := by
  induction calls using List.reverseRecOn with
  | nil => exact iff_of_false (by simp [afterCalls, cell_empty]) (by simp [Recorded])
  | append_singleton calls call ih =>
    rw [afterCalls_append]
    cases call with
    | recordTaskScore taskI taskJ score =>
      rw [recorded_append_record, ← ih, Call.apply, cell_recordTaskScore]
      by_cases same : i = taskI ∧ j = taskJ <;> simp [same]
    | reset => exact iff_of_false (by simp [Call.apply, reset, cell_empty]) not_recorded_append_reset

/-! ## The number of tasks -/

theorem mem_indices (index : BitVec 64) :
    index ∈ indices matrixRaw ↔ ∃ i j, (cell matrixRaw i j).isSome ∧ (index = i ∨ index = j) := by
  simp only [indices, List.mem_flatMap, List.mem_cons, List.mem_map]
  constructor
  · rintro ⟨⟨i, row⟩, stored, index_eq⟩
    have found := AList.mem_lookup_iff.mpr stored
    rcases index_eq with is_row | ⟨⟨j, score⟩, in_row, is_column⟩
    · obtain ⟨⟨j, score⟩, in_row⟩ := List.exists_mem_of_ne_nil _ (matrixRaw.nonempty i row found)
      exact ⟨i, j, by simp [cell, Option.mem_def.mp found, Option.mem_def.mp (AList.mem_lookup_iff.mpr in_row)], .inl is_row⟩
    · exact ⟨i, j, by simp [cell, Option.mem_def.mp found, Option.mem_def.mp (AList.mem_lookup_iff.mpr in_row)],
        .inr is_column.symm⟩
  · rintro ⟨i, j, stored, index_eq⟩
    obtain ⟨score, found⟩ := Option.isSome_iff_exists.mp stored
    obtain ⟨row, row_found, column_found⟩ := Option.bind_eq_some_iff.mp found
    refine ⟨⟨i, row⟩, AList.mem_lookup_iff.mp row_found, ?_⟩
    rcases index_eq with is_row | is_column
    · exact .inl is_row
    · exact .inr ⟨⟨j, score⟩, AList.mem_lookup_iff.mp column_found, is_column.symm⟩

theorem toNat_foldl_stdMax (entries : List (BitVec 64)) (seed : BitVec 64) :
    (entries.foldl stdMax seed).toNat = (entries.map BitVec.toNat).foldl stdMax seed.toNat := by
  induction entries generalizing seed with
  | nil => rfl
  | cons first rest ih =>
    have step : (stdMax seed first).toNat = stdMax seed.toNat first.toNat := by
      unfold stdMax
      exact apply_ite BitVec.toNat _ _ _
    rw [List.foldl_cons, ih, step, List.map_cons, List.foldl_cons]

theorem foldl_stdMax_bound (entries : List (BitVec 64)) (seed : BitVec 64) :
    entries.foldl stdMax seed ∈ seed :: entries ∧ ∀ index ∈ seed :: entries, index ≤ entries.foldl stdMax seed := by
  obtain ⟨reached, bound⟩ := foldl_stdMax_isGreatest seed.toNat (entries.map BitVec.toNat)
  rw [← toNat_foldl_stdMax] at reached bound
  constructor
  · rcases reached with same | later
    · rw [BitVec.eq_of_toNat_eq same]
      exact List.mem_cons_self
    · obtain ⟨index, inside, same⟩ := List.mem_map.mp later
      rw [← BitVec.eq_of_toNat_eq same]
      exact List.mem_cons_of_mem _ inside
  · intro index member
    rcases List.mem_cons.mp member with rfl | later
    · exact bound (Set.mem_insert ..)
    · exact bound (.inr (List.mem_map_of_mem later))

/-- The greatest index that was recorded since the last reset, as a row or as a column. -/
structure TopIndex (calls : List (Call F)) (top : BitVec 64) : Prop where
  recorded : ∃ i j, Recorded calls i j ∧ (top = i ∨ top = j)
  greatest : ∀ i j, Recorded calls i j → i ≤ top ∧ j ≤ top

theorem topIndex_maxIdx (some_row : (afterCalls calls).rows.entries ≠ []) : TopIndex calls (maxIdx (afterCalls calls)) := by
  obtain ⟨reached, bound⟩ := foldl_stdMax_bound (indices (afterCalls calls)) 0
  have recorded_bound (k : BitVec 64) (found : k ∈ indices (afterCalls calls)) : k ≤ maxIdx (afterCalls calls) :=
    bound k (List.mem_cons_of_mem _ found)
  have greatest : ∀ i j, Recorded calls i j → i ≤ maxIdx (afterCalls calls) ∧ j ≤ maxIdx (afterCalls calls) := by
    intro i j recorded
    have stored := cell_isSome_iff.mpr recorded
    exact ⟨recorded_bound i ((mem_indices i).mpr ⟨i, j, stored, .inl rfl⟩),
      recorded_bound j ((mem_indices j).mpr ⟨i, j, stored, .inr rfl⟩)⟩
  refine ⟨?_, greatest⟩
  -- A maximum of 0 is the seed, but then every index is 0.
  rcases List.mem_cons.mp reached with zero | found
  · obtain ⟨⟨i, row⟩, stored⟩ := List.exists_mem_of_ne_nil _ some_row
    have member : i ∈ indices (afterCalls calls) := List.mem_flatMap.mpr ⟨⟨i, row⟩, stored, List.mem_cons_self⟩
    obtain ⟨r, c, in_cell, _⟩ := (mem_indices i).mp member
    refine ⟨r, c, cell_isSome_iff.mp in_cell, .inl ?_⟩
    have below := (greatest r c (cell_isSome_iff.mp in_cell)).1
    exact BitVec.le_antisymm (by rw [maxIdx, zero]; exact Nat.zero_le _) below
  · obtain ⟨i, j, stored, same⟩ := (mem_indices _).mp found
    exact ⟨i, j, cell_isSome_iff.mp stored, same⟩

theorem TopIndex.eq {top : BitVec 64} (top_index : TopIndex calls top) :
    (afterCalls calls).rows.entries ≠ [] ∧ maxIdx (afterCalls calls) = top := by
  obtain ⟨⟨i, j, recorded, same⟩, greatest⟩ := top_index
  have stored := cell_isSome_iff.mpr recorded
  have some_row : (afterCalls calls).rows.entries ≠ [] := by
    intro nothing
    obtain ⟨score, found⟩ := Option.isSome_iff_exists.mp stored
    obtain ⟨row, row_found, _⟩ := Option.bind_eq_some_iff.mp found
    have member := AList.mem_lookup_iff.mp row_found
    rw [nothing] at member
    cases member
  refine ⟨some_row, ?_⟩
  obtain ⟨⟨i', j', recorded', same'⟩, greatest'⟩ := topIndex_maxIdx some_row
  apply BitVec.le_antisymm
  · rcases same' with is_row | is_column
    · exact is_row ▸ (greatest i' j' recorded').1
    · exact is_column ▸ (greatest i' j' recorded').2
  · rcases same with is_row | is_column
    · exact is_row ▸ (greatest' i j recorded).1
    · exact is_column ▸ (greatest' i j recorded).2

/-! ## The metrics -/

variable [Field F]

structure DriftConfig (F : Type) [Field F] where
  bwtMinThreshold : F := -((1 : Nat) / (100 : Nat))

structure DriftMetrics (F : Type) [Field F] where
  valid : Bool := false
  numTasks : BitVec 64 := 0
  taskMatrixR : List (List F) := []
  backwardTransferBwt : F := 0
  forwardTransferFwt : F := 0
  retentionDecayVector : List F := []
  bwtThresholdSatisfied : Bool := true
  summaryReport : String := ""

def taskMatrix (matrixRaw : MatrixRaw F) (n : Nat) : List (List F) :=
  (List.range n).map fun i => (List.range n).map fun j =>
    (cell matrixRaw (BitVec.ofNat 64 i) (BitVec.ofNat 64 j)).getD 0

def entry (taskMatrixR : List (List F)) (i j : Nat) : F := (taskMatrixR.getD i []).getD j 0

theorem entry_taskMatrix (matrixRaw : MatrixRaw F) {n i j : Nat} (row : i < n) (column : j < n) :
    entry (taskMatrix matrixRaw n) i j = (cell matrixRaw (BitVec.ofNat 64 i) (BitVec.ofNat 64 j)).getD 0 := by
  simp [entry, taskMatrix, row, column]

def backwardTransfer (taskMatrixR : List (List F)) (n : Nat) : F :=
  (List.range (n - 1)).foldl (fun bwtSum j => bwtSum + (entry taskMatrixR (n - 1) j - entry taskMatrixR j j)) 0 /
    ((n - 1 : Nat) : F)

/-- The scores of tasks that were not trained yet, against the baseline of a random guess. -/
def forwardTransfer (taskMatrixR : List (List F)) (n : Nat) : F :=
  (List.range' 1 (n - 1)).foldl
    (fun fwtSum j => fwtSum + (entry taskMatrixR (j - 1) j - (50 : Nat) / (100 : Nat))) 0 / ((n - 1 : Nat) : F)

/-- The cells that the sums of BWT and FWT read, for `n` tasks. -/
def Read (n i j : Nat) : Prop := (i = n - 1 ∨ i = j) ∧ j < n - 1 ∨ i + 1 = j ∧ j < n

theorem transfers_congr {first second : MatrixRaw F} {n : Nat}
    (same : ∀ i j, Read n i j → cell first (BitVec.ofNat 64 i) (BitVec.ofNat 64 j) =
      cell second (BitVec.ofNat 64 i) (BitVec.ofNat 64 j)) :
    backwardTransfer (taskMatrix first n) n = backwardTransfer (taskMatrix second n) n ∧
      forwardTransfer (taskMatrix first n) n = forwardTransfer (taskMatrix second n) n := by
  have same_entry {i j : Nat} (read : Read n i j) :
      entry (taskMatrix first n) i j = entry (taskMatrix second n) i j := by
    have row : i < n := by unfold Read at read; omega
    have column : j < n := by unfold Read at read; omega
    rw [entry_taskMatrix first row column, entry_taskMatrix second row column, same i j read]
  constructor
  · unfold backwardTransfer
    congr 1
    apply List.foldl_ext
    intro bwtSum j member
    have column := List.mem_range.mp member
    rw [same_entry (.inl ⟨.inl rfl, column⟩), same_entry (.inl ⟨.inr rfl, column⟩)]
  · unfold forwardTransfer
    congr 1
    apply List.foldl_ext
    intro fwtSum j member
    rw [List.mem_range'_1] at member
    rw [same_entry (.inr ⟨by omega, by omega⟩)]

variable [LinearOrder F]

def summaryReport (libm : Libm F) (m : DriftMetrics F) : String :=
  "Continual Learning Metrics [N=" ++ toString m.numTasks.toNat ++ " Tasks]: " ++
  "Backward Transfer (BWT) = " ++ libm.fixed 4 m.backwardTransferBwt ++ " [" ++
  (if m.bwtThresholdSatisfied then "NO CATASTROPHIC FORGETTING" else "FORGETTING DETECTED") ++ "] | " ++
  "Forward Transfer (FWT) = " ++ libm.fixed 4 m.forwardTransferFwt

/-- `allocates n` is whether there is memory for an `n` × `n` matrix; `none` is the exception where
there is not. -/
def computeDriftMetrics (libm : Libm F) (allocates : Nat → Bool) (config : DriftConfig F)
    (matrixRaw : MatrixRaw F) : Option (DriftMetrics F) :=
  if matrixRaw.rows.entries.isEmpty then some { summaryReport := "Task matrix is empty" }
  else
    let numTasks := maxIdx matrixRaw + 1
    let n := numTasks.toNat
    if !allocates n then none
    else
      let taskMatrixR := taskMatrix matrixRaw n
      if n < 2 then
        some { numTasks, taskMatrixR, valid := true,
               summaryReport := "Single task evaluated. BWT/FWT require >= 2 sequential tasks." }
      else
        let m : DriftMetrics F :=
          { numTasks
            taskMatrixR
            backwardTransferBwt := backwardTransfer taskMatrixR n
            forwardTransferFwt := forwardTransfer taskMatrixR n
            retentionDecayVector := (List.range n).map fun i => entry taskMatrixR i 0
            bwtThresholdSatisfied := decide (config.bwtMinThreshold ≤ backwardTransfer taskMatrixR n)
            valid := true }
        some { m with summaryReport := summaryReport libm m }

/-! ## What the verdict reads -/

theorem computeDriftMetrics_valid_iff (libm : Libm F) (allocates : Nat → Bool) (config : DriftConfig F)
    (matrixRaw : MatrixRaw F) (numTasks : BitVec 64) (several : 2 ≤ numTasks.toNat) :
    (∃ m, computeDriftMetrics libm allocates config matrixRaw = some m ∧ m.valid = true ∧ m.numTasks = numTasks) ↔
      matrixRaw.rows.entries ≠ [] ∧ maxIdx matrixRaw + 1 = numTasks ∧ allocates numTasks.toNat = true := by
  unfold computeDriftMetrics
  by_cases empty : matrixRaw.rows.entries = []
  · simp [empty]
  · rw [if_neg (by simpa using empty)]
    dsimp only
    constructor
    · rintro ⟨m, computed, valid, counted⟩
      split at computed
      · cases computed
      · next allocated =>
        split at computed
        · obtain rfl := Option.some.inj computed
          exact ⟨empty, counted, by simpa [← counted] using allocated⟩
        · obtain rfl := Option.some.inj computed
          exact ⟨empty, counted, by simpa [← counted] using allocated⟩
    · rintro ⟨_, rfl, allocated⟩
      rw [if_neg (by simpa using allocated), if_neg (by omega)]
      exact ⟨_, rfl, rfl, rfl⟩

/-- Whenever there is a valid verdict on at least two tasks, every cell that its sums read was
recorded since the last reset. -/
def RestsOnRecorded (libm : Libm F) (allocates : Nat → Bool) (config : DriftConfig F) (calls : List (Call F)) : Prop :=
  ∀ m, computeDriftMetrics libm allocates config (afterCalls calls) = some m → m.valid = true → 2 ≤ m.numTasks.toNat →
    ∀ i j : BitVec 64, Read m.numTasks.toNat i.toNat j.toNat → Recorded calls i j

/-- A verdict rests on recorded scores where no cell is missing up to the greatest recorded index,
and nowhere else, unless there is no verdict because that index is 0, is the last one of
`size_t`, or is too large for the memory. -/
theorem rests_on_recorded_iff (libm : Libm F) (allocates : Nat → Bool) (config : DriftConfig F) (calls : List (Call F)) :
    RestsOnRecorded libm allocates config calls ↔
      ∀ top, TopIndex calls top → 2 ≤ (top + 1).toNat → allocates (top + 1).toNat = true →
        ∀ i j : BitVec 64, Read (top + 1).toNat i.toNat j.toNat → Recorded calls i j := by
  constructor
  · intro rests top top_index several allocated
    obtain ⟨some_row, same⟩ := top_index.eq
    obtain ⟨m, computed, valid, counted⟩ :=
      (computeDriftMetrics_valid_iff libm allocates config (afterCalls calls) (top + 1) several).mpr
        ⟨some_row, by rw [same], allocated⟩
    have recorded := rests m computed valid (by rwa [counted])
    rwa [counted] at recorded
  · intro complete m computed valid several
    obtain ⟨some_row, counted, allocated⟩ :=
      (computeDriftMetrics_valid_iff libm allocates config (afterCalls calls) m.numTasks several).mp
        ⟨m, computed, valid, rfl⟩
    rw [← counted] at several allocated ⊢
    exact complete _ (topIndex_maxIdx some_row) several allocated

theorem satisfied_iff {libm : Libm F} {allocates : Nat → Bool} {config : DriftConfig F} {matrixRaw : MatrixRaw F}
    {m : DriftMetrics F} (computed : computeDriftMetrics libm allocates config matrixRaw = some m)
    (several : 2 ≤ m.numTasks.toNat) :
    m.bwtThresholdSatisfied = true ↔
      config.bwtMinThreshold ≤ backwardTransfer (taskMatrix matrixRaw m.numTasks.toNat) m.numTasks.toNat := by
  unfold computeDriftMetrics at computed
  dsimp only at computed
  split at computed
  · obtain rfl := Option.some.inj computed
    have none_counted : ¬2 ≤ (0 : BitVec 64).toNat := by decide
    exact absurd several none_counted
  · split at computed
    · cases computed
    · split at computed
      · next single =>
        obtain rfl := Option.some.inj computed
        exact absurd single (not_lt.mpr several)
      · obtain rfl := Option.some.inj computed
        exact decide_eq_true_iff

/-- One score off the diagonal: the verdict compares it with a score that nobody recorded, and
finds no forgetting. -/
theorem missing_diagonal_satisfied :
    ¬RestsOnRecorded exact (fun _ => true) {} [.recordTaskScore 1 0 (1 / 10)] ∧
      ∃ m, computeDriftMetrics exact (fun _ => true) {} (afterCalls [.recordTaskScore 1 0 (1 / 10)]) = some m ∧
        m.valid = true ∧ m.bwtThresholdSatisfied = true := by
  have recorded (i j : BitVec 64) : Recorded [Call.recordTaskScore 1 0 ((1 : ℝ) / 10)] i j ↔ i = 1 ∧ j = 0 := by
    rw [← List.nil_append [Call.recordTaskScore (1 : BitVec 64) 0 ((1 : ℝ) / 10)], recorded_append_record]
    simp [Recorded]
  obtain ⟨m, computed, valid, counted⟩ := (computeDriftMetrics_valid_iff exact (fun _ => true) {}
    (afterCalls [.recordTaskScore 1 0 (1 / 10)]) 2 (by decide)).mpr ⟨by simp [afterCalls, Call.apply, recordTaskScore], rfl, rfl⟩
  have several : 2 ≤ m.numTasks.toNat := by
    rw [counted]
    decide
  refine ⟨?_, m, computed, valid, ?_⟩
  · intro rests
    have missing := rests m computed valid several 0 0 (by rw [counted]; exact .inl ⟨.inr rfl, by decide⟩)
    rw [recorded] at missing
    exact absurd missing.1 (by decide)
  · rw [satisfied_iff computed several, counted]
    have below : entry (taskMatrix (afterCalls [.recordTaskScore 1 0 ((1 : ℝ) / 10)]) 2) 1 0 = 1 / 10 := rfl
    have diagonal : entry (taskMatrix (afterCalls [.recordTaskScore 1 0 ((1 : ℝ) / 10)]) 2) 0 0 = 0 := rfl
    have transfer : backwardTransfer (taskMatrix (afterCalls [.recordTaskScore 1 0 ((1 : ℝ) / 10)]) 2) 2 =
        (0 + (1 / 10 - 0)) / ((1 : Nat) : ℝ) := by
      rw [← below, ← diagonal]
      rfl
    change -(((1 : Nat) : ℝ) / (100 : Nat)) ≤ backwardTransfer (taskMatrix _ 2) 2
    rw [transfer]
    norm_num

end SentinelLab.DriftProfiler
