import SentinelLab.Library.FloatingPoint
import SentinelLab.Library.Norms

/-! `AdversarialMutator.mutate_features` of the harness: arrays in memory, and noise on the rows of attacks.
float32 is exact; the values that `numpy.random` will give are a stream. -/

namespace SentinelLab.FeatureMutator
open Library.FloatingPoint Library.Norms

/-! ## Arrays -/

structure Matrix (F : Type) where
  width : Nat
  rows : List (List F)
  rectangular : ∀ row ∈ rows, row.length = width

/-- The arrays in the order in which they were made; an address is a position in it. -/
abbrev Memory (F : Type) : Type := List (Matrix F)

section
variable {F : Type}

/-- `matrix[i] += noise`, where the shapes agree. -/
def Matrix.addToRow [Add F] (matrix : Matrix F) (i : Nat) (noise : List F) : Option (Matrix F) :=
  if same : noise.length = matrix.width then
    some
      { width := matrix.width
        rows := matrix.rows.modify i (List.zipWith (· + ·) · noise)
        rectangular := by
          intro row member
          obtain ⟨k, at_k⟩ := List.mem_iff_getElem?.mp member
          rw [List.getElem?_modify, Option.map_eq_map, Option.map_eq_some_iff] at at_k
          obtain ⟨before, found, rfl⟩ := at_k
          have wide := matrix.rectangular before (List.mem_of_getElem? found)
          split
          · rw [List.length_zipWith, wide, same, min_self]
          · exact wide }
  else none

/-- `values[idx] = value`: a negative index counts from the end, and one outside raises. -/
def setItem (values : List F) (idx : Int) (value : F) : Option (List F) :=
  let position := if 0 ≤ idx then idx else idx + values.length
  if 0 ≤ position ∧ position < values.length then some (values.set position.toNat value) else none

/-! ## The mutator -/

structure AdversarialMutator (F : Type) where
  epsilon : F
  pNorm : String := "L_INF"
  immutableFeatures : List Int := [0, 1, 2]

variable [Field F] [LinearOrder F]

def rowNoise (libm : Libm F) (mutator : AdversarialMutator F) (random : Stream' F) (numFeatures : Nat) : List F :=
  let noise := random.take numFeatures
  if mutator.pNorm = "L_INF" then noise
  else
    let norm := libm.sqrt (sumSq noise)
    if 0 < norm then noise.map fun x => x / norm * mutator.epsilon else noise

def clearSlot (numFeatures : Nat) (noise : List F) (idx : Int) : Option (List F) :=
  if idx < numFeatures then setItem noise idx 0 else some noise

def mutateRow (libm : Libm F) (mutator : AdversarialMutator F) (labels : List Int) (mutated numFeatures : Nat)
    (state : Memory F × Stream' F) (i : Nat) : Option (Memory F × Stream' F) := do
  let (memory, random) := state
  let label ← labels[i]?
  if label = 1 then
    let noise ← mutator.immutableFeatures.foldlM (clearSlot numFeatures) (rowNoise libm mutator random numFeatures)
    let matrix ← memory[mutated]?
    let matrix ← matrix.addToRow i noise
    some (memory.set mutated matrix, random.drop numFeatures)
  else some (memory, random)

/-- The array is copied, and converted into another new one, which is returned. -/
def mutateFeatures (libm : Libm F) (mutator : AdversarialMutator F) (memory : Memory F) (features : Nat)
    (labels : List Int) (random : Stream' F) : Option (Memory F × Nat × Stream' F) := do
  let original ← memory[features]?
  let mutated := memory.length + 1
  let (memory, random) ← (List.range original.rows.length).foldlM
    (mutateRow libm mutator labels mutated original.width) (memory ++ [original, original], random)
  some (memory, mutated, random)

end

/-! ## The noise of one row -/

section
variable {F : Type} [Field F] {numFeatures : Nat} {noise : List F} {idx : Int}

theorem clearSlot_spec (same : noise.length = numFeatures) (nonneg : 0 ≤ idx) :
    ∃ cleared, clearSlot numFeatures noise idx = some cleared ∧ ZeroedFrom cleared noise ∧
      (idx < numFeatures → cleared[idx.toNat]? = some 0) := by
  unfold clearSlot
  split
  next inside =>
    have placed : setItem noise idx 0 = some (noise.set idx.toNat 0) := by
      unfold setItem
      simp only [nonneg, same, inside, ↓reduceIte, and_self]
    refine ⟨_, placed, ZeroedFrom.set noise idx.toNat, ?_⟩
    intro _
    rw [List.getElem?_set_self (by omega)]
  next outside => exact ⟨noise, rfl, ZeroedFrom.refl noise, fun inside => absurd inside outside⟩

theorem clear_spec {indices : List Int} (nonneg : ∀ idx ∈ indices, 0 ≤ idx) (same : noise.length = numFeatures) :
    ∃ cleared, indices.foldlM (clearSlot numFeatures) noise = some cleared ∧ ZeroedFrom cleared noise ∧
      ∀ idx ∈ indices, idx < numFeatures → cleared[idx.toNat]? = some 0 := by
  induction indices generalizing noise with
  | nil => exact ⟨noise, rfl, ZeroedFrom.refl noise, fun _ => nofun⟩
  | cons idx indices ih =>
    rw [List.forall_mem_cons] at nonneg
    obtain ⟨next, first, zeroed, slot⟩ := clearSlot_spec same nonneg.1
    obtain ⟨cleared, others, zeroed', slots⟩ := ih nonneg.2 (zeroed.length.trans same)
    refine ⟨cleared, ?_, zeroed'.trans zeroed, ?_⟩
    · rw [List.foldlM_cons, first]
      exact others
    · rw [List.forall_mem_cons]
      exact ⟨fun inside => zeroed'.getElem?_zero (slot inside), slots⟩

end

variable {mutator : AdversarialMutator ℝ} {random : Stream' ℝ}

/-- The values that `uniform` can give are in `[-epsilon, epsilon]`; `randn` gives any. -/
def Drawn (mutator : AdversarialMutator ℝ) (random : Stream' ℝ) : Prop :=
  mutator.pNorm = "L_INF" → ∀ k, -mutator.epsilon ≤ random.get k ∧ random.get k ≤ mutator.epsilon

theorem Drawn.drop (drawn : Drawn mutator random) (n : Nat) : Drawn mutator (random.drop n) := by
  intro norm k
  rw [Stream'.get_drop]
  exact drawn norm (n + k)

theorem rowNoise_length (mutator : AdversarialMutator ℝ) (random : Stream' ℝ) (n : Nat) :
    (rowNoise exact mutator random n).length = n := by
  unfold rowNoise
  split
  · exact Stream'.length_take _ _
  · dsimp only
    split
    · rw [List.length_map, Stream'.length_take]
    · exact Stream'.length_take _ _

theorem rowNoise_le (drawn : Drawn mutator random) (norm : mutator.pNorm = "L_INF") (n : Nat) :
    ∀ x ∈ rowNoise exact mutator random n, |x| ≤ mutator.epsilon := by
  unfold rowNoise
  rw [if_pos norm]
  intro x member
  obtain ⟨k, at_k⟩ := List.mem_iff_getElem?.mp member
  have value : x = random.get k := by
    by_cases inside : k < n
    · rw [Stream'.getElem?_take inside, Option.some.injEq] at at_k
      exact at_k.symm
    · rw [List.getElem?_eq_none (by rw [Stream'.length_take]; omega)] at at_k
      contradiction
  rw [value]
  exact abs_le.mpr (drawn norm k)

theorem sumSq_rowNoise_le (norm : mutator.pNorm ≠ "L_INF") (random : Stream' ℝ) (n : Nat) :
    sumSq (rowNoise exact mutator random n) ≤ mutator.epsilon ^ 2 := by
  unfold rowNoise
  rw [if_neg norm]
  dsimp only
  split
  next positive => exact (sumSq_normalized positive mutator.epsilon).le
  next zero =>
    have flat : euclidNorm (random.take n) ≤ 0 := not_lt.mp zero
    calc sumSq (random.take n) ≤ 0 ^ 2 := (euclidNorm_le le_rfl).mp flat
      _ ≤ mutator.epsilon ^ 2 := by
        rw [zero_pow two_ne_zero]
        positivity

/-- What is asked of one row: only attacks are changed, only in mutable features, and within the bound. -/
structure RowStays (mutator : AdversarialMutator ℝ) (label : Int) (row mutated : List ℝ) : Prop where
  sameLength : mutated.length = row.length
  benign : label ≠ 1 → mutated = row
  immutable : ∀ idx ∈ mutator.immutableFeatures, idx < row.length → mutated[idx.toNat]? = row[idx.toNat]?
  supBound : mutator.pNorm = "L_INF" → supNorm (difference mutated row) ≤ mutator.epsilon
  euclidBound : mutator.pNorm ≠ "L_INF" → euclidNorm (difference mutated row) ≤ mutator.epsilon

variable {row : List ℝ}

theorem RowStays.unchanged (nonneg : 0 ≤ mutator.epsilon) (label : Int) : RowStays mutator label row row :=
  ⟨rfl, fun _ => rfl, fun _ _ _ => rfl, fun _ => supNorm_difference_self nonneg row,
    fun _ => euclidNorm_difference_self nonneg row⟩

theorem RowStays.attack (nonneg : 0 ≤ mutator.epsilon) (drawn : Drawn mutator random)
    {noise : List ℝ} (zeroed : ZeroedFrom noise (rowNoise exact mutator random row.length))
    (slots : ∀ idx ∈ mutator.immutableFeatures, idx < row.length → noise[idx.toNat]? = some 0) :
    RowStays mutator 1 row (List.zipWith (· + ·) row noise) := by
  have same : noise.length = row.length := zeroed.length.trans (rowNoise_length mutator random row.length)
  refine ⟨?_, fun benign => absurd rfl benign, ?_, fun norm => ?_, fun norm => ?_⟩
  · rw [List.length_zipWith, same, min_self]
  · intro idx member inside
    rw [List.getElem?_zipWith, slots idx member inside]
    cases row[idx.toNat]? with
    | none => rfl
    | some value => simp
  · rw [difference_add row noise same, supNorm_le nonneg]
    exact zeroed.abs_le nonneg (rowNoise_le drawn norm row.length)
  · rw [difference_add row noise same, euclidNorm_le nonneg]
    exact zeroed.sumSq_le.trans (sumSq_rowNoise_le norm random row.length)

/-! ## The loop over the rows -/

variable {labels : List Int} {original : Matrix ℝ} {before : Memory ℝ} {k : Nat}

/-- The rows before row `k` are done, the others as they were; nothing else in memory has changed. -/
structure Progress (mutator : AdversarialMutator ℝ) (labels : List Int) (original : Matrix ℝ) (before : Memory ℝ)
    (k : Nat) (state : Memory ℝ × Stream' ℝ) (current : Matrix ℝ) : Prop where
  memory : state.1 = before ++ [current]
  width : current.width = original.width
  height : current.rows.length = original.rows.length
  drawn : Drawn mutator state.2
  finished : ∀ i row mutated label, i < k → original.rows[i]? = some row → current.rows[i]? = some mutated →
    labels[i]? = some label → RowStays mutator label row mutated
  ahead : ∀ i, k ≤ i → current.rows[i]? = original.rows[i]?

variable {state : Memory ℝ × Stream' ℝ} {current : Matrix ℝ}

theorem addToRow_spec {noise : List ℝ} (same : noise.length = current.width) (i : Nat) :
    ∃ next, current.addToRow i noise = some next ∧ next.width = current.width ∧
      next.rows.length = current.rows.length ∧
      next.rows[i]? = current.rows[i]?.map (List.zipWith (· + ·) · noise) ∧
      ∀ other ≠ i, next.rows[other]? = current.rows[other]? := by
  unfold Matrix.addToRow
  rw [dif_pos same]
  refine ⟨_, rfl, rfl, List.length_modify .., List.getElem?_modify_eq .., ?_⟩
  intro other different
  exact List.getElem?_modify_ne _ _ different.symm

theorem Progress.succ (progress : Progress mutator labels original before k state current) {next : Matrix ℝ}
    (width : next.width = original.width) (height : next.rows.length = original.rows.length)
    (drawn : Drawn mutator random) (kept : ∀ i ≠ k, next.rows[i]? = current.rows[i]?)
    (stays : ∀ row mutated label, original.rows[k]? = some row → next.rows[k]? = some mutated →
      labels[k]? = some label → RowStays mutator label row mutated) :
    Progress mutator labels original before (k + 1) (before ++ [next], random) next := by
  refine ⟨rfl, width, height, drawn, ?_, ?_⟩
  · intro i row mutated label earlier at_row at_mutated at_label
    by_cases last : i = k
    · subst last
      exact stays row mutated label at_row at_mutated at_label
    · rw [kept i last] at at_mutated
      exact progress.finished i row mutated label (by omega) at_row at_mutated at_label
  · intro i later
    rw [kept i (by omega)]
    exact progress.ahead i (by omega)

theorem mutateRow_spec (nonneg : 0 ≤ mutator.epsilon) (indices : ∀ idx ∈ mutator.immutableFeatures, 0 ≤ idx)
    (progress : Progress mutator labels original before k state current) (inside : k < original.rows.length)
    (enough : k < labels.length) :
    ∃ after next, mutateRow exact mutator labels before.length original.width state k = some after ∧
      Progress mutator labels original before (k + 1) after next := by
  obtain ⟨memory, random⟩ := state
  obtain rfl : memory = before ++ [current] := progress.memory
  have untouched : current.rows[k]? = some original.rows[k] := by
    rw [progress.ahead k le_rfl, List.getElem?_eq_getElem inside]
  have wide : original.rows[k].length = original.width := original.rectangular _ (List.getElem_mem inside)
  unfold mutateRow
  simp only [Option.bind_eq_bind, List.getElem?_eq_getElem enough, Option.bind_some]
  split
  next attack =>
    obtain ⟨noise, cleared, zeroed, slots⟩ :=
      clear_spec indices (rowNoise_length mutator random original.width)
    have same : noise.length = current.width := by rw [zeroed.length, rowNoise_length, progress.width]
    obtain ⟨next, added, width, height, changed, kept⟩ := addToRow_spec same k
    rw [← wide] at zeroed slots
    have attacked := RowStays.attack nonneg progress.drawn zeroed slots
    have updated : (before ++ [current]).set before.length next = before ++ [next] := by
      rw [List.set_append_right _ _ le_rfl, Nat.sub_self, List.set_cons_zero]
    refine ⟨(before ++ [next], random.drop original.width), next, ?_, ?_⟩
    · rw [cleared, Option.bind_some, List.getElem?_concat_length, Option.bind_some, added, Option.bind_some, updated]
    · apply progress.succ (width.trans progress.width) (height.trans progress.height)
        (progress.drawn.drop original.width) kept
      intro row mutated label at_row at_mutated at_label
      rw [List.getElem?_eq_getElem inside] at at_row
      rw [List.getElem?_eq_getElem enough, attack] at at_label
      rw [changed, untouched] at at_mutated
      obtain rfl := Option.some.inj at_row
      obtain rfl := Option.some.inj at_label
      obtain rfl := Option.some.inj at_mutated
      exact attacked
  next benign =>
    refine ⟨(before ++ [current], random), current, rfl, ?_⟩
    apply progress.succ progress.width progress.height progress.drawn fun _ _ => rfl
    intro row mutated label at_row at_mutated _
    rw [progress.ahead k le_rfl, at_row] at at_mutated
    obtain rfl := Option.some.inj at_mutated
    exact RowStays.unchanged nonneg label

theorem mutateRows_spec (nonneg : 0 ≤ mutator.epsilon) (indices : ∀ idx ∈ mutator.immutableFeatures, 0 ≤ idx)
    (start : Progress mutator labels original before 0 state current) (enough : original.rows.length ≤ labels.length)
    (k : Nat) (inside : k ≤ original.rows.length) :
    ∃ after next,
      (List.range k).foldlM (mutateRow exact mutator labels before.length original.width) state = some after ∧
      Progress mutator labels original before k after next := by
  induction k with
  | zero => exact ⟨state, current, rfl, start⟩
  | succ k ih =>
    obtain ⟨middle, reached, earlier, progress⟩ := ih (by omega)
    obtain ⟨after, next, last, done⟩ := mutateRow_spec nonneg indices progress (by omega) (by omega)
    refine ⟨after, next, ?_, done⟩
    rw [List.range_succ, List.foldlM_append, earlier]
    simpa using last

structure MatrixStays (mutator : AdversarialMutator ℝ) (labels : List Int) (original mutated : Matrix ℝ) : Prop where
  width : mutated.width = original.width
  height : mutated.rows.length = original.rows.length
  row : ∀ (i : Nat) (label : Int) before after, original.rows[i]? = some before → mutated.rows[i]? = some after →
    labels[i]? = some label → RowStays mutator label before after

theorem foldlM_raises {σ ι : Type} {body : σ → ι → Option σ} {i : ι} (raises : ∀ state, body state i = none)
    {indices : List ι} (member : i ∈ indices) (state : σ) : indices.foldlM body state = none := by
  induction indices generalizing state with
  | nil => exact absurd member List.not_mem_nil
  | cons first indices ih =>
    rw [List.foldlM_cons, Option.bind_eq_bind, Option.bind_eq_none_iff]
    intro next taken
    rcases List.mem_cons.mp member with rfl | later
    · rw [raises] at taken
      contradiction
    · exact ih later next

theorem mutateRows_none (short : labels.length < original.rows.length) (address width : Nat)
    (state : Memory ℝ × Stream' ℝ) :
    (List.range original.rows.length).foldlM (mutateRow exact mutator labels address width) state = none := by
  refine foldlM_raises ?_ (List.mem_range.mpr short) state
  intro state
  unfold mutateRow
  simp

theorem mutateFeatures_some (nonneg : 0 ≤ mutator.epsilon) (indices : ∀ idx ∈ mutator.immutableFeatures, 0 ≤ idx)
    {memory : Memory ℝ} {features : Nat} (stored : memory[features]? = some original) (drawn : Drawn mutator random)
    (enough : original.rows.length ≤ labels.length) :
    ∃ after mutated, mutateFeatures exact mutator memory features labels random =
        some (after.1, memory.length + 1, after.2) ∧
      Progress mutator labels original (memory ++ [original]) original.rows.length after mutated := by
  have start : Progress mutator labels original (memory ++ [original]) 0 (memory ++ [original, original], random)
      original := by
    refine ⟨?_, rfl, rfl, drawn, fun _ _ _ _ => nofun, fun _ _ => rfl⟩
    rw [List.append_assoc]
    rfl
  obtain ⟨after, mutated, looped, done⟩ := mutateRows_spec nonneg indices start enough original.rows.length le_rfl
  rw [List.length_append, List.length_singleton] at looped
  refine ⟨after, mutated, ?_, done⟩
  unfold mutateFeatures
  rw [stored]
  simp only [Option.bind_eq_bind, Option.bind_some, looped]

/-- The call returns if every row has a label. The array it returns is new and stays in the ball of the original
row by row, and every array that was in memory is as it was. -/
theorem mutateFeatures_stays_in_ball (mutator : AdversarialMutator ℝ) (nonneg : 0 ≤ mutator.epsilon)
    (indices : ∀ idx ∈ mutator.immutableFeatures, 0 ≤ idx) (memory : Memory ℝ) (features : Nat) (original : Matrix ℝ)
    (stored : memory[features]? = some original) (labels : List Int) (random : Stream' ℝ)
    (drawn : Drawn mutator random) :
    ((mutateFeatures exact mutator memory features labels random).isSome ↔ original.rows.length ≤ labels.length) ∧
      ∀ after address left, mutateFeatures exact mutator memory features labels random = some (after, address, left) →
        ∃ mutated, after[address]? = some mutated ∧ MatrixStays mutator labels original mutated ∧
          memory.length ≤ address ∧ ∀ other < memory.length, after[other]? = memory[other]? := by
  by_cases enough : original.rows.length ≤ labels.length
  · obtain ⟨result, mutated, returned, done⟩ := mutateFeatures_some nonneg indices stored drawn enough
    rw [returned]
    refine ⟨iff_of_true rfl enough, ?_⟩
    rintro after address left ⟨⟩
    have address : (memory ++ [original]).length = memory.length + 1 := List.length_append
    refine ⟨mutated, ?_, ⟨done.width, done.height, ?_⟩, Nat.le_succ _, ?_⟩
    · rw [done.memory, ← address, List.getElem?_concat_length]
    · intro i label before after at_before
      obtain ⟨inside, _⟩ := List.getElem?_eq_some_iff.mp at_before
      exact done.finished i before after label inside at_before
    · intro other inside
      rw [done.memory, List.append_assoc, List.getElem?_append_left inside]
  · have raised : mutateFeatures exact mutator memory features labels random = none := by
      unfold mutateFeatures
      rw [stored]
      simp only [Option.bind_eq_bind, Option.bind_some, mutateRows_none (not_le.mp enough), Option.bind_none]
    rw [raised]
    exact ⟨iff_of_false Bool.false_ne_true enough, fun _ _ _ => nofun⟩

private noncomputable def euclideanMutator : AdversarialMutator ℝ where
  epsilon := (3 : Nat) / (20 : Nat)
  pNorm := "L2"

private def twoRows : Matrix ℝ where
  width := 4
  rows := [[0, 1, 1, 0], [1, 0, 0, 1]]
  rectangular := by simp

theorem mutateFeatures_stays_in_ball_two_rows :
    ∃ after address left mutated,
      mutateFeatures exact euclideanMutator [twoRows] 0 [0, 1] (Stream'.const 1) = some (after, address, left) ∧
        after[address]? = some mutated ∧ MatrixStays euclideanMutator [0, 1] twoRows mutated ∧
        after[0]? = some twoRows := by
  have drawn : Drawn euclideanMutator (Stream'.const 1) := fun norm => absurd norm (by decide)
  obtain ⟨returns, stays⟩ := mutateFeatures_stays_in_ball euclideanMutator (by norm_num [euclideanMutator])
    (by simp [euclideanMutator]) [twoRows] 0 twoRows rfl [0, 1] (Stream'.const 1) drawn
  obtain ⟨⟨after, address, left⟩, returned⟩ := Option.isSome_iff_exists.mp (returns.mpr le_rfl)
  obtain ⟨mutated, at_address, inBall, _, others⟩ := stays after address left returned
  exact ⟨after, address, left, mutated, returned, at_address, inBall, others 0 Nat.zero_lt_one⟩

end SentinelLab.FeatureMutator
