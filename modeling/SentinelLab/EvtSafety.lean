import SentinelLab.EvtVerdict

/-! `EvtEngine` with its arithmetic checked: maxima of empty ranges, divisions by a size that is 0 and
ranges that leave the samples are faults. -/

namespace SentinelLab.EvtSafety
open EvtEngine EvtVerdict Library.FloatingPoint Library.Ranges

inductive Fault where
  | emptyRange
  | zeroDivisor
  | outsideSamples
  deriving DecidableEq, Repr

/-- `*std::max_element` -/
def dereferenceMax (samples : List Nat) : Except Fault Nat :=
  match maxElement samples with
  | some largest => .ok largest
  | none => .error .emptyRange

def subrange (samples : List Nat) (start stop : Nat) : Except Fault (List Nat) :=
  if start ≤ stop ∧ stop ≤ samples.length then .ok ((samples.drop start).take (stop - start))
  else .error .outsideSamples

def divideSize (size divisor : Nat) : Except Fault Nat :=
  if divisor = 0 then .error .zeroDivisor else .ok (size / divisor)

variable {F : Type} [Add F] [Sub F] [Mul F] [Div F] [Neg F] [LE F] [DecidableLE F] [OfScientific F]

def divide (libm : Libm F) (value : F) (size : Nat) : Except Fault F :=
  if size = 0 then .error .zeroDivisor else .ok (value / libm.ofNat size)

def checkedBlockMaxima (libm : Libm F) (samples : List Nat) (blockSize : Nat) : Except Fault (List F) :=
  if samples.isEmpty ∨ blockSize = 0 then .ok []
  else do
    let numBlocks ← divideSize samples.length blockSize
    (List.range numBlocks).mapM fun i => do
      let start := i * blockSize
      let range ← subrange samples start (start + blockSize)
      let maxVal ← dereferenceMax range
      pure (libm.ofNat maxVal)

def checkedGumbel (libm : Libm F) (res : EvtResult F) (maxima : List F) : Except Fault (EvtResult F) := do
  let maxMean ← divide libm (accumulate maxima) maxima.length
  let varSum := maxima.foldl (fun varSum val => varSum + (val - maxMean) * (val - maxMean)) 0.0
  let maxVariance ← divide libm varSum (maxima.length - 1)
  let stdDev := libm.sqrt maxVariance
  let gumbelScaleSigma := (stdDev * libm.sqrt 6.0) / 3.14159265358979323846
  pure { res with
    gumbelScaleSigma
    gumbelLocationMu := maxMean - (0.57721566490153286060 * gumbelScaleSigma) }

def checkedWcetBound (libm : Libm F) (config : EvtConfig F) (samples : List Nat) : Except Fault (EvtResult F) :=
  if samples.length < config.blockSize then
    .ok { summaryText := "Insufficient samples for EVT estimation" }
  else do
    let meanLatencyNs ← divide libm (accumulate (samples.map libm.ofNat)) samples.length
    let maxObserved ← dereferenceMax samples
    let res : EvtResult F := { meanLatencyNs, maxObservedLatencyNs := libm.ofNat maxObserved }
    let maxima ← checkedBlockMaxima libm samples config.blockSize
    if maxima.length < 2 then
      .ok { res with summaryText := "Insufficient block maxima for Gumbel parameter fitting" }
    else do
      let res ← checkedGumbel libm res maxima
      let res := { res with
        p99LatencyNs := calculateQuantile libm res 0.99
        p999LatencyNs := calculateQuantile libm res 0.999
        p99999WcetBoundNs := calculateQuantile libm res config.confidenceLevel }
      let res := { res with
        deadlineSatisfied := decide (res.p99999WcetBoundNs ≤ config.deadlineNs)
        valid := true }
      .ok { res with summaryText := summaryText libm res }

/-! ## The blocks -/

def blockSamples (samples : List Nat) (blockSize i : Nat) : Set Nat :=
  {sample | ∃ j, i * blockSize ≤ j ∧ j < i * blockSize + blockSize ∧ samples[j]? = some sample}

theorem mem_block_iff {samples : List Nat} {blockSize i sample : Nat} :
    sample ∈ block samples blockSize i ↔ sample ∈ blockSamples samples blockSize i := by
  unfold block blockSamples
  rw [List.mem_iff_getElem?]
  constructor
  · rintro ⟨offset, found⟩
    have inside : offset < blockSize := by
      by_contra outside
      rw [List.getElem?_take_eq_none (not_lt.mp outside)] at found
      contradiction
    rw [List.getElem?_take_of_lt inside, List.getElem?_drop] at found
    exact ⟨i * blockSize + offset, by omega, by omega, found⟩
  · rintro ⟨j, from_start, to_stop, found⟩
    refine ⟨j - i * blockSize, ?_⟩
    rw [List.getElem?_take_of_lt (by omega), List.getElem?_drop, Nat.add_sub_cancel' from_start]
    exact found

theorem dereferenceMax_ok {samples : List Nat} (nonempty : samples ≠ []) :
    dereferenceMax samples = .ok ((maxElement samples).getD 0) := by
  obtain ⟨largest, found⟩ := Option.isSome_iff_exists.mp (maxElement_isSome nonempty)
  rw [dereferenceMax, found]
  rfl

theorem checkedBlockMaxima_ok {N : Type} (libm : Libm N) (samples : List Nat) (blockSize : Nat) :
    checkedBlockMaxima libm samples blockSize =
      .ok ((List.range (samples.length / blockSize)).map fun i =>
        libm.ofNat ((maxElement (block samples blockSize i)).getD 0)) := by
  unfold checkedBlockMaxima
  split
  next none =>
    have no_blocks : samples.length / blockSize = 0 := by
      rcases none with empty | zero
      · rw [List.isEmpty_iff.mp empty]
        exact Nat.zero_div _
      · rw [zero, Nat.div_zero]
    rw [no_blocks]
    rfl
  next several =>
    rw [not_or] at several
    have quotient : divideSize samples.length blockSize = .ok (samples.length / blockSize) := if_neg several.2
    rw [quotient]
    apply mapM_eq_map
    intro i member
    have enough := block_inside (List.mem_range.mp member)
    have range : subrange samples (i * blockSize) (i * blockSize + blockSize) = .ok (block samples blockSize i) := by
      rw [subrange, if_pos ⟨Nat.le_add_right _ _, enough⟩, Nat.add_sub_cancel_left]
      rfl
    dsimp only
    rw [range]
    change (dereferenceMax (block samples blockSize i)).map libm.ofNat = _
    rw [dereferenceMax_ok (block_ne_nil (List.mem_range.mp member))]
    rfl

theorem extractBlockMaxima_some {N : Type} (libm : Libm N) (samples : List Nat) (blockSize : Nat) :
    extractBlockMaxima libm samples blockSize =
      some ((List.range (samples.length / blockSize)).map fun i =>
        libm.ofNat ((maxElement (block samples blockSize i)).getD 0)) := by
  rcases Nat.eq_zero_or_pos blockSize with zero | positive
  · rw [zero, Nat.div_zero]
    exact if_pos (.inr rfl)
  · exact extractBlockMaxima_eq libm samples positive

theorem divide_ok {N : Type} [Div N] (libm : Libm N) (value : N) {size : Nat} (nonzero : size ≠ 0) :
    divide libm value size = .ok (value / libm.ofNat size) := if_neg nonzero

omit [Neg F] [LE F] [DecidableLE F] in
theorem checkedGumbel_ok (libm : Libm F) (res : EvtResult F) {maxima : List F} (several : 2 ≤ maxima.length) :
    checkedGumbel libm res maxima = .ok (fitGumbel libm res maxima) := by
  unfold checkedGumbel
  rw [divide_ok libm _ (by omega)]
  change (do
    let maxVariance ← divide libm _ (maxima.length - 1)
    _) = _
  rw [divide_ok libm _ (by omega)]
  rfl

theorem checkedWcetBound_ok (libm : Libm F) {config : EvtConfig F} {samples : List Nat}
    (some_size : config.blockSize ≠ 0 ∨ samples ≠ []) :
    ∃ res, checkedWcetBound libm config samples = .ok res ∧ calculateWcetBound libm config samples = some res := by
  unfold checkedWcetBound calculateWcetBound
  by_cases short : samples.length < config.blockSize
  · rw [if_pos short, if_pos short]
    exact ⟨_, rfl, rfl⟩
  have nonempty : samples ≠ [] := by
    rintro rfl
    rw [List.length_nil, not_lt, Nat.le_zero] at short
    exact some_size.elim (fun nonzero => nonzero short) (fun nonempty => nonempty rfl)
  obtain ⟨maxObserved, observed⟩ := Option.isSome_iff_exists.mp (maxElement_isSome nonempty)
  have dereferenced := dereferenceMax_ok nonempty
  rw [observed, Option.getD_some] at dereferenced
  rw [if_neg short, if_neg short, divide_ok libm _ (List.length_eq_zero_iff.not.mpr nonempty), dereferenced, observed,
    checkedBlockMaxima_ok, extractBlockMaxima_some]
  simp only [Option.bind_eq_bind, Option.bind_some]
  set maxima := (List.range (samples.length / config.blockSize)).map fun i =>
    libm.ofNat ((maxElement (block samples config.blockSize i)).getD 0)
  by_cases few : maxima.length < 2
  · rw [if_pos few]
    exact ⟨_, if_pos few, rfl⟩
  · rw [if_neg few]
    have fitted := fun res => checkedGumbel_ok libm res (Nat.le_of_not_lt few)
    refine ⟨_, ?_, rfl⟩
    change (if maxima.length < 2 then _ else _) = _
    rw [if_neg few, fitted]
    rfl

theorem checkedWcetBound_fault (libm : Libm F) (config : EvtConfig F) (zero : config.blockSize = 0) :
    checkedWcetBound libm config [] = .error .zeroDivisor ∧ calculateWcetBound libm config [] = none := by
  unfold checkedWcetBound calculateWcetBound
  have long : ¬([] : List Nat).length < config.blockSize := by
    rw [zero]
    exact Nat.not_lt_zero _
  rw [if_neg long, if_neg long]
  exact ⟨rfl, rfl⟩

/-! ## Safety -/

/-- One maximum for each complete block. -/
def Partitioned (libm : Libm F) (samples : List Nat) (blockSize : Nat) : Prop :=
  ∃ largest : List Nat, checkedBlockMaxima libm samples blockSize = .ok (largest.map libm.ofNat) ∧
    largest.length = samples.length / blockSize ∧
    ∀ i (inside : i < largest.length), IsGreatest (blockSamples samples blockSize i) largest[i]

/-- No operation of the estimate faults, and the blocks are those of the samples. -/
structure Safe (libm : Libm F) (config : EvtConfig F) (samples : List Nat) : Prop where
  faultless : ∃ res, checkedWcetBound libm config samples = .ok res
  blocks : 1 ≤ config.blockSize → Partitioned libm samples config.blockSize

theorem partitioned {N : Type} (libm : Libm N) (samples : List Nat) (blockSize : Nat) :
    Partitioned libm samples blockSize := by
  refine ⟨(List.range (samples.length / blockSize)).map fun i => (maxElement (block samples blockSize i)).getD 0, ?_, ?_, ?_⟩
  · rw [checkedBlockMaxima_ok, List.map_map]
    rfl
  · rw [List.length_map, List.length_range]
  · intro i inside
    rw [List.length_map, List.length_range] at inside
    obtain ⟨largest, found⟩ := Option.isSome_iff_exists.mp (maxElement_isSome (block_ne_nil inside))
    have same : blockSamples samples blockSize i = {sample | sample ∈ block samples blockSize i} := by
      ext sample
      exact mem_block_iff.symm
    rw [List.getElem_map, List.getElem_range, found, same]
    exact maxElement_isGreatest found

/-- The estimate is safe exactly where there is a block size or a sample. -/
theorem estimate_safe_iff (libm : Libm F) (config : EvtConfig F) (samples : List Nat) :
    Safe libm config samples ↔ config.blockSize ≠ 0 ∨ samples ≠ [] := by
  constructor
  · intro safe
    by_contra neither
    obtain ⟨zero, empty⟩ := not_or.mp neither
    rw [not_not] at zero empty
    obtain ⟨res, computed⟩ := safe.faultless
    rw [empty, (checkedWcetBound_fault libm config zero).1] at computed
    contradiction
  · intro some_size
    obtain ⟨res, computed, _⟩ := checkedWcetBound_ok libm some_size
    exact ⟨⟨res, computed⟩, fun _ => partitioned libm samples config.blockSize⟩

/-- No samples, no block size. -/
theorem estimate_unsafe : checkedWcetBound exact ⟨0, 0.99999, 100000⟩ [] = .error .zeroDivisor ∧
    calculateWcetBound exact ⟨0, 0.99999, 100000⟩ [] = none ∧ ¬Safe exact ⟨0, 0.99999, 100000⟩ [] := by
  obtain ⟨faults, undefined⟩ := checkedWcetBound_fault exact ⟨0, 0.99999, 100000⟩ rfl
  refine ⟨faults, undefined, fun safe => ?_⟩
  obtain ⟨res, computed⟩ := safe.faultless
  rw [faults] at computed
  contradiction

end SentinelLab.EvtSafety
