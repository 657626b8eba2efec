import SentinelLab.EvtEngine
import SentinelLab.Library.Deviation

/-! The deadline verdict of `EvtEngine` over the reals, against the samples it was computed from.
The bound is the mean of the block maxima plus a multiple of their deviation, where the multiple
depends on the confidence level only. -/

namespace SentinelLab.EvtVerdict
open EvtEngine Library.FloatingPoint Library.Ranges Library.Deviation

/-- How many deviations above the mean the quantile at `p` is. -/
noncomputable def quantileFactor (p : ℝ) : ℝ :=
  Real.sqrt 6.0 / 3.14159265358979323846 * (-Real.log (-Real.log p) - 0.57721566490153286060)

noncomputable def bound (maxima : List ℝ) (p : ℝ) : ℝ := mean maxima + quantileFactor p * deviation maxima

def block (samples : List Nat) (blockSize i : Nat) : List Nat := (samples.drop (i * blockSize)).take blockSize

noncomputable def blockMaxima (samples : List Nat) (blockSize : Nat) : List ℝ :=
  (List.range (samples.length / blockSize)).map fun i => ((maxElement (block samples blockSize i)).getD 0 : ℝ)

/-! ## The fitted bound -/

theorem zero_literal : (0.0 : ℝ) = 0 := by norm_num

theorem accumulate_eq_sum (values : List ℝ) : accumulate values = values.sum := by
  rw [accumulate, zero_literal, List.sum_eq_foldl]

theorem fitGumbel_moments (res : EvtResult ℝ) (maxima : List ℝ) (several : 2 ≤ maxima.length) :
    (fitGumbel exact res maxima).gumbelScaleSigma =
        deviation maxima * Real.sqrt 6.0 / 3.14159265358979323846 ∧
      (fitGumbel exact res maxima).gumbelLocationMu =
        mean maxima - 0.57721566490153286060 * (fitGumbel exact res maxima).gumbelScaleSigma := by
  have average : accumulate maxima / exact.ofNat maxima.length = mean maxima := by
    rw [accumulate_eq_sum]
    rfl
  have spread : maxima.foldl (fun varSum val => varSum + (val - mean maxima) * (val - mean maxima)) 0.0 =
      squares maxima := by
    rw [zero_literal, squares, List.sum_eq_foldl, List.foldl_map]
    simp only [sq]
  have freedom : exact.ofNat (maxima.length - 1) = ((maxima.length : ℝ) - 1) := by
    change ((maxima.length - 1 : Nat) : ℝ) = _
    rw [Nat.cast_sub (by omega), Nat.cast_one]
  unfold fitGumbel
  simp only [average, spread, freedom, and_true]
  rfl

theorem calculateQuantile_fitGumbel (res : EvtResult ℝ) (maxima : List ℝ) (p : ℝ) (several : 2 ≤ maxima.length) :
    calculateQuantile exact (fitGumbel exact res maxima) p = bound maxima p := by
  obtain ⟨sigma, mu⟩ := fitGumbel_moments res maxima several
  rw [calculateQuantile, mu, sigma]
  unfold bound quantileFactor exact
  ring

theorem length_blockMaxima (samples : List Nat) (blockSize : Nat) :
    (blockMaxima samples blockSize).length = samples.length / blockSize := by
  rw [blockMaxima, List.length_map, List.length_range]

theorem getElem_blockMaxima {samples : List Nat} {blockSize i : Nat}
    (inside : i < (blockMaxima samples blockSize).length) :
    (blockMaxima samples blockSize)[i] = ((maxElement (block samples blockSize i)).getD 0 : ℝ) := by
  simp [blockMaxima]

theorem blockSize_pos {blockSize count : Nat} (some_block : 0 < count / blockSize) : 0 < blockSize := by
  apply Nat.pos_of_ne_zero
  intro zero
  rw [zero, Nat.div_zero] at some_block
  exact absurd some_block (Nat.lt_irrefl 0)

theorem count_pos {blockSize count : Nat} (some_block : 0 < count / blockSize) : 0 < count :=
  lt_of_lt_of_le some_block (Nat.div_le_self count blockSize)

theorem block_inside {samples : List Nat} {blockSize i : Nat} (inside : i < samples.length / blockSize) :
    i * blockSize + blockSize ≤ samples.length := by
  calc i * blockSize + blockSize = (i + 1) * blockSize := (Nat.succ_mul i blockSize).symm
    _ ≤ samples.length / blockSize * blockSize := Nat.mul_le_mul_right _ inside
    _ ≤ samples.length := Nat.div_mul_le_self _ _

theorem block_ne_nil {samples : List Nat} {blockSize i : Nat} (inside : i < samples.length / blockSize) :
    block samples blockSize i ≠ [] := by
  have enough := block_inside inside
  have positive : 0 < blockSize := blockSize_pos (Nat.zero_lt_of_lt inside)
  apply List.ne_nil_of_length_pos
  rw [block, List.length_take, List.length_drop]
  omega

/-- The fields of an estimate in the terms of the samples and their block maxima. -/
structure Estimate (config : EvtConfig ℝ) (samples : List Nat) (res : EvtResult ℝ) : Prop where
  valid : res.valid = true
  average : res.meanLatencyNs = mean (samples.map fun sample : Nat => (sample : ℝ))
  largest : res.maxObservedLatencyNs = ((maxElement samples).getD 0 : ℝ)
  sigma : res.gumbelScaleSigma =
    deviation (blockMaxima samples config.blockSize) * Real.sqrt 6.0 / 3.14159265358979323846
  mu : res.gumbelLocationMu =
    mean (blockMaxima samples config.blockSize) - 0.57721566490153286060 * res.gumbelScaleSigma
  p99 : res.p99LatencyNs = bound (blockMaxima samples config.blockSize) 0.99
  p999 : res.p999LatencyNs = bound (blockMaxima samples config.blockSize) 0.999
  p99999 : res.p99999WcetBoundNs = bound (blockMaxima samples config.blockSize) config.confidenceLevel
  verdict : res.deadlineSatisfied = decide (res.p99999WcetBoundNs ≤ config.deadlineNs)

theorem calculateWcetBound_estimate (config : EvtConfig ℝ) {samples : List Nat}
    (several : 2 ≤ samples.length / config.blockSize) :
    ∃ res, calculateWcetBound exact config samples = some res ∧ Estimate config samples res := by
  have positive : 0 < config.blockSize := blockSize_pos (Nat.lt_of_succ_lt several)
  have enough : config.blockSize ≤ samples.length := by
    have blocks := (Nat.le_div_iff_mul_le positive).mp several
    omega
  have nonempty : samples ≠ [] := by
    intro empty
    rw [empty] at enough
    exact absurd positive (Nat.not_lt.mpr enough)
  obtain ⟨maxObserved, observed⟩ := Option.isSome_iff_exists.mp (maxElement_isSome nonempty)
  have extracted : extractBlockMaxima exact samples config.blockSize = some (blockMaxima samples config.blockSize) :=
    extractBlockMaxima_eq exact samples positive
  have count := length_blockMaxima samples config.blockSize
  have average : accumulate (samples.map exact.ofNat) / exact.ofNat samples.length =
      mean (samples.map fun sample : Nat => (sample : ℝ)) := by
    rw [accumulate_eq_sum, mean, List.length_map]
    rfl
  let basics : EvtResult ℝ :=
    { meanLatencyNs := accumulate (samples.map exact.ofNat) / exact.ofNat samples.length
      maxObservedLatencyNs := exact.ofNat maxObserved }
  obtain ⟨sigma, mu⟩ := fitGumbel_moments basics (blockMaxima samples config.blockSize) (by rwa [count])
  have quantile (p : ℝ) := calculateQuantile_fitGumbel basics (blockMaxima samples config.blockSize) p (by rwa [count])
  unfold calculateWcetBound
  rw [if_neg (Nat.not_lt_of_le enough), observed, extracted]
  simp only [Option.bind_eq_bind, Option.bind_some, count]
  rw [if_neg (Nat.not_lt_of_le several)]
  refine ⟨_, rfl, rfl, average, ?_, sigma, mu, quantile _, quantile _, quantile _, rfl⟩
  rw [observed]
  rfl

theorem verdict_iff (config : EvtConfig ℝ) {samples : List Nat} (several : 2 ≤ samples.length / config.blockSize) :
    ∃ res, calculateWcetBound exact config samples = some res ∧ res.valid = true ∧
      (res.deadlineSatisfied = true ↔
        bound (blockMaxima samples config.blockSize) config.confidenceLevel ≤ config.deadlineNs) := by
  obtain ⟨res, computed, estimate⟩ := calculateWcetBound_estimate config several
  refine ⟨res, computed, estimate.valid, ?_⟩
  rw [estimate.verdict, decide_eq_true_iff, estimate.p99999]

theorem not_valid_of_few (config : EvtConfig ℝ) {samples : List Nat} (few : samples.length / config.blockSize < 2)
    {res : EvtResult ℝ} (computed : calculateWcetBound exact config samples = some res) : res.valid = false := by
  by_cases short : samples.length < config.blockSize
  · rw [calculateWcetBound, if_pos short] at computed
    obtain rfl := Option.some.inj computed
    rfl
  · by_cases zero : config.blockSize = 0
    · rw [calculateWcetBound, if_neg short, zero] at computed
      obtain ⟨maxObserved, _, rest⟩ := Option.bind_eq_some_iff.mp computed
      have nothing : extractBlockMaxima exact samples 0 = some [] := if_pos (.inr rfl)
      rw [nothing] at rest
      obtain rfl := Option.some.inj rest
      rfl
    · obtain ⟨other, computed', cases_of⟩ :=
        calculateWcetBound_cases exact config (Nat.pos_of_ne_zero zero) (Nat.le_of_not_lt short)
      obtain rfl : res = other := Option.some.inj (computed.symm.trans computed')
      rcases cases_of with ⟨_, invalid, _⟩ | ⟨several, _⟩
      · exact invalid
      · omega

/-! ## Blocks and samples -/

theorem maxElement_isGreatest {values : List Nat} {largest : Nat} (found : maxElement values = some largest) :
    IsGreatest {value | value ∈ values} largest := by
  cases values with
  | nil => contradiction
  | cons first rest =>
    obtain rfl := Option.some.inj found
    have same : (max : Nat → Nat → Nat) = stdMax := by
      funext seed other
      exact (stdMax_eq_max seed other).symm
    have insertion : {value | value ∈ first :: rest} = insert first {value | value ∈ rest} := by
      ext value
      exact List.mem_cons
    rw [same, insertion]
    exact foldl_stdMax_isGreatest first rest

theorem maxElement_le {values : List Nat} {value : Nat} (member : value ∈ values) :
    value ≤ (maxElement values).getD 0 := by
  obtain ⟨largest, found⟩ := Option.isSome_iff_exists.mp (maxElement_isSome (List.ne_nil_of_mem member))
  rw [found]
  exact (maxElement_isGreatest found).2 member

theorem mem_block {samples : List Nat} {blockSize sample : Nat}
    (member : sample ∈ samples.take (samples.length / blockSize * blockSize)) :
    ∃ i < samples.length / blockSize, sample ∈ block samples blockSize i := by
  obtain ⟨index, inside, rfl⟩ := List.mem_iff_getElem.mp member
  rw [List.length_take] at inside
  have before : index < samples.length / blockSize * blockSize := lt_of_lt_of_le inside (min_le_left ..)
  have positive : 0 < blockSize := Nat.pos_of_lt_mul_left before
  refine ⟨index / blockSize, (Nat.div_lt_iff_lt_mul positive).mpr before, ?_⟩
  rw [block, List.mem_iff_getElem]
  have place : index / blockSize * blockSize + index % blockSize = index := Nat.div_add_mod' index blockSize
  have within : index % blockSize < blockSize := Nat.mod_lt _ positive
  have whole : samples.length / blockSize * blockSize ≤ samples.length := Nat.div_mul_le_self ..
  refine ⟨index % blockSize, by rw [List.length_take, List.length_drop]; omega, ?_⟩
  simp [place]

/-- The verdict covers the samples of the complete blocks. -/
def BlocksCovered (blockSize : Nat) (confidenceLevel : ℝ) (count : Nat) : Prop :=
  ∀ (deadlineNs : ℝ) (samples : List Nat) (res : EvtResult ℝ), samples.length = count →
    calculateWcetBound exact ⟨blockSize, confidenceLevel, deadlineNs⟩ samples = some res → res.valid = true →
    res.deadlineSatisfied = true →
    ∀ sample ∈ samples.take (count / blockSize * blockSize), (sample : ℝ) ≤ deadlineNs

/-- The verdict covers every sample. -/
def VerdictCovers (blockSize : Nat) (confidenceLevel : ℝ) (count : Nat) : Prop :=
  ∀ (deadlineNs : ℝ) (samples : List Nat) (res : EvtResult ℝ), samples.length = count →
    calculateWcetBound exact ⟨blockSize, confidenceLevel, deadlineNs⟩ samples = some res → res.valid = true →
    res.deadlineSatisfied = true → ∀ sample ∈ samples, (sample : ℝ) ≤ deadlineNs

theorem covered_of_reach {blockSize count : Nat} {confidenceLevel : ℝ}
    (enough : reach (count / blockSize) ≤ quantileFactor confidenceLevel) :
    BlocksCovered blockSize confidenceLevel count := by
  intro deadlineNs samples res length_eq computed valid satisfied sample member
  subst length_eq
  by_cases several : 2 ≤ samples.length / blockSize
  · obtain ⟨other, computed', _, verdict⟩ :=
      verdict_iff ⟨blockSize, confidenceLevel, deadlineNs⟩ several
    obtain rfl : res = other := Option.some.inj (computed.symm.trans computed')
    obtain ⟨i, inside, in_block⟩ := mem_block member
    have maximum : ((maxElement (block samples blockSize i)).getD 0 : ℝ) ∈ blockMaxima samples blockSize :=
      List.mem_map.mpr ⟨i, List.mem_range.mpr inside, rfl⟩
    have blocks := length_blockMaxima samples blockSize
    calc
      (sample : ℝ) ≤ ((maxElement (block samples blockSize i)).getD 0 : ℝ) := by
        exact_mod_cast maxElement_le in_block
      _ ≤ mean (blockMaxima samples blockSize) +
          reach (samples.length / blockSize) * deviation (blockMaxima samples blockSize) := by
        rw [← blocks]
        exact le_mean_add_reach (by rwa [blocks]) maximum
      _ ≤ bound (blockMaxima samples blockSize) confidenceLevel := by
        have nonneg := deviation_nonneg (blockMaxima samples blockSize)
        exact add_le_add le_rfl (mul_le_mul_of_nonneg_right enough nonneg)
      _ ≤ deadlineNs := verdict.mp satisfied
  · have invalid := not_valid_of_few _ (not_le.mp several) computed
    rw [invalid] at valid
    cases valid

/-! ## Samples that are not covered -/

theorem foldl_max_zeros (count seed : Nat) : (List.replicate count 0).foldl max seed = seed := by
  induction count with
  | zero => rfl
  | succ count ih => rw [List.replicate_succ, List.foldl_cons, Nat.max_zero, ih]

theorem maxElement_zeros (count : Nat) : (maxElement (List.replicate count 0)).getD 0 = 0 := by
  cases count with
  | zero => rfl
  | succ count => exact foldl_max_zeros count 0

theorem length_first_late {count : Nat} (some_samples : 0 < count) :
    (1 :: List.replicate (count - 1) 0).length = count := by
  rw [List.length_cons, List.length_replicate]
  omega

theorem length_last_late {blockSize count : Nat} (partly : ¬blockSize ∣ count) :
    (List.replicate (count - 1) 0 ++ [1]).length = count := by
  have some_samples : 0 < count := Nat.pos_of_ne_zero fun zero => partly (zero ▸ Nat.dvd_zero _)
  rw [List.length_append, List.length_replicate, List.length_singleton]
  omega

theorem blockMaxima_spike {blockSize count : Nat} (several : 2 ≤ count / blockSize) :
    blockMaxima (1 :: List.replicate (count - 1) 0) blockSize = spike (count / blockSize) := by
  have positive : 0 < blockSize := blockSize_pos (Nat.lt_of_succ_lt several)
  have length_eq := length_first_late (count_pos (Nat.lt_of_succ_lt several))
  apply List.ext_getElem
  · rw [length_blockMaxima, length_eq, length_spike (by omega)]
  · intro i inside inside'
    rw [getElem_blockMaxima]
    cases i with
    | zero =>
      obtain ⟨rest, rfl⟩ : ∃ rest, blockSize = rest + 1 := ⟨blockSize - 1, by omega⟩
      have first : block (1 :: List.replicate (count - 1) 0) (rest + 1) 0 = 1 :: List.replicate (min rest (count - 1)) 0 := by
        rw [block, Nat.zero_mul, List.drop_zero, List.take_succ_cons, List.take_replicate]
      rw [first, maxElement, foldl_max_zeros]
      simp [spike]
    | succ i =>
      obtain ⟨skipped, same⟩ : ∃ skipped, (i + 1) * blockSize = skipped + 1 :=
        Nat.exists_eq_add_one.mpr (Nat.mul_pos (Nat.succ_pos i) positive)
      have later : block (1 :: List.replicate (count - 1) 0) blockSize (i + 1) =
          List.replicate (min blockSize (count - 1 - skipped)) 0 := by
        rw [block, same, List.drop_succ_cons, List.drop_replicate, List.take_replicate]
      rw [later, maxElement_zeros]
      simp [spike]

theorem blockMaxima_trailing {blockSize count : Nat} (partly : ¬blockSize ∣ count) :
    blockMaxima (List.replicate (count - 1) 0 ++ [1]) blockSize = List.replicate (count / blockSize) 0 := by
  have length_eq := length_last_late partly
  have below : count / blockSize * blockSize < count := by
    apply lt_of_le_of_ne (Nat.div_mul_le_self ..)
    intro whole
    exact partly ⟨count / blockSize, by rw [Nat.mul_comm]; exact whole.symm⟩
  rw [List.eq_replicate_iff, length_blockMaxima, length_eq]
  refine ⟨rfl, ?_⟩
  intro maximum member
  obtain ⟨i, inside, rfl⟩ := List.mem_map.mp member
  rw [length_eq, List.mem_range] at inside
  have ends : (i + 1) * blockSize ≤ count / blockSize * blockSize := Nat.mul_le_mul_right _ inside
  rw [Nat.add_mul, Nat.one_mul] at ends
  have zeros : block (List.replicate (count - 1) 0 ++ [1]) blockSize i = List.replicate blockSize 0 := by
    rw [block, List.drop_append_of_le_length (by rw [List.length_replicate]; omega), List.drop_replicate,
      List.take_append_of_le_length (by rw [List.length_replicate]; omega), List.take_replicate]
    congr 1
    omega
  rw [zeros, maxElement_zeros, Nat.cast_zero]

theorem bound_zeros (count : Nat) (p : ℝ) : bound (List.replicate count 0) p = 0 := by
  have average : mean (List.replicate count 0) = 0 := by
    rw [mean, List.sum_replicate, smul_zero, zero_div]
  have spread : deviation (List.replicate count 0) = 0 := by
    rw [deviation, variance, squares, average, List.map_replicate, List.sum_replicate, sub_zero, zero_pow two_ne_zero,
      smul_zero, zero_div, Real.sqrt_zero]
  rw [bound, average, spread, mul_zero, add_zero]

theorem bound_spike_lt {count : Nat} {p : ℝ} (several : 2 ≤ count) (far : quantileFactor p < reach count) :
    bound (spike count) p < 1 := by
  have positive : (0 : ℝ) < count := by exact_mod_cast (show 0 < count by omega)
  have root : 0 < Real.sqrt count := Real.sqrt_pos.mpr positive
  calc
    bound (spike count) p = 1 / count + quantileFactor p * (1 / Real.sqrt count) := by
      rw [bound, mean_spike (by omega), deviation_spike several]
    _ < 1 / count + reach count * (1 / Real.sqrt count) := by
      gcongr
    _ = 1 / count + (count - 1) / (Real.sqrt count * Real.sqrt count) := by
      rw [reach, div_mul_div_comm, mul_one]
    _ = 1 := by
      rw [Real.mul_self_sqrt positive.le]
      field_simp
      ring

theorem covers_of_few {blockSize count : Nat} {confidenceLevel : ℝ} (few : count / blockSize < 2) :
    VerdictCovers blockSize confidenceLevel count := by
  intro deadlineNs samples res length_eq computed valid
  have invalid := not_valid_of_few ⟨blockSize, confidenceLevel, deadlineNs⟩ (by rwa [length_eq]) computed
  rw [invalid] at valid
  cases valid

theorem blocksCovered_of_covers {blockSize count : Nat} {confidenceLevel : ℝ}
    (covers : VerdictCovers blockSize confidenceLevel count) : BlocksCovered blockSize confidenceLevel count := by
  intro deadlineNs samples res length_eq computed valid satisfied sample member
  exact covers deadlineNs samples res length_eq computed valid satisfied sample (List.mem_of_mem_take member)

theorem covers_of_reach {blockSize count : Nat} {confidenceLevel : ℝ} (whole : blockSize ∣ count)
    (enough : reach (count / blockSize) ≤ quantileFactor confidenceLevel) :
    VerdictCovers blockSize confidenceLevel count := by
  intro deadlineNs samples res length_eq computed valid satisfied sample member
  apply covered_of_reach enough deadlineNs samples res length_eq computed valid satisfied
  rw [Nat.div_mul_cancel whole, ← length_eq, List.take_length]
  exact member

theorem reach_of_covered {blockSize count : Nat} {confidenceLevel : ℝ} (several : 2 ≤ count / blockSize)
    (covered : BlocksCovered blockSize confidenceLevel count) :
    reach (count / blockSize) ≤ quantileFactor confidenceLevel := by
  by_contra short
  have some_blocks : 0 < count / blockSize * blockSize := Nat.mul_pos (by omega) (blockSize_pos (Nat.lt_of_succ_lt several))
  have length_eq := length_first_late (count_pos (Nat.lt_of_succ_lt several))
  have far := bound_spike_lt several (not_le.mp short)
  set deadlineNs := bound (spike (count / blockSize)) confidenceLevel
  obtain ⟨res, computed, valid, verdict⟩ :=
    @verdict_iff ⟨blockSize, confidenceLevel, deadlineNs⟩ (1 :: List.replicate (count - 1) 0) (by rwa [length_eq])
  rw [blockMaxima_spike several] at verdict
  have first : 1 ∈ (1 :: List.replicate (count - 1) 0).take (count / blockSize * blockSize) := by
    obtain ⟨more, same⟩ := Nat.exists_eq_add_one.mpr some_blocks
    rw [same, List.take_succ_cons]
    exact List.mem_cons_self
  have on_time := covered deadlineNs _ res length_eq computed valid (verdict.mpr le_rfl) 1 first
  rw [Nat.cast_one] at on_time
  exact absurd far (not_lt.mpr on_time)

theorem dvd_of_covers {blockSize count : Nat} {confidenceLevel : ℝ} (several : 2 ≤ count / blockSize)
    (covers : VerdictCovers blockSize confidenceLevel count) : blockSize ∣ count := by
  by_contra partly
  have length_eq := length_last_late partly
  obtain ⟨res, computed, valid, verdict⟩ :=
    @verdict_iff ⟨blockSize, confidenceLevel, 0⟩ (List.replicate (count - 1) 0 ++ [1]) (by rwa [length_eq])
  rw [blockMaxima_trailing partly, bound_zeros] at verdict
  have on_time := covers 0 _ res length_eq computed valid (verdict.mpr le_rfl) 1 (by simp)
  rw [Nat.cast_one] at on_time
  exact absurd on_time (by norm_num)

/-- A satisfied deadline covers the samples of the complete blocks exactly where the quantile is as
many deviations above the mean as one block maximum can be; and it covers every sample exactly
where, in addition, no sample is left over behind the blocks. -/
theorem verdict_covers_iff (blockSize : Nat) (confidenceLevel : ℝ) (count : Nat) :
    (BlocksCovered blockSize confidenceLevel count ↔
      count / blockSize < 2 ∨ reach (count / blockSize) ≤ quantileFactor confidenceLevel) ∧
    (VerdictCovers blockSize confidenceLevel count ↔
      count / blockSize < 2 ∨
        (blockSize ∣ count ∧ reach (count / blockSize) ≤ quantileFactor confidenceLevel)) := by
  by_cases few : count / blockSize < 2
  · have covers : VerdictCovers blockSize confidenceLevel count := covers_of_few few
    exact ⟨iff_of_true (blocksCovered_of_covers covers) (.inl few), iff_of_true covers (.inl few)⟩
  · have several := Nat.le_of_not_lt few
    rw [or_iff_right few, or_iff_right few]
    constructor
    · exact ⟨reach_of_covered several, covered_of_reach⟩
    · constructor
      · intro covers
        exact ⟨dvd_of_covers several covers, reach_of_covered several (blocksCovered_of_covers covers)⟩
      · intro ⟨whole, enough⟩
        exact covers_of_reach whole enough

/-- A late sample behind two blocks of two. -/
theorem trailing_sample_missed :
    ∃ res, calculateWcetBound exact ⟨2, 0.99999, 5⟩ [0, 0, 0, 0, 7] = some res ∧ res.valid = true ∧
      res.deadlineSatisfied = true ∧ ¬∀ sample ∈ [0, 0, 0, 0, 7], (sample : ℝ) ≤ 5 := by
  obtain ⟨res, computed, valid, verdict⟩ := @verdict_iff ⟨2, 0.99999, 5⟩ [0, 0, 0, 0, 7] (by decide)
  have maxima : blockMaxima [0, 0, 0, 0, 7] 2 = List.replicate 2 0 := by
    simp [blockMaxima, block, maxElement, List.range_succ, List.replicate_succ]
  rw [maxima, bound_zeros] at verdict
  refine ⟨res, computed, valid, verdict.mpr (by norm_num), ?_⟩
  intro covered
  exact absurd (covered 7 (by simp)) (by norm_num)

/-! ## The default confidence level -/

theorem reach_mono {fewer more : Nat} (positive : 0 < fewer) (le : fewer ≤ more) : reach fewer ≤ reach more := by
  have root (count : Nat) (some_values : 0 < count) : reach count = Real.sqrt count - 1 / Real.sqrt count := by
    have positive : (0 : ℝ) < count := by exact_mod_cast some_values
    have nonzero : Real.sqrt count ≠ 0 := (Real.sqrt_pos.mpr positive).ne'
    rw [reach, sub_div, div_left_inj' nonzero |>.mpr (Real.mul_self_sqrt positive.le).symm, mul_div_cancel_right₀ _ nonzero]
  have roots : Real.sqrt fewer ≤ Real.sqrt more := Real.sqrt_le_sqrt (by exact_mod_cast le)
  have low : 0 < Real.sqrt fewer := Real.sqrt_pos.mpr (by exact_mod_cast positive)
  rw [root fewer positive, root more (positive.trans_le le)]
  exact sub_le_sub roots (one_div_le_one_div_of_le low roots)

theorem log_99999 : (11.5 : ℝ) ≤ Real.log 99999 := by
  have power : Real.exp 1 ^ 23 ≤ (99999 : ℝ) ^ 2 := by
    calc
      Real.exp 1 ^ 23 ≤ (2.7182818286 : ℝ) ^ 23 := by
        apply pow_le_pow_left₀ (Real.exp_pos 1).le
        exact Real.exp_one_lt_d9.le
      _ ≤ (99999 : ℝ) ^ 2 := by norm_num
  have logs := Real.log_le_log (pow_pos (Real.exp_pos 1) 23) power
  rw [Real.log_pow, Real.log_pow, Real.log_exp] at logs
  norm_num at logs ⊢
  linarith

theorem le_quantileFactor_default : (8.5 : ℝ) ≤ quantileFactor 0.99999 := by
  have small : -Real.log 0.99999 ≤ 1 / 99999 := by
    have tangent := Real.log_le_sub_one_of_pos (show (0 : ℝ) < 1 / 0.99999 by norm_num)
    rw [one_div, Real.log_inv] at tangent
    norm_num at tangent ⊢
    linarith
  have positive : 0 < -Real.log 0.99999 := by
    have negative := Real.log_neg (show (0 : ℝ) < 0.99999 by norm_num) (by norm_num)
    linarith
  have deep : (11.5 : ℝ) ≤ -Real.log (-Real.log 0.99999) := by
    have logs := Real.log_le_log positive small
    rw [one_div, Real.log_inv] at logs
    linarith [log_99999]
  have root : (2.449 : ℝ) ≤ Real.sqrt 6.0 := by
    apply Real.le_sqrt_of_sq_le
    norm_num
  calc
    (8.5 : ℝ) ≤ 2.449 / 3.14159265358979323846 * (11.5 - 0.57721566490153286060) := by norm_num
    _ ≤ quantileFactor 0.99999 := by
      unfold quantileFactor
      gcongr

/-- Up to 74 whole blocks, the verdict at the default confidence level covers every sample. -/
theorem default_confidence_covers {blockSize count : Nat} (whole : blockSize ∣ count) (few : count / blockSize ≤ 74) :
    VerdictCovers blockSize 0.99999 count := by
  by_cases several : 2 ≤ count / blockSize
  · apply covers_of_reach whole
    have root : (8.6 : ℝ) ≤ Real.sqrt (74 : Nat) := by
      apply Real.le_sqrt_of_sq_le
      norm_num
    calc
      reach (count / blockSize) ≤ reach 74 := reach_mono (by omega) few
      _ ≤ 73 / 8.6 := by
        have freedom : ((74 : Nat) : ℝ) - 1 = 73 := by norm_num
        rw [reach, freedom]
        gcongr
      _ ≤ 8.5 := by norm_num
      _ ≤ quantileFactor 0.99999 := le_quantileFactor_default
  · exact covers_of_few (not_le.mp several)

end SentinelLab.EvtVerdict
