import SentinelLab.EvtVerdict

/-! The quantiles of `EvtEngine` over the reals: their order, and what becomes of the estimate when the
samples are measured from another origin or in another unit. -/

namespace SentinelLab.EvtQuantiles
open EvtEngine EvtVerdict Library.FloatingPoint Library.Deviation

/-! ## Order -/

theorem quantileFactor_mono {p q : ℝ} (positive : 0 < p) (le : p ≤ q) (below : q < 1) :
    quantileFactor p ≤ quantileFactor q := by
  have logs : Real.log p ≤ Real.log q := Real.log_le_log positive le
  have negative : Real.log q < 0 := Real.log_neg (positive.trans_le le) below
  have double : Real.log (-Real.log q) ≤ Real.log (-Real.log p) :=
    Real.log_le_log (neg_pos.mpr negative) (neg_le_neg logs)
  unfold quantileFactor
  gcongr

theorem bound_mono (maxima : List ℝ) {p q : ℝ} (positive : 0 < p) (le : p ≤ q) (below : q < 1) :
    bound maxima p ≤ bound maxima q := by
  have spread := deviation_nonneg maxima
  have factor := quantileFactor_mono positive le below
  unfold bound
  gcongr

/-! ## Another unit and origin -/

theorem maxElement_map {change : Nat → Nat} (monotone : Monotone change) (samples : List Nat) :
    maxElement (samples.map change) = (maxElement samples).map change := by
  cases samples with
  | nil => rfl
  | cons first rest =>
    change some ((rest.map change).foldl max (change first)) = some (change (rest.foldl max first))
    congr 1
    induction rest generalizing first with
    | nil => rfl
    | cons next rest ih => rw [List.map_cons, List.foldl_cons, ← monotone.map_max, ih, List.foldl_cons]

theorem block_map (change : Nat → Nat) (samples : List Nat) (blockSize i : Nat) :
    block (samples.map change) blockSize i = (block samples blockSize i).map change := by
  rw [block, ← List.map_drop, ← List.map_take, block]

def remeasure (factor offset sample : Nat) : Nat := factor * sample + offset

theorem remeasure_monotone (factor offset : Nat) : Monotone (remeasure factor offset) := by
  intro sample other le
  exact Nat.add_le_add_right (Nat.mul_le_mul_left factor le) offset

theorem blockMaxima_remeasure (factor offset : Nat) (samples : List Nat) (blockSize : Nat) :
    blockMaxima (samples.map (remeasure factor offset)) blockSize =
      (blockMaxima samples blockSize).map fun value => (factor : ℝ) * value + offset := by
  rw [blockMaxima, blockMaxima, List.length_map, List.map_map]
  apply List.map_congr_left
  intro i member
  obtain ⟨largest, found⟩ : ∃ largest, maxElement (block samples blockSize i) = some largest :=
    Option.isSome_iff_exists.mp (maxElement_isSome (block_ne_nil (List.mem_range.mp member)))
  rw [Function.comp_apply, block_map, maxElement_map (remeasure_monotone factor offset), found]
  simp [remeasure]

/-- The estimate with another unit and origin. -/
structure Remeasured (factor offset : ℝ) (res moved : EvtResult ℝ) : Prop where
  average : moved.meanLatencyNs = factor * res.meanLatencyNs + offset
  largest : moved.maxObservedLatencyNs = factor * res.maxObservedLatencyNs + offset
  mu : moved.gumbelLocationMu = factor * res.gumbelLocationMu + offset
  sigma : moved.gumbelScaleSigma = factor * res.gumbelScaleSigma
  p99 : moved.p99LatencyNs = factor * res.p99LatencyNs + offset
  p999 : moved.p999LatencyNs = factor * res.p999LatencyNs + offset
  p99999 : moved.p99999WcetBoundNs = factor * res.p99999WcetBoundNs + offset

theorem estimate_remeasured {config : EvtConfig ℝ} {samples : List Nat} {res moved : EvtResult ℝ} (factor offset : Nat)
    (several : 2 ≤ samples.length / config.blockSize) (estimate : Estimate config samples res)
    (estimate' : Estimate config (samples.map (remeasure factor offset)) moved) : Remeasured factor offset res moved := by
  have maxima := blockMaxima_remeasure factor offset samples config.blockSize
  have some_maxima : blockMaxima samples config.blockSize ≠ [] := by
    apply List.ne_nil_of_length_pos
    rw [length_blockMaxima]
    omega
  have nonempty : samples ≠ [] := List.ne_nil_of_length_pos (count_pos (Nat.lt_of_succ_lt several))
  have average := mean_affine some_maxima (factor : ℝ) offset
  have nonneg : (0 : ℝ) ≤ factor := Nat.cast_nonneg factor
  have spread := deviation_affine some_maxima nonneg offset
  have bounds (p : ℝ) : bound (blockMaxima (samples.map (remeasure factor offset)) config.blockSize) p =
      factor * bound (blockMaxima samples config.blockSize) p + offset := by
    rw [bound, maxima, average, spread, bound]
    ring
  have sigma : moved.gumbelScaleSigma = factor * res.gumbelScaleSigma := by
    rw [estimate'.sigma, maxima, spread, estimate.sigma]
    ring
  constructor
  · have readings : (samples.map (remeasure factor offset)).map (fun sample : Nat => (sample : ℝ)) =
        (samples.map fun sample : Nat => (sample : ℝ)).map fun value => (factor : ℝ) * value + offset := by
      simp [remeasure, Function.comp_def]
    rw [estimate'.average, readings, mean_affine (by simpa using nonempty), estimate.average]
  · obtain ⟨largest, found⟩ := Option.isSome_iff_exists.mp (maxElement_isSome nonempty)
    rw [estimate'.largest, maxElement_map (remeasure_monotone factor offset), estimate.largest, found]
    simp [remeasure]
  · rw [estimate'.mu, maxima, average, sigma, estimate.mu]
    ring
  · exact sigma
  · rw [estimate'.p99, bounds, estimate.p99]
  · rw [estimate'.p999, bounds, estimate.p999]
  · rw [estimate'.p99999, bounds, estimate.p99999]

/-- The scale is not negative, the quantiles are in the order of their levels, and the estimate moves with
the origin of the samples and scales with their unit. -/
theorem quantiles_ordered_equivariant (config : EvtConfig ℝ) (samples : List Nat)
    (low : 0.999 ≤ config.confidenceLevel) (high : config.confidenceLevel < 1)
    (several : 2 ≤ samples.length / config.blockSize) :
    ∃ res, calculateWcetBound exact config samples = some res ∧ res.valid = true ∧
      0 ≤ res.gumbelScaleSigma ∧ res.p99LatencyNs ≤ res.p999LatencyNs ∧ res.p999LatencyNs ≤ res.p99999WcetBoundNs ∧
      (∀ c : Nat, ∃ shifted, calculateWcetBound exact config (samples.map (· + c)) = some shifted ∧
        Remeasured 1 c res shifted) ∧
      (∀ m : Nat, ∃ scaled, calculateWcetBound exact config (samples.map (m * ·)) = some scaled ∧
        Remeasured m 0 res scaled) := by
  obtain ⟨res, computed, estimate⟩ := calculateWcetBound_estimate config several
  have moved (factor offset : Nat) :
      ∃ moved, calculateWcetBound exact config (samples.map (remeasure factor offset)) = some moved ∧
        Remeasured factor offset res moved := by
    obtain ⟨moved, computed', estimate'⟩ := @calculateWcetBound_estimate config
      (samples.map (remeasure factor offset)) (by rwa [List.length_map])
    exact ⟨moved, computed', estimate_remeasured factor offset several estimate estimate'⟩
  refine ⟨res, computed, estimate.valid, ?_, ?_, ?_, ?_, ?_⟩
  · rw [estimate.sigma]
    have spread := deviation_nonneg (blockMaxima samples config.blockSize)
    positivity
  · rw [estimate.p99, estimate.p999]
    exact bound_mono _ (by norm_num) (by norm_num) (by norm_num)
  · rw [estimate.p999, estimate.p99999]
    exact bound_mono _ (by norm_num) low high
  · intro c
    have shift : remeasure 1 c = (· + c) := by
      funext sample
      rw [remeasure, Nat.one_mul]
    have shifted := moved 1 c
    rwa [shift, Nat.cast_one] at shifted
  · intro m
    have scale : remeasure m 0 = (m * ·) := by
      funext sample
      rw [remeasure, Nat.add_zero]
    have scaled := moved m 0
    rwa [scale, Nat.cast_zero] at scaled

theorem quantiles_ordered_two_samples :
    ∃ res, calculateWcetBound exact ⟨1, 0.99999, 100000⟩ [1, 2] = some res ∧ res.valid = true ∧
      0 ≤ res.gumbelScaleSigma ∧ res.p99LatencyNs ≤ res.p999LatencyNs ∧ res.p999LatencyNs ≤ res.p99999WcetBoundNs := by
  obtain ⟨res, computed, valid, sigma, low, high, _⟩ :=
    quantiles_ordered_equivariant ⟨1, 0.99999, 100000⟩ [1, 2] (by norm_num) (by norm_num) (by decide)
  exact ⟨res, computed, valid, sigma, low, high⟩

end SentinelLab.EvtQuantiles
