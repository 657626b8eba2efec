import SentinelLab.Library.OrderStatistics
import SentinelLab.MetricsAccounting

/-! The latency fields of the metrics as order statistics of the recorded latencies. -/

namespace SentinelLab.LatencyPercentiles
open Benchmark MetricsAccounting Library.Binary64 Library.OrderStatistics Library.RoundedArithmetic

def latencyFields (m : BenchmarkMetrics) : List ℚ :=
  [m.latencyMinUs, m.latencyMeanUs, m.latencyP50Us, m.latencyP90Us, m.latencyP95Us, m.latencyP99Us, m.latencyMaxUs]

theorem latencyFields_foldl_tally (events : List BenchmarkEvent) (m : BenchmarkMetrics) :
    latencyFields (events.foldl tally m) = latencyFields m := by
  obtain ⟨_, _, _, _, counted⟩ := foldl_tally_fields events m
  rw [counted]
  rfl

theorem latencyFields_ratios (m : BenchmarkMetrics) : latencyFields (ratios m) = latencyFields m := by
  unfold ratios
  dsimp only
  split <;> rfl

def sorted (values : List ℚ) : List ℚ := values.mergeSort fun first second => first ≤ second

def sortedAt (values : List ℚ) (k : Nat) : ℚ := (sorted values).getD k 0

theorem sorted_perm (values : List ℚ) : (sorted values).Perm values := List.mergeSort_perm _ _

theorem latencyFields_computeMetrics {benchmarker : Benchmarker} (some_recorded : benchmarker.latenciesUs ≠ [])
    (testDurationSeconds : ℚ) :
    latencyFields (computeMetrics benchmarker testDurationSeconds) =
      let values := benchmarker.latenciesUs
      [sortedAt values 0, binary64.mean (sorted values), sortedAt values (values.length * 50 / 100),
        sortedAt values (values.length * 90 / 100), sortedAt values (values.length * 95 / 100),
        sortedAt values (values.length * 99 / 100), sortedAt values (values.length - 1)] := by
  have count : (sorted benchmarker.latenciesUs).length = benchmarker.latenciesUs.length := (sorted_perm _).length_eq
  have first : (sorted benchmarker.latenciesUs).headD 0 = sortedAt benchmarker.latenciesUs 0 := by
    rw [List.headD_eq_head?_getD, List.head?_eq_getElem?, sortedAt, List.getD_eq_getElem?_getD]
  have last : (sorted benchmarker.latenciesUs).getLastD 0 =
      sortedAt benchmarker.latenciesUs (benchmarker.latenciesUs.length - 1) := by
    rw [List.getLastD_eq_getLast?, List.getLast?_eq_getElem?, sortedAt, List.getD_eq_getElem?_getD, count]
  unfold computeMetrics
  dsimp only
  rw [if_neg (by simpa using some_recorded), latencyFields_ratios, latencyFields_foldl_tally,
    show (benchmarker.latenciesUs.mergeSort fun first second => first ≤ second) = sorted benchmarker.latenciesUs from rfl]
  unfold latencies
  simp only [latencyFields, first, last, Rounding.mean, count]
  rfl

theorem floor_quantile (n percent : Nat) : ⌊(n : ℚ) * (percent / 100)⌋₊ = n * percent / 100 := by
  have quotient : (n : ℚ) * (percent / 100) = ((n * percent : Nat) : ℚ) / (100 : Nat) := by
    push_cast
    ring
  rw [quotient, Nat.floor_div_eq_div]

theorem sortedAt_isOrderStatistic {values : List ℚ} {k : Nat} (inside : k < values.length) :
    IsOrderStatistic values k (sortedAt values k) := isOrderStatistic_mergeSort values inside 0

theorem sortedAt_mono {values : List ℚ} {k l : Nat} (le : k ≤ l) (inside : l < values.length) :
    sortedAt values k ≤ sortedAt values l :=
  (sortedAt_isOrderStatistic (le.trans_lt inside)).mono (sortedAt_isOrderStatistic inside) le

/-! ## The mean -/

theorem mean_of_exact {values : List ℚ} {low high : ℚ} (some_value : values ≠ []) (few : values.length ≤ 2 ^ 53)
    (sums : binary64.SumsExactly values) (least : ∀ value ∈ values, low ≤ value)
    (greatest : ∀ value ∈ values, value ≤ high) (low_number : binary64.round low = low)
    (high_number : binary64.round high = high) :
    low ≤ binary64.mean values ∧ binary64.mean values ≤ high := by
  have positive := List.length_pos_iff.mpr some_value
  have kept : binary64.ofNat values.length = values.length := by
    have integer := integers_of_pos binary64 (n := values.length) (by exact_mod_cast positive) (by omega)
    rwa [Int.cast_natCast] at integer
  obtain ⟨above, below⟩ := mean_between some_value least greatest
  rw [Rounding.mean, kept, binary64.sum_of_exact sums]
  constructor
  · rw [← low_number]
    exact binary64.monotone above
  · rw [← high_number]
    exact binary64.monotone below

/-- What the latency fields say of the recorded latencies. The mean is between the extremes where no
sum of the sorted latencies is rounded, and up to one relative error for each operation in general. -/
structure Reports (values : List ℚ) (m : BenchmarkMetrics) : Prop where
  p50 : IsOrderStatistic values ⌊(values.length : ℚ) * ((50 : Nat) / 100)⌋₊ m.latencyP50Us
  p90 : IsOrderStatistic values ⌊(values.length : ℚ) * ((90 : Nat) / 100)⌋₊ m.latencyP90Us
  p95 : IsOrderStatistic values ⌊(values.length : ℚ) * ((95 : Nat) / 100)⌋₊ m.latencyP95Us
  p99 : IsOrderStatistic values ⌊(values.length : ℚ) * ((99 : Nat) / 100)⌋₊ m.latencyP99Us
  least : IsLeast {value | value ∈ values} m.latencyMinUs
  greatest : IsGreatest {value | value ∈ values} m.latencyMaxUs
  ascending : List.IsChain (· ≤ ·)
    [m.latencyMinUs, m.latencyP50Us, m.latencyP90Us, m.latencyP95Us, m.latencyP99Us, m.latencyMaxUs]
  mean : (∀ value ∈ values, binary64.round value = value) → values.length ≤ 2 ^ 53 →
    binary64.SumsExactly (sorted values) → m.latencyMinUs ≤ m.latencyMeanUs ∧ m.latencyMeanUs ≤ m.latencyMaxUs
  roundedMean : (∀ value ∈ values, Moderate value) → values.length ≤ 2 ^ 52 →
    (1 - 1 / 2 ^ 53) ^ (values.length + 1) * m.latencyMinUs ≤ m.latencyMeanUs ∧
      m.latencyMeanUs ≤ (1 + 1 / 2 ^ 53) ^ (values.length + 1) * m.latencyMaxUs

theorem reports_computeMetrics {benchmarker : Benchmarker} (some_recorded : benchmarker.latenciesUs ≠ [])
    (testDurationSeconds : ℚ) :
    Reports benchmarker.latenciesUs (computeMetrics benchmarker testDurationSeconds) := by
  have count := List.length_pos_iff.mpr some_recorded
  have fields := latencyFields_computeMetrics some_recorded testDurationSeconds
  simp only [latencyFields, List.cons.injEq, and_true] at fields
  obtain ⟨minimum, mean, p50, p90, p95, p99, maximum⟩ := fields
  have least := (sortedAt_isOrderStatistic count).isLeast
  have greatest := (sortedAt_isOrderStatistic (Nat.sub_lt count Nat.one_pos)).isGreatest
  have sorts := sorted_perm benchmarker.latenciesUs
  have some_sorted : sorted benchmarker.latenciesUs ≠ [] := by
    rwa [Ne, ← List.length_eq_zero_iff, sorts.length_eq, List.length_eq_zero_iff]
  have above : ∀ value ∈ sorted benchmarker.latenciesUs, sortedAt benchmarker.latenciesUs 0 ≤ value :=
    fun _ member => least.2 (sorts.mem_iff.mp member)
  have below : ∀ value ∈ sorted benchmarker.latenciesUs,
      value ≤ sortedAt benchmarker.latenciesUs (benchmarker.latenciesUs.length - 1) :=
    fun _ member => greatest.2 (sorts.mem_iff.mp member)
  constructor
  · rw [floor_quantile, p50]
    exact sortedAt_isOrderStatistic (by omega)
  · rw [floor_quantile, p90]
    exact sortedAt_isOrderStatistic (by omega)
  · rw [floor_quantile, p95]
    exact sortedAt_isOrderStatistic (by omega)
  · rw [floor_quantile, p99]
    exact sortedAt_isOrderStatistic (by omega)
  · rwa [minimum]
  · rwa [maximum]
  · rw [minimum, p50, p90, p95, p99, maximum]
    simp only [List.isChain_cons_cons, List.isChain_singleton, and_true]
    exact ⟨sortedAt_mono (by omega) (by omega), sortedAt_mono (by omega) (by omega),
      sortedAt_mono (by omega) (by omega), sortedAt_mono (by omega) (by omega), sortedAt_mono (by omega) (by omega)⟩
  · intro numbers few sums
    rw [minimum, mean, maximum]
    exact mean_of_exact some_sorted (by rwa [sorts.length_eq]) sums above below (numbers _ least.1)
      (numbers _ greatest.1)
  · intro moderate few
    have between := rounded_mean_between binary64 some_sorted (by rwa [sorts.length_eq])
      (fun value member => moderate value (sorts.mem_iff.mp member)) above below
    rw [sorts.length_eq] at between
    rwa [minimum, mean, maximum]

theorem latencyFields_perm {benchmarker other : Benchmarker} (perm : other.latenciesUs.Perm benchmarker.latenciesUs)
    (some_recorded : benchmarker.latenciesUs ≠ []) (testDurationSeconds otherDuration : ℚ) :
    latencyFields (computeMetrics other otherDuration) =
      latencyFields (computeMetrics benchmarker testDurationSeconds) := by
  have some_other : other.latenciesUs ≠ [] := by
    rw [← List.length_pos_iff, perm.length_eq]
    exact List.length_pos_iff.mpr some_recorded
  have same : sorted other.latenciesUs = sorted benchmarker.latenciesUs := mergeSort_eq_of_perm perm
  rw [latencyFields_computeMetrics some_recorded, latencyFields_computeMetrics some_other]
  simp only [sortedAt, same, perm.length_eq]

theorem latenciesUs_afterCalls (calls : List Call) :
    (afterCalls calls).latenciesUs = (sinceReset calls).map (·.totalLatencyUs) := by
  rw [afterCalls_eq]

def tenth : ℚ := 7205759403792794 / 2 ^ 56

theorem nearest_tenth : nearest (1 / 10) = tenth := by
  have integer : nearestInteger (1 / 10 / 2 ^ ((-4 : Int) - 52)) = 7205759403792794 := by decide +kernel
  rw [nearest_eq (by decide) (by norm_num) (by norm_num) integer]
  norm_num [tenth]

theorem sum_tenths : binary64.sum [tenth, tenth, tenth] = 5404319552844596 / 2 ^ 54 := by
  have once : nearestInteger ((0 + tenth) / 2 ^ ((-4 : Int) - 52)) = 7205759403792794 := by decide +kernel
  have twice : nearestInteger ((tenth + tenth) / 2 ^ ((-3 : Int) - 52)) = 7205759403792794 := by decide +kernel
  have thrice : nearestInteger ((tenth + tenth + tenth) / 2 ^ ((-2 : Int) - 52)) = 5404319552844596 := by
    decide +kernel
  have first : binary64.add 0 tenth = tenth := by
    rw [Rounding.add, show binary64.round = nearest from rfl,
      nearest_eq (by decide) (by norm_num [tenth]) (by norm_num [tenth]) once]
    norm_num [tenth]
  have second : binary64.add tenth tenth = tenth + tenth := by
    rw [Rounding.add, show binary64.round = nearest from rfl,
      nearest_eq (by decide) (by norm_num [tenth]) (by norm_num [tenth]) twice]
    norm_num [tenth]
  rw [Rounding.sum, List.foldl_cons, first, List.foldl_cons, second, List.foldl_cons, List.foldl_nil, Rounding.add,
    show binary64.round = nearest from rfl, nearest_eq (by decide) (by norm_num [tenth]) (by norm_num [tenth]) thrice]
  norm_num

theorem mean_tenths : binary64.mean [tenth, tenth, tenth] = 7205759403792795 / 2 ^ 56 := by
  have third : nearestInteger (5404319552844596 / 2 ^ 54 / 3 / 2 ^ ((-4 : Int) - 52)) = 7205759403792795 := by
    decide +kernel
  have three : binary64.ofNat 3 = 3 := integers_of_pos binary64 (n := 3) (by decide) (by decide)
  rw [Rounding.mean, sum_tenths, List.length_cons, List.length_cons, List.length_singleton, three, Rounding.div,
    show binary64.round = nearest from rfl, nearest_eq (by decide) (by norm_num) (by norm_num) third]
  norm_num

/-- Three times a tenth has a mean above the tenth. -/
theorem mean_above_maximum :
    let event : BenchmarkEvent := { totalLatencyUs := tenth }
    let m := computeMetrics (afterCalls [.recordEvent event, .recordEvent event, .recordEvent event]) 1
    event.totalLatencyUs = binary64.round (1 / 10) ∧ m.latencyMaxUs < m.latencyMeanUs := by
  intro event m
  refine ⟨nearest_tenth.symm, ?_⟩
  have recorded : (afterCalls [.recordEvent event, .recordEvent event, .recordEvent event]).latenciesUs =
      [tenth, tenth, tenth] := by
    rw [latenciesUs_afterCalls]
    rfl
  have ordered : sorted [tenth, tenth, tenth] = [tenth, tenth, tenth] := by
    apply List.mergeSort_of_pairwise
    simp
  have fields : latencyFields m = _ := latencyFields_computeMetrics (by simp [recorded]) 1
  simp only [latencyFields, List.cons.injEq, recorded, ordered, mean_tenths, sortedAt] at fields
  have maximum : m.latencyMaxUs = tenth := fields.2.2.2.2.2.2.1
  rw [maximum, fields.2.1, tenth]
  norm_num

/-- After any sequence of calls that leaves a latency: the percentiles are order statistics of the latencies since the
last reset, in order with the extremes, the mean is where its rounding leaves it, and no other order of the same
events changes a field. -/
theorem percentiles_are_order_statistics (calls : List Call) (some_recorded : sinceReset calls ≠ [])
    (testDurationSeconds : ℚ) :
    Reports ((sinceReset calls).map (·.totalLatencyUs)) (computeMetrics (afterCalls calls) testDurationSeconds) ∧
      ∀ others otherDuration, (sinceReset others).Perm (sinceReset calls) →
        latencyFields (computeMetrics (afterCalls others) otherDuration) =
          latencyFields (computeMetrics (afterCalls calls) testDurationSeconds) := by
  have recorded : (afterCalls calls).latenciesUs ≠ [] := by
    rw [latenciesUs_afterCalls]
    simpa using some_recorded
  constructor
  · rw [← latenciesUs_afterCalls]
    exact reports_computeMetrics recorded testDurationSeconds
  · intro others otherDuration perm
    have permuted : (afterCalls others).latenciesUs.Perm (afterCalls calls).latenciesUs := by
      rw [latenciesUs_afterCalls, latenciesUs_afterCalls]
      exact perm.map _
    exact latencyFields_perm permuted recorded testDurationSeconds otherDuration

theorem percentiles_are_order_statistics_tie :
    Reports [7, 3, 7] (computeMetrics (afterCalls [.recordEvent { totalLatencyUs := 900 }, .reset,
      .recordEvent { totalLatencyUs := 7 }, .recordEvent { totalLatencyUs := 3 },
      .recordEvent { totalLatencyUs := 7 }]) 1) :=
  (percentiles_are_order_statistics [.recordEvent { totalLatencyUs := 900 }, .reset,
    .recordEvent { totalLatencyUs := 7 }, .recordEvent { totalLatencyUs := 3 },
    .recordEvent { totalLatencyUs := 7 }] (by simp [sinceReset]) 1).1

end SentinelLab.LatencyPercentiles
