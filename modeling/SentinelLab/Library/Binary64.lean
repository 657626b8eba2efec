import SentinelLab.Library.OrderStatistics
import SentinelLab.Library.RoundedArithmetic

/-! Machine numbers of 53 significant bits, as rationals. Of their rounding it is used that it keeps the
order and the integers of 53 bits, and that in the normal range its relative error is one in 2 ^ 53; the
rounding to the nearest does. -/

namespace SentinelLab.Library.Binary64
open RoundedArithmetic

structure Doubles extends Rounding ℚ where
  integers : ∀ n : Int, |n| ≤ 2 ^ 53 → round n = n
  relative : ∀ x : ℚ, 1 / 2 ^ 1022 ≤ x → x ≤ 2 ^ 1023 → |round x - x| ≤ x / 2 ^ 53

/-- From here on an integer is nearer to 2 ^ 1024 than to the largest machine number. -/
def overflowLimit : Int := 2 ^ 1024 - 2 ^ 970

theorem lt_overflowLimit {n : Int} (small : n ≤ 2 ^ 53) : n < overflowLimit := by
  have factors : (2 : Int) ^ 1024 = 2 ^ 54 * 2 ^ 970 := by rw [← pow_add]
  have positive : 0 < (2 : Int) ^ 970 := pow_pos (by decide) 970
  rw [overflowLimit, factors]
  generalize (2 : Int) ^ 970 = power at positive
  omega

/-- The conversion of an integer of any size; `none` is an overflow. -/
def Doubles.ofInteger (arith : Doubles) (n : Int) : Option ℚ :=
  if |n| < overflowLimit then some (arith.round n) else none

def truncate (x : ℚ) : Int := if 0 ≤ x then ⌊x⌋ else ⌈x⌉

variable (arith : Doubles)

theorem relative_div {dividend divisor : ℚ} (one : 1 ≤ dividend) (small : dividend ≤ 2 ^ 53) (unit : 1 ≤ divisor)
    (divisor_small : divisor ≤ 2 ^ 53) :
    |arith.div dividend divisor - dividend / divisor| ≤ dividend / divisor / 2 ^ 53 := by
  apply arith.relative
  · calc (1 : ℚ) / 2 ^ 1022 ≤ 1 / 2 ^ 53 := by gcongr <;> norm_num
      _ ≤ dividend / divisor := by gcongr
  · calc dividend / divisor ≤ 2 ^ 53 / 1 := by gcongr
      _ = 2 ^ 53 := div_one _
      _ ≤ 2 ^ 1023 := pow_le_pow_right₀ one_le_two (by decide)

theorem integers_of_pos {n : Int} (positive : 0 < n) (small : n ≤ 2 ^ 53) : arith.round n = n :=
  arith.integers n (by rwa [abs_of_pos positive])

theorem div_between {dividend divisor : Int} (some_dividend : 0 < dividend) (small : dividend ≤ 2 ^ 52)
    (positive : 0 < divisor) (exact_divisor : divisor ≤ 2 ^ 53) :
    ((dividend / divisor : Int) : ℚ) ≤ arith.div dividend divisor ∧
      arith.div dividend divisor < (dividend / divisor : Int) + 1 := by
  have one : (1 : ℚ) ≤ dividend := by exact_mod_cast some_dividend
  have bounded : (dividend : ℚ) ≤ 2 ^ 52 := by exact_mod_cast small
  have unit : (1 : ℚ) ≤ divisor := by exact_mod_cast positive
  have unit_small : (divisor : ℚ) ≤ 2 ^ 53 := by exact_mod_cast exact_divisor
  have integral : arith.round (dividend / divisor : Int) = (dividend / divisor : Int) := by
    have within : dividend / divisor ≤ dividend := Int.ediv_le_self _ some_dividend.le
    apply arith.integers
    rw [abs_of_nonneg (Int.ediv_nonneg some_dividend.le positive.le)]
    omega
  constructor
  · rw [← integral]
    apply arith.monotone
    rw [le_div_iff₀ (by positivity)]
    exact_mod_cast Int.ediv_mul_le dividend positive.ne'
  · -- The distance to the next integer is at least one part, the error is at most half of one.
    have near := (abs_le.mp (relative_div arith one (bounded.trans (by norm_num)) unit unit_small)).2
    have scaled : (dividend : ℚ) / divisor * divisor = dividend := div_mul_cancel₀ _ (by positivity)
    have next : (dividend : ℚ) + 1 ≤ ((dividend / divisor : Int) + 1) * divisor := by
      exact_mod_cast Int.lt_ediv_add_one_mul_self dividend positive
    have error : (dividend : ℚ) / divisor / 2 ^ 53 * divisor ≤ 1 / 2 := by
      rw [div_right_comm, div_mul_cancel₀ _ (by positivity)]
      linarith
    have short : arith.div dividend divisor * divisor < ((dividend / divisor : Int) + 1) * divisor := by
      calc arith.div dividend divisor * divisor
          ≤ (dividend / divisor + dividend / divisor / 2 ^ 53) * divisor := by
            gcongr
            linarith
        _ < ((dividend / divisor : Int) + 1) * divisor := by
            rw [add_mul, scaled]
            linarith
    exact lt_of_mul_lt_mul_right short (by positivity)

theorem div_rounded_lt_one {dividend divisor : Int} (some_dividend : 0 < dividend) (small : dividend ≤ 2 ^ 52)
    (large : 2 ^ 53 < divisor) :
    0 ≤ arith.div dividend (arith.round divisor) ∧ arith.div dividend (arith.round divisor) < 1 := by
  have nonneg : (0 : ℚ) ≤ dividend := by exact_mod_cast some_dividend.le
  have bounded : (dividend : ℚ) ≤ 2 ^ 52 := by exact_mod_cast small
  have rounded : (2 : ℚ) ^ 53 ≤ arith.round divisor := by
    have limit := arith.integers (2 ^ 53) (by decide)
    have above : arith.round ((2 ^ 53 : Int) : ℚ) ≤ arith.round divisor := by
      apply arith.monotone
      exact_mod_cast large.le
    rw [limit] at above
    exact_mod_cast above
  have half : (dividend : ℚ) / arith.round divisor ≤ 1 / 2 := by
    rw [div_le_iff₀ (lt_of_lt_of_le (by positivity) rounded)]
    linarith
  have near := (abs_le.mp (relative_div arith le_rfl (by norm_num) one_le_two (by norm_num))).2
  constructor
  · exact arith.nonneg (div_nonneg nonneg (le_trans (by positivity) rounded))
  · calc arith.div dividend (arith.round divisor) ≤ arith.div 1 2 := arith.monotone half
      _ < 1 := by linarith

/-- The quotient of two integers has its integer part, even where divisor and quotient are rounded. -/
theorem truncate_div {dividend divisor : Int} (some_dividend : 0 < dividend) (small : dividend ≤ 2 ^ 52)
    (positive : 0 < divisor) :
    truncate (arith.div (arith.round dividend) (arith.round divisor)) = dividend / divisor := by
  have kept : arith.round dividend = dividend := integers_of_pos arith some_dividend (by omega)
  have part : ((dividend / divisor : Int) : ℚ) ≤ arith.div dividend (arith.round divisor) ∧
      arith.div dividend (arith.round divisor) < (dividend / divisor : Int) + 1 := by
    rcases le_or_gt divisor (2 ^ 53) with exact_divisor | large
    · rw [integers_of_pos arith positive exact_divisor]
      exact div_between arith some_dividend small positive exact_divisor
    · have none : dividend / divisor = 0 := Int.ediv_eq_zero_of_lt some_dividend.le (by omega)
      rw [none, Int.cast_zero, zero_add]
      exact div_rounded_lt_one arith some_dividend small large
  have nonneg : (0 : ℚ) ≤ arith.div dividend (arith.round divisor) := by
    have quotient : 0 ≤ dividend / divisor := Int.ediv_nonneg some_dividend.le positive.le
    exact le_trans (by exact_mod_cast quotient) part.1
  rw [kept, truncate, if_pos nonneg]
  exact Int.floor_eq_iff.mpr part

theorem lt_div_mul {parts unit : Int} (some_parts : 0 < parts) (small : parts < 2 ^ 53) (some_unit : 0 < unit)
    (unit_small : unit ≤ 2 ^ 53) :
    (parts : ℚ) - 1 < arith.div (arith.round parts) (arith.round unit) * unit := by
  have kept : arith.round parts = parts := integers_of_pos arith some_parts small.le
  have unit_kept : arith.round unit = unit := integers_of_pos arith some_unit unit_small
  have one : (1 : ℚ) ≤ parts := by exact_mod_cast some_parts
  have bounded : (parts : ℚ) < 2 ^ 53 := by exact_mod_cast small
  have unit_one : (1 : ℚ) ≤ unit := by exact_mod_cast some_unit
  have unit_bounded : (unit : ℚ) ≤ 2 ^ 53 := by exact_mod_cast unit_small
  have near := (abs_le.mp (relative_div arith one bounded.le unit_one unit_bounded)).1
  have whole : (parts : ℚ) / unit * unit = parts := div_mul_cancel₀ _ (by positivity)
  rw [kept, unit_kept]
  calc (parts : ℚ) - 1 < parts - parts / 2 ^ 53 := by
        have fraction : (parts : ℚ) / 2 ^ 53 < 1 := (div_lt_one (by positivity)).mpr bounded
        linarith
    _ = (parts / unit - parts / unit / 2 ^ 53) * unit := by
        rw [sub_mul, whole, div_right_comm, div_mul_cancel₀ _ (by positivity)]
    _ ≤ arith.div parts unit * unit := by
        gcongr
        linarith

/-! ## Sums and means -/

/-- Zero, or in the middle of the normal range. -/
def Moderate (x : ℚ) : Prop := x = 0 ∨ 1 / 2 ^ 100 ≤ x ∧ x ≤ 2 ^ 100

theorem Moderate.nonneg {x : ℚ} (moderate : Moderate x) : 0 ≤ x := by
  rcases moderate with rfl | ⟨low, _⟩
  · exact le_rfl
  · exact le_trans (by positivity) low

theorem low_power {n : Nat} (few : n ≤ 2 ^ 52) : (1 : ℚ) / 2 ≤ (1 - 1 / 2 ^ 53) ^ n := by
  have count : (n : ℚ) ≤ 2 ^ 52 := by exact_mod_cast few
  calc (1 : ℚ) / 2 ≤ 1 + n * -(1 / 2 ^ 53) := by linarith
    _ ≤ (1 + -(1 / 2 ^ 53)) ^ n := one_add_mul_le_pow (by norm_num) n
    _ = (1 - 1 / 2 ^ 53) ^ n := by rw [← sub_eq_add_neg]

theorem high_power {n : Nat} (few : n ≤ 2 ^ 52) : (1 + 1 / 2 ^ 53 : ℚ) ^ n ≤ 2 := by
  have low := low_power few
  have inverse : (1 + 1 / 2 ^ 53 : ℚ) ^ n * (1 - 1 / 2 ^ 53) ^ n ≤ 1 := by
    rw [← mul_pow]
    exact pow_le_one₀ (by norm_num) (by norm_num)
  have positive : (0 : ℚ) ≤ (1 + 1 / 2 ^ 53) ^ n := by positivity
  nlinarith

theorem sum_eq_zero_or {values : List ℚ} (moderate : ∀ value ∈ values, Moderate value) :
    values.sum = 0 ∨ 1 / 2 ^ 100 ≤ values.sum := by
  induction values with
  | nil => exact .inl rfl
  | cons value rest ih =>
    have first := moderate value List.mem_cons_self
    have later := ih fun other member => moderate other (List.mem_cons_of_mem _ member)
    rw [List.sum_cons]
    rcases first with rfl | ⟨low, _⟩
    · rwa [zero_add]
    · right
      have nonneg : 0 ≤ rest.sum := by
        rcases later with zero | positive
        · exact zero.ge
        · exact le_trans (by positivity) positive
      linarith

theorem sum_le_power {values : List ℚ} (few : values.length ≤ 2 ^ 52)
    (moderate : ∀ value ∈ values, Moderate value) : values.sum ≤ 2 ^ 152 := by
  have count : (values.length : ℚ) ≤ 2 ^ 52 := by exact_mod_cast few
  have below : ∀ value ∈ values, value ≤ 2 ^ 100 := by
    intro value member
    rcases moderate value member with rfl | ⟨_, high⟩
    · positivity
    · exact high
  calc values.sum ≤ values.length • (2 ^ 100 : ℚ) := List.sum_le_card_nsmul values _ below
    _ = values.length * 2 ^ 100 := nsmul_eq_mul _ _
    _ ≤ 2 ^ 52 * 2 ^ 100 := by gcongr
    _ = 2 ^ 152 := by rw [← pow_add]

theorem round_between {x low high : ℚ} (above : low ≤ x) (below : x ≤ high) (normal : 1 / 2 ^ 200 ≤ low)
    (top : high ≤ 2 ^ 200) : (1 - 1 / 2 ^ 53) * low ≤ arith.round x ∧ arith.round x ≤ (1 + 1 / 2 ^ 53) * high := by
  have from_low : (1 : ℚ) / 2 ^ 1022 ≤ x := by
    calc (1 : ℚ) / 2 ^ 1022 ≤ 1 / 2 ^ 200 := by gcongr <;> norm_num
      _ ≤ x := normal.trans above
  have to_high : x ≤ 2 ^ 1023 := by
    calc x ≤ 2 ^ 200 := below.trans top
      _ ≤ 2 ^ 1023 := pow_le_pow_right₀ one_le_two (by decide)
  have near := abs_le.mp (arith.relative x from_low to_high)
  constructor
  · calc (1 - 1 / 2 ^ 53) * low ≤ (1 - 1 / 2 ^ 53) * x := mul_le_mul_of_nonneg_left above (by norm_num)
      _ ≤ arith.round x := by linarith [near.1]
  · calc arith.round x ≤ (1 + 1 / 2 ^ 53) * x := by linarith [near.2]
      _ ≤ (1 + 1 / 2 ^ 53) * high := mul_le_mul_of_nonneg_left below (by norm_num)

theorem sum_between {values : List ℚ} (few : values.length ≤ 2 ^ 52)
    (moderate : ∀ value ∈ values, Moderate value) :
    (1 - 1 / 2 ^ 53) ^ values.length * values.sum ≤ arith.sum values ∧
      arith.sum values ≤ (1 + 1 / 2 ^ 53) ^ values.length * values.sum := by
  induction values using List.reverseRecOn with
  | nil => simp [Rounding.sum]
  | append_singleton values value ih =>
    have shorter : values.length ≤ 2 ^ 52 := by
      rw [List.length_append] at few
      omega
    obtain ⟨above, below⟩ := ih shorter fun other member => moderate other (List.mem_append_left _ member)
    have nonneg : 0 ≤ value := (moderate value (by simp)).nonneg
    have low := low_power shorter
    have high := high_power shorter
    have total := sum_le_power few moderate
    have lower : (1 - 1 / 2 ^ 53) ^ values.length * (values ++ [value]).sum ≤ arith.sum values + value := by
      have less : (1 - 1 / 2 ^ 53 : ℚ) ^ values.length ≤ 1 := pow_le_one₀ (by norm_num) (by norm_num)
      rw [List.sum_append, List.sum_singleton, mul_add]
      linarith [mul_le_of_le_one_left nonneg less]
    have upper : arith.sum values + value ≤ (1 + 1 / 2 ^ 53) ^ values.length * (values ++ [value]).sum := by
      have more : (1 : ℚ) ≤ (1 + 1 / 2 ^ 53) ^ values.length := one_le_pow₀ (by norm_num)
      rw [List.sum_append, List.sum_singleton, mul_add]
      linarith [le_mul_of_one_le_left nonneg more]
    rw [arith.sum_append, Rounding.add, List.length_append, List.length_singleton]
    rcases sum_eq_zero_or moderate with zero | positive
    · rw [zero, mul_zero] at lower upper
      rw [le_antisymm upper lower, arith.zero, zero, mul_zero, mul_zero]
      exact ⟨le_rfl, le_rfl⟩
    · have rounded := round_between arith lower upper
        (by
          calc (1 : ℚ) / 2 ^ 200 ≤ 1 / 2 * (1 / 2 ^ 100) := by norm_num
            _ ≤ (1 - 1 / 2 ^ 53) ^ values.length * (values ++ [value]).sum := by gcongr)
        (by
          calc (1 + 1 / 2 ^ 53 : ℚ) ^ values.length * (values ++ [value]).sum ≤ 2 * 2 ^ 152 := by
                gcongr
            _ ≤ 2 ^ 200 := by norm_num)
      rwa [pow_succ' (1 - 1 / 2 ^ 53 : ℚ), pow_succ' (1 + 1 / 2 ^ 53 : ℚ), mul_assoc, mul_assoc]

/-- The mean lies between bounds of the values, up to one relative error for each operation. -/
theorem rounded_mean_between {values : List ℚ} {low high : ℚ} (some_value : values ≠ []) (few : values.length ≤ 2 ^ 52)
    (moderate : ∀ value ∈ values, Moderate value) (least : ∀ value ∈ values, low ≤ value)
    (greatest : ∀ value ∈ values, value ≤ high) :
    (1 - 1 / 2 ^ 53) ^ (values.length + 1) * low ≤ arith.mean values ∧
      arith.mean values ≤ (1 + 1 / 2 ^ 53) ^ (values.length + 1) * high := by
  obtain ⟨above, below⟩ := sum_between arith few moderate
  have positive : 0 < values.length := List.length_pos_iff.mpr some_value
  have one : (1 : ℚ) ≤ values.length := by exact_mod_cast positive
  have count : (values.length : ℚ) ≤ 2 ^ 52 := by exact_mod_cast few
  have kept : arith.ofNat values.length = values.length := by
    have integer := integers_of_pos arith (n := values.length) (by exact_mod_cast positive) (by omega)
    rwa [Int.cast_natCast] at integer
  obtain ⟨least_mean, greatest_mean⟩ := OrderStatistics.mean_between some_value least greatest
  have lower : (1 - 1 / 2 ^ 53) ^ values.length * (values.sum / values.length) ≤
      arith.sum values / values.length := by
    rw [← mul_div_assoc]
    gcongr
  have upper : arith.sum values / values.length ≤
      (1 + 1 / 2 ^ 53) ^ values.length * (values.sum / values.length) := by
    rw [← mul_div_assoc]
    gcongr
  have low_factor := low_power few
  have high_factor := high_power few
  rw [Rounding.mean, Rounding.div, kept]
  rcases sum_eq_zero_or moderate with zero | some_sum
  · rw [zero, zero_div, mul_zero] at lower upper
    rw [zero, zero_div] at least_mean greatest_mean
    rw [le_antisymm upper lower, arith.zero]
    exact ⟨mul_nonpos_of_nonneg_of_nonpos (by positivity) least_mean, mul_nonneg (by positivity) greatest_mean⟩
  · have total := sum_le_power few moderate
    have rounded := round_between arith lower upper
      (by
        calc (1 : ℚ) / 2 ^ 200 ≤ 1 / 2 * (1 / 2 ^ 100 / 2 ^ 52) := by norm_num
          _ ≤ (1 - 1 / 2 ^ 53) ^ values.length * (values.sum / values.length) := by gcongr)
      (by
        calc (1 + 1 / 2 ^ 53 : ℚ) ^ values.length * (values.sum / values.length) ≤ 2 * (2 ^ 152 / 1) := by
              gcongr
          _ ≤ 2 ^ 200 := by norm_num)
    rw [← mul_assoc, ← mul_assoc, ← pow_succ', ← pow_succ'] at rounded
    constructor
    · exact le_trans (mul_le_mul_of_nonneg_left least_mean (by positivity)) rounded.1
    · exact le_trans rounded.2 (mul_le_mul_of_nonneg_left greatest_mean (by positivity))

/-! ## Rounding to the nearest -/

/-- The nearest integer, and of two the even one. -/
def nearestInteger (y : ℚ) : Int :=
  let below := ⌊y⌋
  if y - below < 1 / 2 then below
  else if 1 / 2 < y - below then below + 1
  else if below % 2 = 0 then below else below + 1

theorem nearestInteger_between (y : ℚ) : ⌊y⌋ ≤ nearestInteger y ∧ nearestInteger y ≤ ⌊y⌋ + 1 := by
  unfold nearestInteger
  dsimp only
  split
  next => omega
  next =>
    split
    next => omega
    next => split <;> omega

theorem nearestInteger_mono : Monotone nearestInteger := by
  intro x y le
  have above := (nearestInteger_between x).2
  have below := (nearestInteger_between y).1
  have floors : ⌊x⌋ ≤ ⌊y⌋ := Int.floor_le_floor le
  by_cases low : x - ⌊x⌋ < 1 / 2
  · have down : nearestInteger x = ⌊x⌋ := if_pos low
    omega
  · rcases floors.lt_or_eq with less | same
    · omega
    · rcases le.eq_or_lt with rfl | less
      · exact le_rfl
      · have high : 1 / 2 < y - ⌊y⌋ := by
          rw [← same]
          linarith
        have up : nearestInteger y = ⌊y⌋ + 1 := by
          unfold nearestInteger
          dsimp only
          rw [if_neg (not_lt.mpr high.le), if_pos high]
        omega

theorem nearestInteger_intCast (n : Int) : nearestInteger n = n := by
  have whole : (n : ℚ) - ⌊(n : ℚ)⌋ < 1 / 2 := by
    rw [Int.floor_intCast, sub_self]
    norm_num
  have down : nearestInteger n = ⌊(n : ℚ)⌋ := if_pos whole
  rw [down, Int.floor_intCast]

theorem abs_nearestInteger_sub_le (y : ℚ) : |(nearestInteger y : ℚ) - y| ≤ 1 / 2 := by
  have below := Int.floor_le y
  have above := Int.lt_floor_add_one y
  unfold nearestInteger
  dsimp only
  split
  next low =>
    rw [abs_le]
    constructor <;> linarith
  next =>
    have up : |((⌊y⌋ + 1 : Int) : ℚ) - y| ≤ 1 / 2 := by
      push_cast
      rw [abs_le]
      constructor <;> linarith
    split
    next => exact up
    next middle =>
      split
      next =>
        rw [abs_le]
        constructor <;> linarith
      next => exact up

def exponent (x : ℚ) : Int := max (Int.log 2 x) (-1022)

def quantum (x : ℚ) : ℚ := 2 ^ (exponent x - 52)

def nearestPositive (x : ℚ) : ℚ := nearestInteger (x / quantum x) * quantum x

/-- The nearest machine number. Beyond the largest one the exponents go on. -/
def nearest (x : ℚ) : ℚ := if 0 ≤ x then nearestPositive x else -nearestPositive (-x)

theorem quantum_pos (x : ℚ) : 0 < quantum x := zpow_pos two_pos _

theorem power_quantum (x : ℚ) (bits : Nat) : ((2 ^ bits : Int) : ℚ) * quantum x = 2 ^ (exponent x - 52 + bits) := by
  rw [Int.cast_pow, Int.cast_ofNat, ← zpow_natCast, quantum, mul_comm, ← zpow_add₀ two_ne_zero]

theorem nearestPositive_le {x : ℚ} {steps : Int} (le : x ≤ steps * quantum x) :
    nearestPositive x ≤ steps * quantum x := by
  have integer := nearestInteger_mono ((div_le_iff₀ (quantum_pos x)).mpr le)
  rw [nearestInteger_intCast] at integer
  exact mul_le_mul_of_nonneg_right (by exact_mod_cast integer) (quantum_pos x).le

theorem le_nearestPositive {x : ℚ} {steps : Int} (le : steps * quantum x ≤ x) :
    steps * quantum x ≤ nearestPositive x := by
  have integer := nearestInteger_mono ((le_div_iff₀ (quantum_pos x)).mpr le)
  rw [nearestInteger_intCast] at integer
  exact mul_le_mul_of_nonneg_right (by exact_mod_cast integer) (quantum_pos x).le

theorem nearestPositive_nonneg {x : ℚ} (nonneg : 0 ≤ x) : 0 ≤ nearestPositive x := by
  have low : ((0 : Int) : ℚ) * quantum x ≤ nearestPositive x := le_nearestPositive (by rwa [Int.cast_zero, zero_mul])
  rwa [Int.cast_zero, zero_mul] at low

theorem nearestPositive_eq {x : ℚ} {steps : Int} (multiple : x = steps * quantum x) : nearestPositive x = x := by
  apply le_antisymm
  · conv_rhs => rw [multiple]
    exact nearestPositive_le multiple.le
  · conv_lhs => rw [multiple]
    exact le_nearestPositive multiple.ge

theorem nearest_eq {x : ℚ} {e steps : Int} (normal : -1022 ≤ e) (low : 2 ^ e ≤ x) (high : x < 2 ^ (e + 1))
    (integer : nearestInteger (x / 2 ^ (e - 52)) = steps) : nearest x = steps * 2 ^ (e - 52) := by
  have positive : 0 < x := lt_of_lt_of_le (zpow_pos two_pos _) low
  have from_low : e ≤ Int.log 2 x := by
    apply (Int.zpow_le_iff_le_log one_lt_two positive).mp
    rwa [Nat.cast_ofNat]
  have to_high : Int.log 2 x < e + 1 := by
    apply (Int.lt_zpow_iff_log_lt one_lt_two positive).mp
    rwa [Nat.cast_ofNat]
  have same : exponent x = e := by
    unfold exponent
    omega
  rw [nearest, if_pos positive.le, nearestPositive, quantum, same, integer]

theorem nearestPositive_zero : nearestPositive 0 = 0 := by
  have multiple : (0 : ℚ) = (0 : Int) * quantum 0 := by rw [Int.cast_zero, zero_mul]
  exact nearestPositive_eq multiple

theorem lt_power_exponent (x : ℚ) : x < 2 ^ (exponent x + 1) := by
  calc x < 2 ^ (Int.log 2 x + 1) := Int.lt_zpow_succ_log_self one_lt_two x
    _ ≤ 2 ^ (exponent x + 1) := zpow_le_zpow_right₀ one_le_two (by unfold exponent; omega)

theorem nearestPositive_mono {x y : ℚ} (positive : 0 < x) (le : x ≤ y) : nearestPositive x ≤ nearestPositive y := by
  have logs : Int.log 2 x ≤ Int.log 2 y := Int.log_mono_right positive le
  have exponents : exponent x ≤ exponent y := max_le_max_right _ logs
  rcases exponents.eq_or_lt with same | less
  · have distances : quantum x = quantum y := by rw [quantum, quantum, same]
    unfold nearestPositive
    rw [distances]
    have quotients : x / quantum y ≤ y / quantum y := div_le_div_of_nonneg_right le (quantum_pos y).le
    have integers : (nearestInteger (x / quantum y) : ℚ) ≤ nearestInteger (y / quantum y) := by
      exact_mod_cast nearestInteger_mono quotients
    exact mul_le_mul_of_nonneg_right integers (quantum_pos y).le
  · -- A power of two is between the two.
    have normal : exponent y = Int.log 2 y := by
      unfold exponent at less ⊢
      omega
    have above : ((2 ^ 53 : Int) : ℚ) * quantum x = 2 ^ (exponent x + 1) := by
      rw [power_quantum]
      congr 1
      omega
    have below : ((2 ^ 52 : Int) : ℚ) * quantum y = 2 ^ exponent y := by
      rw [power_quantum]
      congr 1
      omega
    calc nearestPositive x ≤ ((2 ^ 53 : Int) : ℚ) * quantum x := by
          apply nearestPositive_le
          rw [above]
          exact (lt_power_exponent x).le
      _ = 2 ^ (exponent x + 1) := above
      _ ≤ 2 ^ exponent y := zpow_le_zpow_right₀ one_le_two less
      _ = ((2 ^ 52 : Int) : ℚ) * quantum y := below.symm
      _ ≤ nearestPositive y := by
          apply le_nearestPositive
          rw [below, normal]
          exact Int.zpow_log_le_self one_lt_two (positive.trans_le le)

theorem nearest_monotone : Monotone nearest := by
  intro x y le
  unfold nearest
  by_cases positive : 0 ≤ x
  · rw [if_pos positive, if_pos (positive.trans le)]
    rcases positive.eq_or_lt with rfl | above
    · rw [nearestPositive_zero]
      exact nearestPositive_nonneg le
    · exact nearestPositive_mono above le
  · rw [if_neg positive]
    by_cases positive' : 0 ≤ y
    · rw [if_pos positive']
      have low := nearestPositive_nonneg (neg_nonneg.mpr (not_le.mp positive).le)
      have high := nearestPositive_nonneg positive'
      linarith
    · rw [if_neg positive']
      exact neg_le_neg (nearestPositive_mono (neg_pos.mpr (not_le.mp positive')) (neg_le_neg le))

theorem nearestPositive_intCast {n : Int} (positive : 0 < n) (small : n ≤ 2 ^ 53) : nearestPositive n = n := by
  have above : (0 : ℚ) < n := by exact_mod_cast positive
  by_cases limit : n = 2 ^ 53
  · have power : ((2 ^ 53 : Int) : ℚ) = ((2 : Nat) : ℚ) ^ (53 : Int) := by norm_num
    have top : exponent ((2 ^ 53 : Int) : ℚ) = 53 := by
      rw [exponent, power, Int.log_zpow one_lt_two]
      rfl
    have multiple : ((2 ^ 53 : Int) : ℚ) = (2 ^ 52 : Int) * quantum (2 ^ 53 : Int) := by
      rw [power_quantum, top]
      norm_num
    rw [limit]
    exact nearestPositive_eq multiple
  · have below : exponent n ≤ 52 := by
      have smaller : (n : ℚ) < ((2 : Nat) : ℚ) ^ (53 : Int) := by
        rw [zpow_ofNat]
        exact_mod_cast lt_of_le_of_ne small limit
      have log := (Int.lt_zpow_iff_log_lt one_lt_two above).mp smaller
      unfold exponent
      omega
    obtain ⟨bits, same⟩ := Int.le.dest below
    have unit : ((2 ^ bits : Int) : ℚ) * quantum n = 1 := by
      rw [power_quantum, ← zpow_zero 2]
      congr 1
      omega
    have multiple : (n : ℚ) = (n * 2 ^ bits : Int) * quantum n := by
      rw [Int.cast_mul, mul_assoc, unit, mul_one]
    exact nearestPositive_eq multiple

theorem nearest_intCast {n : Int} (small : |n| ≤ 2 ^ 53) : nearest n = n := by
  unfold nearest
  rcases lt_trichotomy n 0 with negative | rfl | positive
  · have below : (n : ℚ) < 0 := by exact_mod_cast negative
    have opposite : nearestPositive (-n : Int) = (-n : Int) := by
      apply nearestPositive_intCast (neg_pos.mpr negative)
      rwa [← abs_of_neg negative]
    rw [Int.cast_neg] at opposite
    rw [if_neg (not_le.mpr below), opposite, neg_neg]
  · rw [Int.cast_zero, if_pos le_rfl]
    exact nearestPositive_zero
  · have above : (0 : ℚ) ≤ n := by exact_mod_cast positive.le
    rw [if_pos above]
    exact nearestPositive_intCast positive (by rwa [abs_of_pos positive] at small)

theorem abs_nearest_sub_le {x : ℚ} (normal : 1 / 2 ^ 1022 ≤ x) : |nearest x - x| ≤ x / 2 ^ 53 := by
  have positive : 0 < x := lt_of_lt_of_le (by positivity) normal
  have least : (-1022 : Int) ≤ Int.log 2 x := by
    apply (Int.zpow_le_iff_le_log one_lt_two positive).mp
    rwa [Nat.cast_ofNat, zpow_neg, zpow_ofNat, ← one_div]
  have power : (2 : ℚ) ^ exponent x ≤ x := by
    rw [exponent, max_eq_left least]
    exact Int.zpow_log_le_self one_lt_two positive
  have scaled : nearestPositive x - x = (nearestInteger (x / quantum x) - x / quantum x) * quantum x := by
    rw [nearestPositive, sub_mul, div_mul_cancel₀ _ (quantum_pos x).ne']
  have half : 1 / 2 * quantum x = 2 ^ exponent x / 2 ^ 53 := by
    rw [quantum, zpow_sub₀ two_ne_zero, zpow_ofNat]
    ring
  unfold nearest
  rw [if_pos positive.le, scaled, abs_mul, abs_of_pos (quantum_pos x)]
  calc |(nearestInteger (x / quantum x) : ℚ) - x / quantum x| * quantum x ≤ 1 / 2 * quantum x :=
        mul_le_mul_of_nonneg_right (abs_nearestInteger_sub_le _) (quantum_pos x).le
    _ = 2 ^ exponent x / 2 ^ 53 := half
    _ ≤ x / 2 ^ 53 := div_le_div_of_nonneg_right power (by positivity)

def binary64 : Doubles where
  round := nearest
  monotone := nearest_monotone
  zero := by
    have zero := nearest_intCast (abs_zero.trans_le (by decide))
    rwa [Int.cast_zero] at zero
  integers _ small := nearest_intCast small
  relative _ normal _ := abs_nearest_sub_le normal

end SentinelLab.Library.Binary64
