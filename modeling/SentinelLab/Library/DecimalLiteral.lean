import SentinelLab.Library.DecimalText
import SentinelLab.Library.NumberText

/-! What the text of `%g` says: it is a number literal, and its value is the number rounded to the
given count of significant digits. -/

namespace SentinelLab.Library.DecimalText
open SentinelLab.Library.NumberText

/-! ## The digits of a natural number -/

def lastDigit (n : Nat) : Fin 10 := ⟨n % 10, Nat.mod_lt n (by decide)⟩

@[simp] theorem lastDigit_zero : lastDigit 0 = 0 := rfl

def numeralDigits (n : Nat) : List (Fin 10) :=
  if n < 10 then [lastDigit n] else numeralDigits (n / 10) ++ [lastDigit n]

theorem digitChar_lastDigit (n : Nat) : digitChar (lastDigit n) = Nat.digitChar (n % 10) := rfl

theorem toDigits_eq (n : Nat) : Nat.toDigits 10 n = digitText (numeralDigits n) := by
  induction n using numeralDigits.induct with
  | case1 n small =>
    have char := digitChar_lastDigit n
    rw [Nat.mod_eq_of_lt small] at char
    rw [numeralDigits, if_pos small, Nat.toDigits_of_lt_base small, digitText, List.map_singleton, char]
  | case2 n large ih =>
    rw [numeralDigits, if_neg large, Nat.toDigits_of_base_le (by decide) (Nat.le_of_not_lt large), ih, digitText,
      digitText, List.map_append, List.map_singleton, digitChar_lastDigit]

theorem value_append (front back : List Nat) :
    value 10 (front ++ back) = value 10 front * 10 ^ back.length + value 10 back := by
  rw [value, List.reverse_append, Nat.ofDigits_append, List.length_reverse, Nat.add_comm, Nat.mul_comm]
  rfl

theorem value_numeralDigits (n : Nat) : value 10 (numerals (numeralDigits n)) = n := by
  induction n using numeralDigits.induct with
  | case1 n small =>
    rw [numeralDigits, if_pos small]
    simp [numerals, value, lastDigit, Nat.mod_eq_of_lt small]
  | case2 n large ih =>
    have joined : numerals (numeralDigits (n / 10) ++ [lastDigit n]) =
        numerals (numeralDigits (n / 10)) ++ [n % 10] := by simp [numerals, lastDigit]
    rw [numeralDigits, if_neg large, joined, value_append, ih]
    simp only [value, List.reverse_singleton, Nat.ofDigits_singleton, List.length_singleton, pow_one]
    omega

theorem length_numeralDigits (n k : Nat) (lower : 10 ^ k ≤ n) (upper : n < 10 ^ (k + 1)) :
    (numeralDigits n).length = k + 1 := by
  induction k generalizing n with
  | zero =>
    rw [numeralDigits, if_pos (by simpa using upper)]
    rfl
  | succ k ih =>
    have large : ¬n < 10 := by
      have ten : 10 ≤ 10 ^ (k + 1) := by
        rw [pow_succ]
        exact Nat.le_mul_of_pos_left 10 (Nat.pow_pos (by decide))
      omega
    rw [pow_succ] at lower upper
    rw [numeralDigits, if_neg large, List.length_append, ih (n / 10) (by omega) (by omega)]
    rfl

theorem head_numeralDigits {n : Nat} (positive : 0 < n) :
    ∃ digit others, numeralDigits n = digit :: others ∧ digit ≠ 0 := by
  induction n using numeralDigits.induct with
  | case1 n small =>
    refine ⟨lastDigit n, [], by rw [numeralDigits, if_pos small], ?_⟩
    intro zero
    have same := congrArg Fin.val zero
    simp only [lastDigit, Nat.mod_eq_of_lt small] at same
    omega
  | case2 n large ih =>
    obtain ⟨digit, others, front, nonzero⟩ := ih (by omega)
    exact ⟨digit, others ++ [lastDigit n], by rw [numeralDigits, if_neg large, front]; rfl, nonzero⟩

/-! ## Rounding -/

theorem roundHalfEven_bounds {number : ℚ} (nonneg : 0 ≤ number) :
    ⌊number⌋₊ ≤ roundHalfEven number ∧ roundHalfEven number ≤ ⌊number⌋₊ + 1 ∧
      |(roundHalfEven number : ℚ) - number| ≤ 1 / 2 := by
  have below := Nat.floor_le nonneg
  have above := Nat.lt_floor_add_one number
  unfold roundHalfEven
  dsimp only
  split
  next near =>
    refine ⟨le_rfl, Nat.le_succ _, ?_⟩
    rw [abs_sub_comm, abs_of_nonneg (by linarith)]
    exact near.le
  · split
    next far =>
      refine ⟨Nat.le_succ _, le_rfl, ?_⟩
      push_cast
      rw [abs_of_nonneg (by linarith)]
      linarith
    next near far =>
      have half : number - ⌊number⌋₊ = 1 / 2 := le_antisymm (not_lt.mp far) (not_lt.mp near)
      rcases Nat.mod_two_eq_zero_or_one ⌊number⌋₊ with even | odd
      · rw [even]
        refine ⟨le_rfl, Nat.le_succ _, ?_⟩
        rw [Nat.add_zero, abs_sub_comm, half, abs_of_nonneg (by norm_num)]
      · rw [odd]
        refine ⟨Nat.le_succ _, le_rfl, ?_⟩
        push_cast
        have gap : (⌊number⌋₊ : ℚ) + 1 - number = 1 / 2 := by linarith
        rw [gap, abs_of_nonneg (by norm_num)]

theorem roundHalfEven_natCast (n : Nat) : roundHalfEven (n : ℚ) = n := by
  unfold roundHalfEven
  dsimp only
  rw [Nat.floor_natCast, if_pos (by norm_num)]

/-! ## Significant digits -/

def rounded (precision : Nat) (number : ℚ) : ℚ :=
  (significant precision number).1 * (10 : ℚ) ^ ((significant precision number).2 + 1 - precision)

theorem scaled_bounds {precision : Nat} (some_digits : 0 < precision) {number : ℚ} (positive : 0 < number) :
    (10 ^ (precision - 1) : Nat) ≤ number / (10 : ℚ) ^ (Int.log 10 number + 1 - precision) ∧
      number / (10 : ℚ) ^ (Int.log 10 number + 1 - precision) < (10 ^ precision : Nat) := by
  have lower := Int.zpow_log_le_self (b := 10) (by decide) positive
  have upper := Int.lt_zpow_succ_log_self (b := 10) (by decide) number
  have unit : (0 : ℚ) < 10 ^ (Int.log 10 number + 1 - precision) := zpow_pos (by norm_num) _
  push_cast at lower upper ⊢
  constructor
  · rw [le_div_iff₀ unit, ← zpow_natCast, ← zpow_add₀ (by norm_num : (10 : ℚ) ≠ 0)]
    convert lower using 2
    push_cast [Nat.cast_sub some_digits]
    ring
  · rw [div_lt_iff₀ unit, ← zpow_natCast, ← zpow_add₀ (by norm_num : (10 : ℚ) ≠ 0)]
    convert upper using 2
    ring

theorem significant_bounds {precision : Nat} (some_digits : 0 < precision) {number : ℚ} (positive : 0 < number) :
    10 ^ (precision - 1) ≤ (significant precision number).1 ∧ (significant precision number).1 < 10 ^ precision := by
  obtain ⟨lower, upper⟩ := scaled_bounds some_digits positive
  set scaled := number / (10 : ℚ) ^ (Int.log 10 number + 1 - precision) with scaled_def
  have nonneg : 0 ≤ scaled := le_trans (Nat.cast_nonneg _) lower
  have bounds := roundHalfEven_bounds nonneg
  have floor_lower := Nat.le_floor lower
  have floor_upper := (Nat.floor_lt nonneg).mpr upper
  have smaller : 10 ^ (precision - 1) < 10 ^ precision := Nat.pow_lt_pow_right (by decide) (by omega)
  unfold significant
  dsimp only
  rw [← scaled_def]
  split
  next top => exact ⟨le_rfl, smaller⟩
  next inside =>
    dsimp only
    omega

theorem rounded_sub_le {precision : Nat} (some_digits : 0 < precision) {number : ℚ} (positive : 0 < number) :
    |rounded precision number - number| ≤ 1 / 2 * (10 : ℚ) ^ (Int.log 10 number + 1 - precision) := by
  obtain ⟨lower, -⟩ := scaled_bounds some_digits positive
  have unit : (0 : ℚ) < 10 ^ (Int.log 10 number + 1 - precision) := zpow_pos (by norm_num) _
  have value : rounded precision number =
      roundHalfEven (number / (10 : ℚ) ^ (Int.log 10 number + 1 - precision)) *
        (10 : ℚ) ^ (Int.log 10 number + 1 - precision) := by
    unfold rounded significant
    dsimp only
    split
    next top =>
      rw [top]
      push_cast
      rw [← zpow_natCast, ← zpow_natCast, ← zpow_add₀ (by norm_num), ← zpow_add₀ (by norm_num)]
      congr 1
      push_cast [Nat.cast_sub some_digits]
      ring
    next inside => rfl
  have near := (roundHalfEven_bounds (le_trans (Nat.cast_nonneg _) lower)).2.2
  have scaled : rounded precision number - number =
      (roundHalfEven (number / (10 : ℚ) ^ (Int.log 10 number + 1 - precision)) -
        number / (10 : ℚ) ^ (Int.log 10 number + 1 - precision)) *
          (10 : ℚ) ^ (Int.log 10 number + 1 - precision) := by
    rw [value, sub_mul, div_mul_cancel₀ _ unit.ne']
  rw [scaled, abs_mul, abs_of_pos unit]
  exact mul_le_mul_of_nonneg_right near unit.le

/-- Relative to the number, rounding is off by at most half a unit of the last digit. -/
theorem rounded_error {precision : Nat} (some_digits : 0 < precision) {number : ℚ} (positive : 0 < number) :
    |rounded precision number - number| ≤ 1 / 2 * (10 : ℚ) ^ (1 - precision : Int) * number := by
  have lower := Int.zpow_log_le_self (b := 10) (by decide) positive
  push_cast at lower
  have split : (10 : ℚ) ^ (Int.log 10 number + 1 - precision) =
      (10 : ℚ) ^ (1 - precision : Int) * (10 : ℚ) ^ Int.log 10 number := by
    rw [← zpow_add₀ (by norm_num)]
    congr 1
    ring
  have unit : (0 : ℚ) ≤ 1 / 2 * 10 ^ (1 - precision : Int) := by positivity
  calc |rounded precision number - number|
      ≤ 1 / 2 * (10 : ℚ) ^ (Int.log 10 number + 1 - precision) := rounded_sub_le some_digits positive
    _ = 1 / 2 * (10 : ℚ) ^ (1 - precision : Int) * (10 : ℚ) ^ Int.log 10 number := by rw [split, mul_assoc]
    _ ≤ 1 / 2 * (10 : ℚ) ^ (1 - precision : Int) * number := mul_le_mul_of_nonneg_left lower unit

theorem rounded_natCast {precision n : Nat} (positive : 0 < n) (digits : n < 10 ^ precision) :
    rounded precision n = n := by
  have some_digits : 0 < precision := by
    by_contra none
    rw [Nat.le_zero.mp (Nat.le_of_not_lt none), pow_zero] at digits
    omega
  have log : Int.log 10 (n : ℚ) = Nat.log 10 n := Int.log_natCast 10 n
  have below : Nat.log 10 n < precision := Nat.log_lt_of_lt_pow positive.ne' digits
  obtain ⟨shift, shift_eq⟩ := Nat.exists_eq_add_of_lt below
  have unit : (10 : ℚ) ^ (Int.log 10 (n : ℚ) + 1 - precision) = ((10 : ℚ) ^ shift)⁻¹ := by
    rw [log, ← zpow_natCast, ← zpow_neg]
    congr 1
    omega
  have scaled : (n : ℚ) / (10 : ℚ) ^ (Int.log 10 (n : ℚ) + 1 - precision) = (n * 10 ^ shift : Nat) := by
    rw [unit, div_inv_eq_mul]
    push_cast
    rfl
  have inside := (scaled_bounds some_digits (Nat.cast_pos.mpr positive)).2
  rw [scaled, Nat.cast_lt] at inside
  unfold rounded significant
  dsimp only
  rw [scaled, roundHalfEven_natCast, if_neg inside.ne, unit]
  push_cast
  rw [mul_assoc, mul_inv_cancel₀ (by positivity), mul_one]

/-! ## The literal -/

def keptDigits (digits : List (Fin 10)) : List (Fin 10) := digits.rdropWhile (·.val = 0)

def fractionOf (digits : List (Fin 10)) : Option (List (Fin 10)) :=
  if keptDigits digits = [] then none else some (keptDigits digits)

theorem fractionOf_getD (digits : List (Fin 10)) : (fractionOf digits).getD [] = keptDigits digits := by
  unfold fractionOf
  split
  next empty => rw [empty]; rfl
  next => rfl

theorem keptDigits_append (digits : List (Fin 10)) :
    ∃ count, digits = keptDigits digits ++ List.replicate count 0 := by
  induction digits using List.reverseRecOn with
  | nil => exact ⟨0, rfl⟩
  | append_singleton digits last ih =>
    by_cases zero : last = 0
    · obtain ⟨count, split⟩ := ih
      use count + 1
      rw [keptDigits, List.rdropWhile_concat_pos _ _ _ (by simpa using zero), ← keptDigits, List.replicate_succ',
        ← List.append_assoc, ← split, zero]
    · use 0
      rw [keptDigits, List.rdropWhile_concat_neg _ _ _ (by simpa using zero), List.replicate_zero, List.append_nil]

theorem digitText_append (front back : List (Fin 10)) :
    digitText (front ++ back) = digitText front ++ digitText back := List.map_append

theorem digitText_replicate (count : Nat) : digitText (List.replicate count 0) = List.replicate count '0' :=
  List.map_replicate

theorem digitChar_eq_zero_iff (digit : Fin 10) : digitChar digit = '0' ↔ digit = 0 := by
  revert digit
  decide

theorem rdropWhile_digitText (digits : List (Fin 10)) :
    (digitText digits).rdropWhile (· = '0') = digitText (keptDigits digits) := by
  induction digits using List.reverseRecOn with
  | nil => rfl
  | append_singleton digits last ih =>
    rw [digitText_append, keptDigits]
    by_cases zero : last = 0
    · rw [List.rdropWhile_concat_pos _ _ _ (by simpa using zero), ← keptDigits, ← ih]
      exact List.rdropWhile_concat_pos _ _ _ (by simpa using (digitChar_eq_zero_iff last).mpr zero)
    · rw [List.rdropWhile_concat_neg _ _ _ (by simpa using zero), digitText_append]
      exact List.rdropWhile_concat_neg _ _ _ (by simpa [digitChar_eq_zero_iff] using zero)

theorem decimals_digitText (digits : List (Fin 10)) :
    decimals (digitText digits) =
      match fractionOf digits with
      | some digits => '.' :: digitText digits
      | none => [] := by
  unfold decimals fractionOf
  simp only [rdropWhile_digitText]
  by_cases empty : keptDigits digits = []
  · rw [if_pos empty, empty]
    rfl
  · have text : digitText (keptDigits digits) ≠ [] := fun nil => empty (List.map_eq_nil_iff.mp nil)
    rw [if_neg empty, if_neg text]

theorem value_zeros (digits : List Nat) (count : Nat) :
    value 10 (digits ++ List.replicate count 0) = value 10 digits * 10 ^ count := by
  have zeros : value 10 (List.replicate count 0) = 0 := by
    rw [value, List.reverse_replicate, Nat.ofDigits_replicate_zero]
  rw [value_append, zeros, List.length_replicate, Nat.add_zero]

theorem numerals_append (front back : List (Fin 10)) :
    numerals (front ++ back) = numerals front ++ numerals back := List.map_append

theorem value_keptDigits (whole digits : List (Fin 10)) :
    (value 10 (numerals (whole ++ keptDigits digits)) : ℚ) / (10 : ℚ) ^ (keptDigits digits).length =
      (value 10 (numerals (whole ++ digits)) : ℚ) / (10 : ℚ) ^ digits.length := by
  obtain ⟨count, split⟩ := keptDigits_append digits
  have zeros : numerals (List.replicate count 0) = List.replicate count 0 := List.map_replicate
  have length : digits.length = (keptDigits digits).length + count := by
    conv_lhs => rw [split]
    rw [List.length_append, List.length_replicate]
  have numeral : value 10 (numerals (whole ++ digits)) = value 10 (numerals (whole ++ keptDigits digits)) * 10 ^ count := by
    conv_lhs => rw [split, ← List.append_assoc, numerals_append, zeros, value_zeros]
  rw [numeral, length, pow_add]
  push_cast
  rw [mul_div_mul_right _ _ (by positivity)]

def exponentOf (exponent : Int) : Exponent where
  upper := false
  sign := some (exponent < 0)
  digits := (if exponent.natAbs < 10 then [lastDigit 0] else []) ++ numeralDigits exponent.natAbs
  nonempty := by
    intro empty
    have digits := (List.append_eq_nil_iff.mp empty).2
    unfold numeralDigits at digits
    split at digits
    next => cases digits
    next => exact List.append_ne_nil_of_right_ne_nil _ (List.cons_ne_nil _ _) digits

theorem exponentOf_text (exponent : Int) : (exponentOf exponent).text = 'e' :: exponentText exponent := by
  unfold exponentOf Exponent.text Exponent.signedText exponentText
  rw [toDigits_eq, digitText_append]
  by_cases negative : exponent < 0 <;> by_cases small : exponent.natAbs < 10 <;>
    simp [negative, small, digitText, digitChar]

theorem exponentOf_value (exponent : Int) : (exponentOf exponent).value = exponent := by
  have digits : value 10 (numerals (exponentOf exponent).digits) = exponent.natAbs := by
    unfold exponentOf
    dsimp only
    rw [numerals_append, value_append, value_numeralDigits]
    split <;> simp [numerals, value]
  unfold Exponent.value
  rw [digits]
  by_cases negative : exponent < 0
  · have sign : (exponentOf exponent).sign = some true := by simp [exponentOf, negative]
    rw [sign]
    dsimp only
    omega
  · have sign : (exponentOf exponent).sign = some false := by simp [exponentOf, negative]
    rw [sign]
    dsimp only
    omega

theorem formed_fractionOf {whole : List (Fin 10)} (digits : List (Fin 10)) (some_digit : whole ≠ [])
    (no_leading_zero : whole.head? = some 0 → whole.length = 1) : Formed whole (fractionOf digits) := by
  refine ⟨some_digit, no_leading_zero, ?_⟩
  unfold fractionOf
  split
  next =>
    intro same
    cases same
  next kept =>
    intro empty
    exact kept (Option.some.inj empty)

section Formed

variable {whole digits : List (Fin 10)} (formed : Formed whole (fractionOf digits)) (negative : Bool)
  (exponent : Option Exponent)

theorem literal_unsignedText :
    (formed.literal negative exponent).unsignedText =
      digitText whole ++ (decimals (digitText digits) ++
        match exponent with
        | some exponent => exponent.text
        | none => []) := by
  rw [decimals_digitText]
  rfl

theorem literal_magnitude :
    (formed.literal negative exponent).magnitude =
      (value 10 (numerals (whole ++ digits)) : ℚ) / (10 : ℚ) ^ digits.length *
        (10 : ℚ) ^ (formed.literal negative exponent).exponentValue := by
  rw [← value_keptDigits, ← fractionOf_getD]
  rfl

end Formed

theorem formed_zero : Formed [0] (fractionOf []) := formed_fractionOf [] (by decide) fun _ => rfl

theorem zero_value : (formed_zero.literal false none).value = 0 := by
  have nothing : value 10 (numerals ([0] ++ [])) = 0 := rfl
  rw [Literal.value, if_neg (by simp [Formed.literal]), literal_magnitude, nothing, Nat.cast_zero, zero_div, zero_mul]

/-- The parts of the text: the digits in front of the point, those behind it, and the exponent. -/
structure Parts where
  whole : List (Fin 10)
  digits : List (Fin 10)
  exponent : Option Int

/-- Where `%g` puts the point between the significant digits. -/
def parts (precision : Nat) (digits : List (Fin 10)) (exponent : Int) : Parts :=
  if exponent < -4 ∨ precision ≤ exponent then ⟨digits.take 1, digits.drop 1, some exponent⟩
  else if exponent < 0 then ⟨[lastDigit 0], List.replicate (exponent.natAbs - 1) (lastDigit 0) ++ digits, none⟩
  else ⟨digits.take (exponent.toNat + 1), digits.drop (exponent.toNat + 1), none⟩

def Parts.text (split : Parts) : List Char :=
  digitText split.whole ++ (decimals (digitText split.digits) ++
    match split.exponent with
    | some exponent => 'e' :: exponentText exponent
    | none => [])

theorem unsigned_eq (precision : Nat) (number : ℚ) :
    unsigned precision number =
      (parts precision (numeralDigits (significant precision number).1) (significant precision number).2).text := by
  unfold unsigned parts Parts.text
  dsimp only
  rw [toDigits_eq]
  split
  next => simp only [digitText, List.map_take, List.map_drop, List.append_assoc]
  · split
    next =>
      rw [lastDigit_zero, digitText_append, digitText_replicate, List.append_nil]
      rfl
    next => simp only [digitText, List.map_take, List.map_drop, List.append_nil]

def Parts.value (split : Parts) : ℚ :=
  (NumberText.value 10 (numerals (split.whole ++ split.digits)) : ℚ) / (10 : ℚ) ^ split.digits.length *
    (10 : ℚ) ^ split.exponent.getD 0

theorem parts_value {precision : Nat} {digits : List (Fin 10)} (length : digits.length = precision)
    (some_digits : 0 < precision) (exponent : Int) :
    (parts precision digits exponent).value =
      (value 10 (numerals digits) : ℚ) * (10 : ℚ) ^ (exponent + 1 - precision) := by
  have ten : (10 : ℚ) ≠ 0 := by norm_num
  unfold parts Parts.value
  split
  next outside =>
    dsimp only
    rw [List.take_append_drop, List.length_drop, length, Option.getD_some, div_eq_mul_inv, ← zpow_natCast, ← zpow_neg,
      mul_assoc, ← zpow_add₀ ten]
    congr 2
    omega
  next inside =>
    split
    next small =>
      simp only [lastDigit_zero]
      have zeros : numerals ([0] ++ (List.replicate (exponent.natAbs - 1) 0 ++ digits)) =
          List.replicate exponent.natAbs 0 ++ numerals digits := by
        rw [← List.append_assoc, numerals_append, List.singleton_append, ← List.replicate_succ]
        congr 1
        rw [numerals, List.map_replicate]
        congr 1
        omega
      have nothing : value 10 (List.replicate exponent.natAbs 0) = 0 := by
        rw [value, List.reverse_replicate, Nat.ofDigits_replicate_zero]
      rw [zeros, value_append, nothing, Nat.zero_mul, Nat.zero_add, List.length_append, List.length_replicate, length,
        Option.getD_none, zpow_zero, mul_one, div_eq_mul_inv, ← zpow_natCast, ← zpow_neg]
      congr 2
      omega
    next large =>
      dsimp only
      rw [List.take_append_drop, List.length_drop, length, Option.getD_none, zpow_zero, mul_one, div_eq_mul_inv,
        ← zpow_natCast, ← zpow_neg]
      congr 2
      omega

theorem parts_whole (precision : Nat) {digit : Fin 10} (others : List (Fin 10)) (nonzero : digit ≠ 0)
    (exponent : Int) :
    (parts precision (digit :: others) exponent).whole ≠ [] ∧
      ((parts precision (digit :: others) exponent).whole.head? = some 0 →
        (parts precision (digit :: others) exponent).whole.length = 1) := by
  unfold parts
  split
  next => simp
  next =>
    split
    next => simp
    next => simp [nonzero]

theorem unsigned_literal {precision : Nat} (some_digits : 0 < precision) {number : ℚ} (positive : 0 < number)
    (negative : Bool) :
    ∃ literal : Literal, literal.negative = negative ∧ literal.unsignedText = unsigned precision number ∧
      literal.magnitude = rounded precision number := by
  obtain ⟨lower, upper⟩ := significant_bounds some_digits positive
  have digits_positive : 0 < (significant precision number).1 :=
    lt_of_lt_of_le (Nat.pow_pos (by decide)) lower
  obtain ⟨digit, others, front, nonzero⟩ := head_numeralDigits digits_positive
  have length : (numeralDigits (significant precision number).1).length = precision := by
    rw [length_numeralDigits _ (precision - 1) lower (by rwa [Nat.sub_add_cancel some_digits])]
    omega
  have value := parts_value length some_digits (significant precision number).2
  have text := unsigned_eq precision number
  have whole := parts_whole precision others nonzero (significant precision number).2
  rw [value_numeralDigits] at value
  rw [← front] at whole
  set split := parts precision (numeralDigits (significant precision number).1) (significant precision number).2
  have formed := formed_fractionOf split.digits whole.1 whole.2
  refine ⟨formed.literal negative (split.exponent.map exponentOf), rfl, ?_, ?_⟩
  · rw [literal_unsignedText, text]
    unfold Parts.text
    cases split.exponent with
    | none => rfl
    | some exponent => simp only [Option.map_some, exponentOf_text]
  · rw [literal_magnitude, rounded, ← value, Parts.value]
    congr 2
    cases scale : split.exponent with
    | none => rfl
    | some exponent => exact exponentOf_value exponent

def roundSignificant (precision : Nat) (number : ℚ) : ℚ :=
  if number = 0 then 0 else if number < 0 then -rounded precision (-number) else rounded precision number

/-- The text of `%g` is a literal, and its value is the number rounded to the significant digits. -/
theorem general_literal {precision : Nat} (some_digits : 0 < precision) (number : ℚ) :
    ∃ literal : Literal, literal.text = general precision number ∧
      literal.value = roundSignificant precision number := by
  unfold general roundSignificant
  split
  next =>
    exact ⟨formed_zero.literal false none, rfl, zero_value⟩
  next nonzero =>
    split
    next negative =>
      obtain ⟨literal, sign, text, magnitude⟩ := unsigned_literal some_digits (neg_pos.mpr negative) true
      use literal
      rw [Literal.text, Literal.value, if_pos sign, if_pos sign, text, magnitude]
      exact ⟨rfl, rfl⟩
    next positive =>
      have positive : 0 < number := lt_of_le_of_ne (not_lt.mp positive) (Ne.symm nonzero)
      obtain ⟨literal, sign, text, magnitude⟩ := unsigned_literal some_digits positive false
      use literal
      rw [Literal.text, Literal.value, if_neg (by simp [sign]), if_neg (by simp [sign]), text, magnitude]
      exact ⟨rfl, rfl⟩

theorem roundSignificant_error {precision : Nat} (some_digits : 0 < precision) (number : ℚ) :
    |roundSignificant precision number - number| ≤ 1 / 2 * (10 : ℚ) ^ (1 - precision : Int) * |number| := by
  unfold roundSignificant
  split
  next zero => simp [zero]
  next nonzero =>
    split
    next negative =>
      have error := rounded_error some_digits (neg_pos.mpr negative)
      rw [abs_of_neg negative, ← abs_neg]
      convert error using 2
      ring
    next positive =>
      have positive : 0 < number := lt_of_le_of_ne (not_lt.mp positive) (Ne.symm nonzero)
      rw [abs_of_pos positive]
      exact rounded_error some_digits positive

theorem roundSignificant_natCast {precision n : Nat} (digits : n < 10 ^ precision) :
    roundSignificant precision n = n := by
  unfold roundSignificant
  split
  next zero => exact zero.symm
  next nonzero =>
    rw [if_neg (not_lt.mpr (Nat.cast_nonneg n))]
    exact rounded_natCast (Nat.pos_of_ne_zero (Nat.cast_ne_zero.mp nonzero)) digits

end SentinelLab.Library.DecimalText
