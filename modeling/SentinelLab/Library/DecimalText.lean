import SentinelLab.Library.Csv

/-! The text of a number with a given number of significant digits, as the conversion `%g` writes it. -/

namespace SentinelLab.Library.DecimalText
open Csv

/-- The nearest integer to a number that is not negative; ties go to the even one. -/
def roundHalfEven (number : ℚ) : Nat :=
  let down := ⌊number⌋₊
  if number - down < 1 / 2 then down
  else if 1 / 2 < number - down then down + 1
  else down + down % 2

/-- The significant digits of a positive number, as an integer, and the exponent of the first. -/
def significant (precision : Nat) (number : ℚ) : Nat × Int :=
  let exponent := Int.log 10 number
  let digits := roundHalfEven (number / 10 ^ (exponent + 1 - precision))
  if digits = 10 ^ precision then (10 ^ (precision - 1), exponent + 1) else (digits, exponent)

def decimals (digits : List Char) : List Char :=
  let kept := digits.rdropWhile (· = '0')
  if kept = [] then [] else '.' :: kept

def exponentText (exponent : Int) : List Char :=
  (if exponent < 0 then '-' else '+') ::
    ((if exponent.natAbs < 10 then ['0'] else []) ++ Nat.toDigits 10 exponent.natAbs)

def unsigned (precision : Nat) (number : ℚ) : List Char :=
  let digits := Nat.toDigits 10 (significant precision number).1
  let exponent := (significant precision number).2
  if exponent < -4 ∨ precision ≤ exponent then
    digits.take 1 ++ decimals (digits.drop 1) ++ 'e' :: exponentText exponent
  else if exponent < 0 then '0' :: decimals (List.replicate (exponent.natAbs - 1) '0' ++ digits)
  else digits.take (exponent.toNat + 1) ++ decimals (digits.drop (exponent.toNat + 1))

def general (precision : Nat) (number : ℚ) : List Char :=
  if number = 0 then ['0']
  else if number < 0 then '-' :: unsigned precision (-number)
  else unsigned precision number

theorem plain_cons {c : Char} {text : List Char} (first : PlainChar c) (others : Plain text) :
    Plain (c :: text) := by
  intro d member
  rcases List.mem_cons.mp member with rfl | member
  · exact first
  · exact others d member

theorem plain_append {front back : List Char} (first : Plain front) (second : Plain back) :
    Plain (front ++ back) := by
  intro c member
  rcases List.mem_append.mp member with member | member
  · exact first c member
  · exact second c member

theorem plain_of_sublist {part text : List Char} (part_of : part.Sublist text) (plain : Plain text) : Plain part :=
  fun c member => plain c (part_of.subset member)

theorem plain_decimals {digits : List Char} (plain : Plain digits) : Plain (decimals digits) := by
  unfold decimals
  dsimp only
  split
  · intro c member
    cases member
  · apply plain_cons (by decide)
    exact plain_of_sublist (List.rdropWhile_prefix _ _).sublist plain

theorem plain_exponentText (exponent : Int) : Plain (exponentText exponent) := by
  apply plain_cons
  · split
    · decide
    · decide
  · apply plain_append
    · split
      · decide
      · decide
    · exact plain_toDigits _

theorem plain_unsigned (precision : Nat) (number : ℚ) : Plain (unsigned precision number) := by
  have digits := plain_toDigits (significant precision number).1
  unfold unsigned
  dsimp only
  split
  · apply plain_append
    · apply plain_append
      · exact plain_of_sublist (List.take_sublist _ _) digits
      · exact plain_decimals (plain_of_sublist (List.drop_sublist _ _) digits)
    · exact plain_cons (by decide) (plain_exponentText _)
  · split
    · apply plain_cons (by decide)
      apply plain_decimals
      apply plain_append
      · intro c member
        rw [List.eq_of_mem_replicate member]
        decide
      · exact digits
    · apply plain_append
      · exact plain_of_sublist (List.take_sublist _ _) digits
      · exact plain_decimals (plain_of_sublist (List.drop_sublist _ _) digits)

theorem plain_general (precision : Nat) (number : ℚ) : Plain (general precision number) := by
  unfold general
  split
  · decide
  · split
    · exact plain_cons (by decide) (plain_unsigned _ _)
    · exact plain_unsigned _ _

end SentinelLab.Library.DecimalText
