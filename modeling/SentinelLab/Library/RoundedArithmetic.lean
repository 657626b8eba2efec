import Mathlib

/-! Arithmetic in which every result is rounded, such as that of machine numbers: all that is used of
the rounding is that it keeps the order and zero. -/

namespace SentinelLab.Library.RoundedArithmetic

structure Rounding (F : Type) [Zero F] [Preorder F] where
  round : F → F
  monotone : Monotone round
  zero : round 0 = 0

variable {F : Type}

section
variable [Field F] [LinearOrder F]

def exactly : Rounding F := ⟨id, monotone_id, rfl⟩

variable (arith : Rounding F)

def Rounding.add (x y : F) : F := arith.round (x + y)

def Rounding.mul (x y : F) : F := arith.round (x * y)

def Rounding.div (x y : F) : F := arith.round (x / y)

def Rounding.ofNat (n : Nat) : F := arith.round n

def Rounding.ofInt (n : Int) : F := arith.round n

/-- The sum from the left, in which every partial sum is rounded. -/
def Rounding.sum (values : List F) : F := values.foldl arith.add 0

def Rounding.mean (values : List F) : F := arith.div (arith.sum values) (arith.ofNat values.length)

def Rounding.SumsExactly (values : List F) : Prop :=
  ∀ count, arith.round (values.take count).sum = (values.take count).sum

/-- The number that a decimal literal stands for. -/
def Rounding.literal (numerator denominator : Nat) : F := arith.round (numerator / denominator)

end

variable [Field F] [LinearOrder F] [IsStrictOrderedRing F] (arith : Rounding F) {x y u v : F}

omit [IsStrictOrderedRing F] in
theorem Rounding.nonneg (le : 0 ≤ x) : 0 ≤ arith.round x := by
  rw [← arith.zero]
  exact arith.monotone le

theorem Rounding.add_mono (left : x ≤ u) (right : y ≤ v) : arith.add x y ≤ arith.add u v :=
  arith.monotone (add_le_add left right)

theorem Rounding.mul_mono (factor : 0 ≤ y) (left : x ≤ u) : arith.mul x y ≤ arith.mul u y :=
  arith.monotone (mul_le_mul_of_nonneg_right left factor)

theorem Rounding.mul_nonneg (left : 0 ≤ x) (right : 0 ≤ y) : 0 ≤ arith.mul x y :=
  arith.nonneg (by positivity)

theorem Rounding.ofNat_mono {fewer more : Nat} (le : fewer ≤ more) : (arith.ofNat fewer : F) ≤ arith.ofNat more :=
  arith.monotone (Nat.cast_le.mpr le)

theorem Rounding.ofNat_nonneg (n : Nat) : (0 : F) ≤ arith.ofNat n := arith.nonneg (Nat.cast_nonneg n)

theorem Rounding.literal_nonneg (numerator denominator : Nat) : (0 : F) ≤ arith.literal numerator denominator :=
  arith.nonneg (div_nonneg (Nat.cast_nonneg _) (Nat.cast_nonneg _))

/-! ## Sums -/

omit [IsStrictOrderedRing F] in
theorem Rounding.sum_append (values : List F) (value : F) :
    arith.sum (values ++ [value]) = arith.add (arith.sum values) value := by
  rw [Rounding.sum, List.foldl_append, Rounding.sum]
  rfl

omit [IsStrictOrderedRing F] in
theorem Rounding.sum_of_exact {values : List F} (sums : arith.SumsExactly values) : arith.sum values = values.sum := by
  induction values using List.reverseRecOn with
  | nil => rfl
  | append_singleton values value ih =>
    have before : arith.SumsExactly values := by
      intro count
      have whole := sums (min count values.length)
      rwa [List.take_append_of_le_length (min_le_right _ _), List.take_eq_take_min.symm] at whole
    have last := sums (values.length + 1)
    rw [List.take_of_length_le (by simp), List.sum_append, List.sum_singleton] at last
    rw [arith.sum_append, ih before, Rounding.add, last, List.sum_append, List.sum_singleton]

end SentinelLab.Library.RoundedArithmetic
