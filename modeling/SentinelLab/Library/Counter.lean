import Mathlib

/-! What a counter of fixed width gives out when it starts at zero and is incremented before each
use. -/

namespace SentinelLab.Library.Counter

def values (width count : Nat) : List (BitVec width) :=
  (List.range count).map fun place => BitVec.ofNat width (place + 1)

variable {width count : Nat}

theorem values_length : (values width count).length = count := by
  rw [values, List.length_map, List.length_range]

theorem ofNat_add_one (count : Nat) : BitVec.ofNat width count + 1 = BitVec.ofNat width (count + 1) := by
  apply BitVec.eq_of_toNat_eq
  simp [BitVec.toNat_add]

theorem values_succ (count : Nat) :
    values width (count + 1) = values width count ++ [BitVec.ofNat width count + 1] := by
  rw [values, List.range_succ, List.map_append, ofNat_add_one]
  rfl

theorem values_get {place : Nat} (small : place < (values width count).length) :
    (values width count)[place] = BitVec.ofNat width (place + 1) := by
  simp [values]

theorem values_first : ∀ first ∈ (values width count).head?, first = 1 := by
  intro first starts
  cases count with
  | zero => simp [values] at starts
  | succ count =>
    rw [values, List.range_succ_eq_map] at starts
    exact (Option.mem_some.mp starts).symm

/-- The value zero comes after the largest one, so the values increase exactly until the counter
wraps. -/
theorem values_increase_iff (wide : 0 < width) :
    (values width count).Pairwise (· < ·) ↔ count < 2 ^ width := by
  have two : 2 ≤ 2 ^ width := by
    calc 2 = 2 ^ 1 := (pow_one 2).symm
      _ ≤ 2 ^ width := Nat.pow_le_pow_right (by decide) wide
  constructor
  · intro increase
    by_contra wraps
    have wrapped : 2 ^ width ≤ (values width count).length := by
      rw [values_length]
      omega
    have less := List.pairwise_iff_getElem.mp increase (2 ^ width - 2) (2 ^ width - 1) (by omega) (by omega)
      (by omega)
    have last : 2 ^ width - 1 + 1 = 2 ^ width := by omega
    rw [values_get, values_get, last, BitVec.lt_def, BitVec.toNat_ofNat, BitVec.toNat_ofNat, Nat.mod_self] at less
    omega
  · intro below
    have exact_value {place : Nat} (member : place ∈ List.range count) :
        (BitVec.ofNat width (place + 1)).toNat = place + 1 := by
      have small := List.mem_range.mp member
      exact Nat.mod_eq_of_lt (by omega)
    rw [values, List.pairwise_map]
    refine List.pairwise_lt_range.imp_of_mem ?_
    intro earlier later earlier_member later_member less
    rw [BitVec.lt_def, exact_value earlier_member, exact_value later_member]
    omega

/-- The values are distinct for one step more than they increase: zero is still a new value. -/
theorem values_distinct_iff : (values width count).Nodup ↔ count ≤ 2 ^ width := by
  constructor
  · intro distinct
    by_contra wraps
    have long : 2 ^ width < (values width count).length := by
      rw [values_length]
      omega
    have positive : 0 < 2 ^ width := Nat.two_pow_pos width
    have some : 0 < (values width count).length := by omega
    have again : (values width count)[0] = (values width count)[2 ^ width] := by
      rw [values_get, values_get]
      apply BitVec.eq_of_toNat_eq
      rw [BitVec.toNat_ofNat, BitVec.toNat_ofNat, Nat.add_comm (2 ^ width), Nat.add_mod_right]
    have same := distinct.getElem_inj_iff.mp again
    omega
  · intro fits
    refine List.Nodup.map_on ?_ List.nodup_range
    intro earlier earlier_member later later_member same
    have small := List.mem_range.mp earlier_member
    have small' := List.mem_range.mp later_member
    have congruent : earlier + 1 ≡ later + 1 [MOD 2 ^ width] := congrArg BitVec.toNat same
    exact (Nat.ModEq.add_right_cancel' 1 congruent).eq_of_lt_of_lt (by omega) (by omega)

end SentinelLab.Library.Counter
