import Mathlib

/-! Positions on a ring of `size` cells, kept as naturals below `size`. All facts are reduced to
comparisons here, so that no later proof meets a remainder by a variable. -/

namespace SentinelLab.Library.Ring

/-- The cell `i` places after `start`. -/
def cell (size start i : Nat) : Nat := (start + i) % size

/-- How many cells lie from `start` up to, but without, `stop`. -/
def gap (size start stop : Nat) : Nat := (stop + size - start) % size

variable {size start stop i j : Nat}

theorem cell_eq (bounded : start < size) (small : i < size) :
    cell size start i = if start + i < size then start + i else start + i - size := by
  unfold cell
  split_ifs with inside
  · exact Nat.mod_eq_of_lt inside
  · rw [Nat.mod_eq_sub_mod (by omega), Nat.mod_eq_of_lt (by omega)]

theorem gap_eq (bounded : start < size) (end_bounded : stop < size) :
    gap size start stop = if start ≤ stop then stop - start else size - start + stop := by
  unfold gap
  split_ifs with order
  · have shifted : stop + size - start = stop - start + size := by omega
    rw [shifted, Nat.add_mod_right, Nat.mod_eq_of_lt (by omega)]
  · rw [Nat.mod_eq_of_lt (by omega)]
    omega

theorem cell_lt (positive : 0 < size) : cell size start i < size := Nat.mod_lt _ positive

theorem gap_lt (positive : 0 < size) : gap size start stop < size := Nat.mod_lt _ positive

theorem succ_eq (bounded : start < size) :
    (start + 1) % size = if start + 1 < size then start + 1 else 0 := by
  split_ifs with inside
  · exact Nat.mod_eq_of_lt inside
  · have last : start + 1 = size := by omega
    rw [last, Nat.mod_self]

theorem cell_injective (bounded : start < size) (first : i < size) (second : j < size)
    (same : cell size start i = cell size start j) : i = j := by
  rw [cell_eq bounded first, cell_eq bounded second] at same
  split_ifs at same <;> omega

theorem cell_gap (bounded : start < size) (end_bounded : stop < size) :
    cell size start (gap size start stop) = stop := by
  have positive : 0 < size := by omega
  rw [cell_eq bounded (gap_lt positive), gap_eq bounded end_bounded]
  split_ifs <;> omega

theorem cell_ne_stop (bounded : start < size) (end_bounded : stop < size)
    (inside : i < gap size start stop) : cell size start i ≠ stop := by
  have positive : 0 < size := by omega
  have limit : gap size start stop < size := gap_lt positive
  intro same
  have equal := cell_injective bounded (inside.trans limit) limit
    (same.trans (cell_gap bounded end_bounded).symm)
  omega

theorem gap_eq_zero (bounded : start < size) (end_bounded : stop < size) :
    gap size start stop = 0 ↔ start = stop := by
  rw [gap_eq bounded end_bounded]
  split_ifs <;> omega

theorem gap_full (bounded : start < size) (end_bounded : stop < size) :
    (stop + 1) % size = start ↔ gap size start stop + 1 = size := by
  rw [gap_eq bounded end_bounded, succ_eq end_bounded]
  split_ifs <;> omega

theorem gap_succ_stop (bounded : start < size) (end_bounded : stop < size)
    (room : (stop + 1) % size ≠ start) :
    gap size start ((stop + 1) % size) = gap size start stop + 1 := by
  have positive : 0 < size := by omega
  rw [gap_eq bounded (Nat.mod_lt _ positive), gap_eq bounded end_bounded]
  rw [succ_eq end_bounded] at room ⊢
  split_ifs at room ⊢ <;> omega

theorem gap_succ_start (bounded : start < size) (end_bounded : stop < size) (occupied : start ≠ stop) :
    gap size ((start + 1) % size) stop + 1 = gap size start stop := by
  have positive : 0 < size := by omega
  rw [gap_eq (Nat.mod_lt _ positive) end_bounded, gap_eq bounded end_bounded, succ_eq bounded]
  split_ifs <;> omega

theorem cell_succ : cell size start (i + 1) = (cell size start i + 1) % size := by
  unfold cell
  rw [Nat.mod_add_mod, Nat.add_assoc]

theorem cell_succ_start : cell size ((start + 1) % size) i = cell size start (i + 1) := by
  unfold cell
  rw [Nat.mod_add_mod]
  congr 1
  omega

end SentinelLab.Library.Ring
