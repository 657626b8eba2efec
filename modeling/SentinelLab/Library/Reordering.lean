import Mathlib

/-! The entries of a list in another order, given by a permutation of its positions. -/

namespace SentinelLab.Library.Reordering

variable {α β : Type} {n : Nat}

/-- Position `i` of the result holds the entry that was at `σ i`. -/
def reorder (σ : Equiv.Perm (Fin n)) (entries : List α) (default : α) : List α :=
  List.ofFn fun i => entries.getD (σ i) default

theorem length_reorder (σ : Equiv.Perm (Fin n)) (entries : List α) (default : α) :
    (reorder σ entries default).length = n := List.length_ofFn

theorem getD_reorder (σ : Equiv.Perm (Fin n)) (entries : List α) (default : α) (i : Fin n) :
    (reorder σ entries default).getD i default = entries.getD (σ i) default := by
  have inside : i.val < (reorder σ entries default).length := by
    rw [length_reorder]
    exact i.isLt
  rw [List.getD_eq_getElem _ _ inside]
  exact List.getElem_ofFn inside

theorem reorder_perm (σ : Equiv.Perm (Fin n)) {entries : List α} (same : entries.length = n) (default : α) :
    (reorder σ entries default).Perm entries := by
  have whole : List.ofFn (fun i : Fin n => entries.getD i default) = entries := by
    apply List.ext_getElem
    · rw [List.length_ofFn, same]
    · intro i _ inside
      rw [List.getElem_ofFn, List.getD_eq_getElem _ _ inside]
  calc (reorder σ entries default).Perm (List.ofFn fun i : Fin n => entries.getD i default) :=
        σ.ofFn_comp_perm fun i => entries.getD i default
    _ = entries := whole

theorem countP_reorder (σ : Equiv.Perm (Fin n)) (meets : Fin n → Bool) :
    ((List.finRange n).countP fun j => meets (σ j)) = (List.finRange n).countP meets := by
  calc ((List.finRange n).countP fun j => meets (σ j))
      = ((List.finRange n).map σ).countP meets := by
        rw [List.countP_map]
        rfl
    _ = (List.finRange n).countP meets := σ.map_finRange_perm.countP_eq _

/-- A loop over the positions that skips some of them meets the same values in another order. -/
theorem map_filter_perm (σ : Equiv.Perm (Fin n)) (keep : Fin n → Bool) (value : Fin n → β) :
    (((List.finRange n).filter fun j => keep (σ j)).map fun j => value (σ j)).Perm
      (((List.finRange n).filter keep).map value) := by
  calc ((List.finRange n).filter fun j => keep (σ j)).map (fun j => value (σ j))
      = (((List.finRange n).map σ).filter keep).map value := by
        rw [List.filter_map, List.map_map]
        rfl
    _ |>.Perm (((List.finRange n).filter keep).map value) := (σ.map_finRange_perm.filter keep).map value

end SentinelLab.Library.Reordering
