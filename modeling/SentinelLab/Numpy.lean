import SentinelLab.Library.Deviation
import SentinelLab.Library.Gradient
import SentinelLab.Library.Norms
import SentinelLab.Library.Ranges

/-! The functions that the scripts call of numpy, as parameters. What their documentation says of
them is a hypothesis, in exact arithmetic: nothing is rounded and no argument is NaN. -/

namespace SentinelLab
open Library.Deviation Library.Norms Library.Ranges

/-- `none` is an exception; for `corrcoef` it is NaN. -/
structure Numpy where
  norm : List ℝ → ℝ
  meanRows : List (List ℝ) → List ℝ
  argmin : List ℝ → Option Nat
  amin : List ℝ → Option ℝ
  amax : List ℝ → Option ℝ
  linspace : ℝ → ℝ → Nat → List ℝ
  exp : ℝ → ℝ
  sin : ℝ → ℝ
  gradient : List ℝ → List ℝ → Option (List ℝ)
  corrcoef : List ℝ → List ℝ → Option ℝ

namespace Numpy

/-- `meanRows` is the mean along the first axis, `argmin` the position of the first least entry; the
slopes are between increasing positions; a coefficient is NaN without two samples or for a constant one. -/
structure Documented (np : Numpy) : Prop where
  norm : ∀ v, np.norm v = euclidNorm v
  meanRows : ∀ width rows, rows ≠ [] → (∀ row ∈ rows, row.length = width) →
    np.meanRows rows = columnMeans width rows
  argmin_nil : np.argmin [] = none
  argmin : ∀ values, values ≠ [] → ∃ index least, np.argmin values = some index ∧ FirstLeast values index least
  amin : ∀ values, np.amin values = values.min?
  amax : ∀ values, np.amax values = values.max?
  linspace : ∀ start stop count, 2 ≤ count → np.linspace start stop count =
    (List.range count).map fun i : Nat => start + (i : ℝ) * ((stop - start) / ((count : ℝ) - 1))
  length_linspace : ∀ start stop count, (np.linspace start stop count).length = count
  exp : np.exp = Real.exp
  gradient_short : ∀ values positions, values.length < 2 → np.gradient values positions = none
  gradient : ∀ values positions, 2 ≤ values.length → positions.length = values.length →
    positions.Pairwise (· < ·) → np.gradient values positions = some (Library.Gradient.gradient values positions)
  corrcoef : ∀ x y, x.length = y.length → np.corrcoef x y =
    if x.length < 2 ∨ covariance x x = 0 ∨ covariance y y = 0 then none
    else some (covariance x y / Real.sqrt (covariance x x * covariance y y))

noncomputable def exactly : Numpy where
  norm := euclidNorm
  meanRows rows := columnMeans (rows.headD []).length rows
  argmin values := if values = [] then none else some (minElement values)
  amin := List.min?
  amax := List.max?
  linspace start stop count :=
    (List.range count).map fun i : Nat => start + (i : ℝ) * ((stop - start) / ((count : ℝ) - 1))
  exp := Real.exp
  sin := Real.sin
  gradient values positions := if values.length < 2 then none else some (Library.Gradient.gradient values positions)
  corrcoef x y :=
    if x.length < 2 ∨ covariance x x = 0 ∨ covariance y y = 0 then none
    else some (covariance x y / Real.sqrt (covariance x x * covariance y y))

theorem exactly_documented : exactly.Documented where
  norm _ := rfl
  meanRows width rows nonempty same := by
    obtain ⟨row, rest, rfl⟩ := List.exists_cons_of_ne_nil nonempty
    have width_eq : row.length = width := same row List.mem_cons_self
    subst width_eq
    rfl
  argmin_nil := by simp [exactly]
  argmin values nonempty := by
    obtain ⟨least, first⟩ := minElement_firstLeast nonempty
    exact ⟨minElement values, least, if_neg nonempty, first⟩
  amin _ := rfl
  amax _ := rfl
  linspace _ _ _ _ := rfl
  length_linspace _ _ _ := by simp [exactly]
  exp := rfl
  gradient_short _ _ short := if_pos short
  gradient _ _ enough _ _ := if_neg (not_lt.mpr enough)
  corrcoef _ _ _ := rfl

/-- The documented position is the one that `std::min_element` finds. -/
theorem Documented.argmin_eq {np : Numpy} (documented : np.Documented) {values : List ℝ} (nonempty : values ≠ []) :
    np.argmin values = some (minElement values) := by
  obtain ⟨index, least, found, first⟩ := documented.argmin values nonempty
  obtain ⟨_, first'⟩ := minElement_firstLeast nonempty
  rw [found, first.unique first']

end Numpy

end SentinelLab
