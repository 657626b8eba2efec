import Mathlib

/-! The cosine of two lists of numbers, from three running sums. Over the reals it is the cosine of the
angle of the vectors, which is a right angle where one of them is zero. -/

namespace SentinelLab.Library.Cosine
open InnerProductGeometry

section
variable {F : Type} [Field F]

def runningSums (pairs : List (F × F)) : F × F × F :=
  pairs.foldl (fun (dot, normV, normW) (a, b) => (dot + a * b, normV + a * a, normW + b * b)) (0, 0, 0)

def dot (v w : List F) : F := ((v.zip w).map fun (a, b) => a * b).sum

theorem runningSums_zip {v w : List F} (same : v.length = w.length) :
    runningSums (v.zip w) = (dot v w, dot v v, dot w w) := by
  have from_any (sums : F × F × F) :
      (v.zip w).foldl (fun (dot, normV, normW) (a, b) => (dot + a * b, normV + a * a, normW + b * b)) sums =
        (sums.1 + dot v w, sums.2.1 + dot v v, sums.2.2 + dot w w) := by
    induction v generalizing w sums with
    | nil =>
      obtain rfl := List.eq_nil_of_length_eq_zero same.symm
      simp [dot]
    | cons a v ih =>
      obtain ⟨b, w, rfl⟩ := List.exists_cons_of_length_eq_add_one same.symm
      rw [List.zip_cons_cons, List.foldl_cons, ih (Nat.succ.inj same)]
      simp only [dot, List.zip_cons_cons, List.map_cons, List.sum_cons, add_assoc]
  have from_zero := from_any (0, 0, 0)
  simp only [zero_add] at from_zero
  exact from_zero

end

/-- The quotient of the running sums; a zero vector has none. -/
noncomputable def cosine (v w : List ℝ) : ℝ :=
  let (dot, normV, normW) := runningSums (v.zip w)
  if normV ≤ 0 ∨ normW ≤ 0 then 0 else dot / (Real.sqrt normV * Real.sqrt normW)

noncomputable def toVector (n : Nat) (v : List ℝ) : EuclideanSpace ℝ (Fin n) := WithLp.toLp _ fun i => v.getD i 0

variable {v w : List ℝ} {n : Nat}

theorem toVector_apply (long : v.length = n) (i : Fin n) : toVector n v i = v[i.val] := by
  change v.getD i.val 0 = v[i.val]
  rw [List.getD_eq_getElem]

theorem inner_toVector (long : v.length = n) (long' : w.length = n) :
    inner ℝ (toVector n v) (toVector n w) = dot v w := by
  have entries : (v.zip w).map (fun (a, b) => a * b) = List.ofFn fun i : Fin n => toVector n v i * toVector n w i := by
    apply List.ext_getElem
    · rw [List.length_map, List.length_zip, List.length_ofFn, long, long', Nat.min_self]
    · intro i bound bound'
      rw [List.getElem_map, List.getElem_zip, List.getElem_ofFn, toVector_apply long, toVector_apply long']
  rw [PiLp.inner_apply, dot, entries, List.sum_ofFn]
  apply Finset.sum_congr rfl
  intro i _
  rw [RCLike.inner_apply, conj_trivial, mul_comm]

theorem norm_toVector (long : v.length = n) : ‖toVector n v‖ = Real.sqrt (dot v v) := by
  rw [← inner_toVector long long, real_inner_self_eq_norm_sq, Real.sqrt_sq (norm_nonneg _)]

theorem cosine_eq_cos_angle (long : v.length = n) (long' : w.length = n) :
    cosine v w = Real.cos (angle (toVector n v) (toVector n w)) := by
  rw [cos_angle, inner_toVector long long', norm_toVector long, norm_toVector long', cosine,
    runningSums_zip (long.trans long'.symm)]
  dsimp only
  split
  next zero =>
    rcases zero with none | none
    · rw [Real.sqrt_eq_zero_of_nonpos none, zero_mul, div_zero]
    · rw [Real.sqrt_eq_zero_of_nonpos none, mul_zero, div_zero]
  next => rfl

theorem toVector_scale (long : v.length = n) (factor : ℝ) :
    toVector n (v.map (factor * ·)) = factor • toVector n v := by
  ext i
  rw [PiLp.smul_apply, toVector_apply long, toVector_apply (by rwa [List.length_map]), List.getElem_map, smul_eq_mul]

theorem toVector_inj (long : v.length = n) (long' : w.length = n) : toVector n v = toVector n w ↔ v = w := by
  constructor
  · intro same
    apply List.ext_getElem (long.trans long'.symm)
    intro i bound bound'
    have entry := congrFun (congrArg WithLp.ofLp same) ⟨i, long ▸ bound⟩
    rwa [toVector_apply long, toVector_apply long'] at entry
  · exact congrArg (toVector n)

theorem toVector_eq_zero_iff (long : v.length = n) : toVector n v = 0 ↔ ∀ a ∈ v, a = 0 := by
  constructor
  · intro zero a member
    obtain ⟨i, bound, rfl⟩ := List.mem_iff_getElem.mp member
    rw [← toVector_apply long ⟨i, long ▸ bound⟩, zero]
    rfl
  · intro zeros
    ext i
    rw [toVector_apply long]
    exact zeros _ (List.getElem_mem _)

/-! ## Properties of the cosine -/

theorem neg_one_le_cosine (same : v.length = w.length) : -1 ≤ cosine v w := by
  rw [cosine_eq_cos_angle same rfl]
  exact Real.neg_one_le_cos _

theorem cosine_le_one (same : v.length = w.length) : cosine v w ≤ 1 := by
  rw [cosine_eq_cos_angle same rfl]
  exact Real.cos_le_one _

theorem cosine_comm (same : v.length = w.length) : cosine v w = cosine w v := by
  rw [cosine_eq_cos_angle same rfl, cosine_eq_cos_angle rfl same, angle_comm]

theorem cosine_scale_left (same : v.length = w.length) {factor : ℝ} (positive : 0 < factor) :
    cosine (v.map (factor * ·)) w = cosine v w := by
  rw [cosine_eq_cos_angle (by rwa [List.length_map]) rfl, cosine_eq_cos_angle same rfl, toVector_scale same,
    angle_smul_left_of_pos _ _ positive]

theorem cosine_scale_right (same : v.length = w.length) {factor : ℝ} (positive : 0 < factor) :
    cosine v (w.map (factor * ·)) = cosine v w := by
  rw [cosine_comm (by rwa [List.length_map]), cosine_scale_left same.symm positive, cosine_comm same]

theorem cosine_neg_left (same : v.length = w.length) : cosine (v.map (-1 * ·)) w = -cosine v w := by
  rw [cosine_eq_cos_angle (by rwa [List.length_map]) rfl, cosine_eq_cos_angle same rfl, toVector_scale same,
    neg_one_smul, angle_neg_left, Real.cos_pi_sub]

/-- The equality case: one list is a positive multiple of the other. -/
theorem cosine_eq_one_iff (same : v.length = w.length) :
    cosine v w = 1 ↔ (∃ a ∈ v, a ≠ 0) ∧ ∃ factor, 0 < factor ∧ w = v.map (factor * ·) := by
  have multiple (factor : ℝ) : toVector w.length w = factor • toVector w.length v ↔ w = v.map (factor * ·) := by
    rw [← toVector_scale same, toVector_inj rfl (by rwa [List.length_map])]
  rw [cosine_eq_cos_angle same rfl, cos_angle, real_inner_div_norm_mul_norm_eq_one_iff, ne_eq,
    toVector_eq_zero_iff same]
  simp only [multiple, not_forall, exists_prop]

end SentinelLab.Library.Cosine
