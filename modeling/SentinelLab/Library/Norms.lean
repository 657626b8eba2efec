import Mathlib

/-! The two norms of a list of numbers, and what becomes of them when coordinates are set to zero or scaled. -/

namespace SentinelLab.Library.Norms

section
variable {F : Type} [Field F]

def sumSq (v : List F) : F := (v.map (· ^ 2)).sum

def difference (after before : List F) : List F := List.zipWith (· - ·) after before

@[simp] theorem sumSq_nil : sumSq ([] : List F) = 0 := rfl

@[simp] theorem sumSq_cons (x : F) (v : List F) : sumSq (x :: v) = x ^ 2 + sumSq v := List.sum_cons

@[simp] theorem difference_cons (x y : F) (v w : List F) :
    difference (x :: v) (y :: w) = (x - y) :: difference v w := rfl

theorem difference_add (v noise : List F) (same : noise.length = v.length) :
    difference (List.zipWith (· + ·) v noise) v = noise := by
  induction v generalizing noise with
  | nil => exact (List.length_eq_zero_iff.mp same).symm
  | cons x v ih =>
    obtain ⟨y, noise, rfl⟩ := List.exists_cons_of_length_eq_add_one same
    rw [List.zipWith_cons_cons, difference_cons, ih noise (Nat.succ.inj same), add_sub_cancel_left]

theorem difference_self (v : List F) : difference v v = List.replicate v.length 0 := by
  induction v with
  | nil => rfl
  | cons x v ih => rw [difference_cons, ih, sub_self, List.length_cons, List.replicate_succ]

theorem sumSq_zeros (n : Nat) : sumSq (List.replicate n (0 : F)) = 0 := by
  induction n with
  | zero => rfl
  | succ n ih => rw [List.replicate_succ, sumSq_cons, ih, zero_pow two_ne_zero, add_zero]

theorem sumSq_scale (v : List F) (factor : F) : sumSq (v.map (· * factor)) = sumSq v * factor ^ 2 := by
  induction v with
  | nil => simp
  | cons x v ih =>
    rw [List.map_cons, sumSq_cons, sumSq_cons, ih]
    ring

/-- Some coordinates are zero, the others as they were. -/
def ZeroedFrom (after before : List F) : Prop := List.Forall₂ (fun x y => x = 0 ∨ x = y) after before

variable {v w u : List F}

theorem ZeroedFrom.refl (v : List F) : ZeroedFrom v v := List.forall₂_same.mpr fun _ _ => .inr rfl

theorem ZeroedFrom.trans (first : ZeroedFrom u v) (second : ZeroedFrom v w) : ZeroedFrom u w := by
  induction first generalizing w with
  | nil => exact second
  | @cons x y u v kept _ ih =>
    obtain ⟨z, w, rfl, kept', rest⟩ : ∃ z w', w = z :: w' ∧ (y = 0 ∨ y = z) ∧ ZeroedFrom v w' := by
      cases second with
      | cons kept' rest => exact ⟨_, _, rfl, kept', rest⟩
    refine List.Forall₂.cons ?_ (ih rest)
    rcases kept with zero | same
    · exact .inl zero
    · rwa [same]

theorem ZeroedFrom.set (v : List F) (i : Nat) : ZeroedFrom (v.set i 0) v := by
  induction v generalizing i with
  | nil => exact List.Forall₂.nil
  | cons x v ih =>
    cases i with
    | zero => exact List.Forall₂.cons (.inl rfl) (ZeroedFrom.refl v)
    | succ i => exact List.Forall₂.cons (.inr rfl) (ih i)

theorem ZeroedFrom.length (zeroed : ZeroedFrom w v) : w.length = v.length := List.Forall₂.length_eq zeroed

theorem ZeroedFrom.getElem?_zero (zeroed : ZeroedFrom w v) {i : Nat} (zero : v[i]? = some 0) : w[i]? = some 0 := by
  induction zeroed generalizing i with
  | nil => simp at zero
  | @cons x y w v kept _ ih =>
    cases i with
    | zero =>
      obtain rfl : y = 0 := by simpa using zero
      rw [List.getElem?_cons_zero, or_self_iff.mp kept]
    | succ i => exact ih zero

variable [LinearOrder F]

def supNorm (v : List F) : F := v.foldr (fun x largest => max |x| largest) 0

theorem supNorm_le {v : List F} {bound : F} (nonneg : 0 ≤ bound) : supNorm v ≤ bound ↔ ∀ x ∈ v, |x| ≤ bound := by
  induction v with
  | nil => simpa [supNorm] using nonneg
  | cons x v ih =>
    rw [List.forall_mem_cons, ← ih]
    exact max_le_iff

variable [IsStrictOrderedRing F]

theorem supNorm_difference_self {bound : F} (nonneg : 0 ≤ bound) (v : List F) :
    supNorm (difference v v) ≤ bound := by
  rw [difference_self, supNorm_le nonneg]
  intro x member
  rwa [List.eq_of_mem_replicate member, abs_zero]

theorem sumSq_nonneg (v : List F) : 0 ≤ sumSq v := by
  induction v with
  | nil => exact le_rfl
  | cons x v ih =>
    rw [sumSq_cons]
    positivity

theorem ZeroedFrom.sumSq_le (zeroed : ZeroedFrom w v) : sumSq w ≤ sumSq v := by
  induction zeroed with
  | nil => exact le_rfl
  | @cons x y w v kept _ ih =>
    have square := sq_nonneg y
    rw [sumSq_cons, sumSq_cons]
    rcases kept with rfl | rfl
    · rw [zero_pow two_ne_zero]
      linarith
    · linarith

theorem ZeroedFrom.abs_le {bound : F} (zeroed : ZeroedFrom w v) (nonneg : 0 ≤ bound)
    (bounded : ∀ x ∈ v, |x| ≤ bound) : ∀ x ∈ w, |x| ≤ bound := by
  induction zeroed with
  | nil => exact bounded
  | @cons x y w v kept _ ih =>
    rw [List.forall_mem_cons] at bounded ⊢
    refine ⟨?_, ih bounded.2⟩
    rcases kept with rfl | rfl
    · rwa [abs_zero]
    · exact bounded.1

end

noncomputable def euclidNorm (v : List ℝ) : ℝ := √(sumSq v)

variable {v : List ℝ} {bound : ℝ}

theorem euclidNorm_le (nonneg : 0 ≤ bound) : euclidNorm v ≤ bound ↔ sumSq v ≤ bound ^ 2 := Real.sqrt_le_left nonneg

theorem euclidNorm_difference_self (nonneg : 0 ≤ bound) (v : List ℝ) : euclidNorm (difference v v) ≤ bound := by
  rw [difference_self, euclidNorm_le nonneg, sumSq_zeros]
  positivity

theorem sumSq_normalized (positive : 0 < euclidNorm v) (radius : ℝ) :
    sumSq (v.map fun x => x / euclidNorm v * radius) = radius ^ 2 := by
  have length : euclidNorm v ^ 2 = sumSq v := Real.sq_sqrt (sumSq_nonneg v)
  calc sumSq (v.map fun x => x / euclidNorm v * radius)
      = sumSq (v.map (· * (radius / euclidNorm v))) := by
        congr 2
        funext x
        ring
    _ = euclidNorm v ^ 2 * (radius / euclidNorm v) ^ 2 := by rw [sumSq_scale, length]
    _ = radius ^ 2 := by field_simp

end SentinelLab.Library.Norms
