import SentinelLab.Library.Norms

/-! `AdversarialEngine::apply_perturbation`: bounded noise on the mutable features of an attack. Floats are
exact; the values that the static generator will give are a stream. -/

namespace SentinelLab.AdversarialEngine
open Library.Norms

inductive EvasionNorm where
  | lInf
  | l2
  deriving DecidableEq, Repr

structure AdversarialConfig (F : Type) where
  epsilonBound : F
  norm : EvasionNorm := .lInf
  immutableFeatureIndices : List (BitVec 32) := [0, 1, 2]

variable {F : Type}

/-- The index is cut to 32 bits before it is looked up. -/
def AdversarialConfig.skips (config : AdversarialConfig F) (i : Nat) : Bool :=
  config.immutableFeatureIndices.contains (BitVec.ofNat 32 i)

/-- The loop from feature `i` on, with what it leaves of the generator's values. -/
def perturb [Add F] (config : AdversarialConfig F) : Nat → Stream' F → List F → List F × Stream' F
  | _, gen, [] => ([], gen)
  | i, gen, feature :: features =>
      if config.skips i then
        let (features, gen) := perturb config (i + 1) gen features
        (feature :: features, gen)
      else
        let (features, rest) := perturb config (i + 1) gen.tail features
        ((feature + gen.head) :: features, rest)

def applyPerturbation [Add F] (config : AdversarialConfig F) (gen : Stream' F) (features : List F) (isAttack : Bool) :
    List F × Stream' F :=
  if !isAttack || features.isEmpty then (features, gen) else perturb config 0 gen features

/-! ## The noise -/

def noise [Zero F] (config : AdversarialConfig F) : Nat → Stream' F → Nat → List F
  | _, _, 0 => []
  | i, gen, n + 1 =>
      if config.skips i then 0 :: noise config (i + 1) gen n else gen.head :: noise config (i + 1) gen.tail n

def mutableCount (config : AdversarialConfig F) : Nat → Nat → Nat
  | _, 0 => 0
  | i, n + 1 => (if config.skips i then 0 else 1) + mutableCount config (i + 1) n

section
variable [AddZeroClass F] (config : AdversarialConfig F) {isAttack : Bool}

theorem noise_length (i : Nat) (gen : Stream' F) (n : Nat) : (noise config i gen n).length = n := by
  induction n generalizing i gen with
  | zero => rfl
  | succ n ih =>
    unfold noise
    split <;> rw [List.length_cons, ih]

theorem perturb_eq (i : Nat) (gen : Stream' F) (features : List F) :
    (perturb config i gen features).1 = List.zipWith (· + ·) features (noise config i gen features.length) := by
  induction features generalizing i gen with
  | nil => rfl
  | cons feature features ih =>
    unfold perturb
    rw [List.length_cons, noise]
    split
    · rw [List.zipWith_cons_cons, add_zero, ← ih]
    · rw [List.zipWith_cons_cons, ← ih]

theorem noise_skipped (i : Nat) (gen : Stream' F) (n k : Nat) (skipped : config.skips (i + k)) (inside : k < n) :
    (noise config i gen n)[k]? = some 0 := by
  induction n generalizing i gen k with
  | zero => omega
  | succ n ih =>
    unfold noise
    cases k with
    | zero =>
      rw [add_zero] at skipped
      rw [if_pos skipped, List.getElem?_cons_zero]
    | succ k =>
      have next : config.skips (i + 1 + k) := by rwa [Nat.add_right_comm, Nat.add_assoc]
      split
      · rw [List.getElem?_cons_succ, ih (i + 1) _ k next (by omega)]
      · rw [List.getElem?_cons_succ, ih (i + 1) _ k next (by omega)]

theorem applyPerturbation_benign (gen : Stream' F) (features : List F) (benign : isAttack = false ∨ features = []) :
    (applyPerturbation config gen features isAttack).1 = features := by
  unfold applyPerturbation
  rw [if_pos]
  rcases benign with rfl | rfl
  · rfl
  · exact Bool.or_true _

theorem applyPerturbation_attack (gen : Stream' F) (features : List F) :
    (applyPerturbation config gen features true).1 =
      List.zipWith (· + ·) features (noise config 0 gen features.length) := by
  rw [← perturb_eq]
  unfold applyPerturbation
  split
  next empty =>
    obtain rfl : features = [] := by simpa using empty
    rfl
  next => rfl

end

/-! ## The ball around the original vector -/

section
variable {config : AdversarialConfig ℝ} {gen : Stream' ℝ}

/-- Every value is one that the distribution on `[-epsilon_bound, epsilon_bound]` can give. -/
def InRange (config : AdversarialConfig ℝ) (gen : Stream' ℝ) : Prop :=
  ∀ k, -config.epsilonBound ≤ gen.get k ∧ gen.get k ≤ config.epsilonBound

theorem InRange.head (inRange : InRange config gen) : |gen.head| ≤ config.epsilonBound := abs_le.mpr (inRange 0)

theorem InRange.tail (inRange : InRange config gen) : InRange config gen.tail := fun k => inRange (k + 1)

theorem noise_le (nonneg : 0 ≤ config.epsilonBound) (inRange : InRange config gen) (i n : Nat) :
    ∀ x ∈ noise config i gen n, |x| ≤ config.epsilonBound := by
  induction n generalizing i gen with
  | zero => exact fun _ => nofun
  | succ n ih =>
    unfold noise
    split
    · rw [List.forall_mem_cons, abs_zero]
      exact ⟨nonneg, ih inRange (i + 1)⟩
    · rw [List.forall_mem_cons]
      exact ⟨inRange.head, ih inRange.tail (i + 1)⟩

theorem sumSq_noise_le (inRange : InRange config gen) (i n : Nat) :
    sumSq (noise config i gen n) ≤ mutableCount config i n * config.epsilonBound ^ 2 := by
  induction n generalizing i gen with
  | zero => simp [noise, mutableCount]
  | succ n ih =>
    unfold noise mutableCount
    split
    · rw [sumSq_cons, zero_pow two_ne_zero, zero_add, zero_add]
      exact ih inRange (i + 1)
    · have first : gen.head ^ 2 ≤ config.epsilonBound ^ 2 := sq_le_sq' (inRange 0).1 (inRange 0).2
      have others := ih inRange.tail (i + 1)
      rw [sumSq_cons, Nat.cast_add, Nat.cast_one, add_mul, one_mul]
      linarith

theorem sumSq_noise_const (i n : Nat) :
    sumSq (noise config i (Stream'.const config.epsilonBound) n) =
      mutableCount config i n * config.epsilonBound ^ 2 := by
  induction n generalizing i with
  | zero => simp [noise, mutableCount]
  | succ n ih =>
    unfold noise mutableCount
    rw [Stream'.tail_const]
    split
    · rw [sumSq_cons, ih, zero_pow two_ne_zero, zero_add, zero_add]
    · have first : (Stream'.const config.epsilonBound).head = config.epsilonBound := rfl
      rw [sumSq_cons, ih, first, Nat.cast_add, Nat.cast_one, add_mul, one_mul]

/-- What is asked of a perturbed vector: the immutable features and the benign vectors are as they were, and the
difference is in the ball of the configured norm. -/
structure StaysInBall (config : AdversarialConfig ℝ) (isAttack : Bool) (features perturbed : List ℝ) : Prop where
  sameLength : perturbed.length = features.length
  immutable : ∀ idx ∈ config.immutableFeatureIndices, perturbed[idx.toNat]? = features[idx.toNat]?
  benign : isAttack = false ∨ features = [] → perturbed = features
  supBound : config.norm = .lInf → supNorm (difference perturbed features) ≤ config.epsilonBound
  euclidBound : config.norm = .l2 → euclidNorm (difference perturbed features) ≤ config.epsilonBound

theorem skips_immutable {idx : BitVec 32} (immutable : idx ∈ config.immutableFeatureIndices) :
    config.skips idx.toNat := by
  unfold AdversarialConfig.skips
  rw [BitVec.ofNat_toNat, BitVec.setWidth_eq]
  exact List.contains_iff_mem.mpr immutable

theorem difference_attack (gen : Stream' ℝ) (features : List ℝ) :
    difference (applyPerturbation config gen features true).1 features = noise config 0 gen features.length := by
  rw [applyPerturbation_attack, difference_add _ _ (noise_length config 0 gen features.length)]

theorem immutable_attack (gen : Stream' ℝ) (features : List ℝ) {idx : BitVec 32}
    (immutable : idx ∈ config.immutableFeatureIndices) :
    (applyPerturbation config gen features true).1[idx.toNat]? = features[idx.toNat]? := by
  rw [applyPerturbation_attack, List.getElem?_zipWith]
  by_cases inside : idx.toNat < features.length
  · have skipped : config.skips (0 + idx.toNat) := by
      rw [zero_add]
      exact skips_immutable immutable
    rw [noise_skipped config 0 gen features.length idx.toNat skipped inside, List.getElem?_eq_getElem inside]
    simp
  · rw [List.getElem?_eq_none (not_lt.mp inside)]

theorem staysInBall_iff (nonneg : 0 ≤ config.epsilonBound) (inRange : InRange config gen) (isAttack : Bool)
    (features : List ℝ) :
    StaysInBall config isAttack features (applyPerturbation config gen features isAttack).1 ↔
      (config.norm = .l2 → isAttack → sumSq (noise config 0 gen features.length) ≤ config.epsilonBound ^ 2) := by
  cases isAttack with
  | false =>
    apply iff_of_true
    · rw [applyPerturbation_benign config gen features (.inl rfl)]
      exact ⟨rfl, fun _ _ => rfl, fun _ => rfl, fun _ => supNorm_difference_self nonneg features,
        fun _ => euclidNorm_difference_self nonneg features⟩
    · exact fun _ => nofun
  | true =>
    constructor
    · intro stays norm _
      have bounded := stays.euclidBound norm
      rwa [difference_attack, euclidNorm_le nonneg] at bounded
    · intro bounded
      refine ⟨?_, fun idx => immutable_attack gen features, applyPerturbation_benign config gen features, ?_, ?_⟩
      · rw [applyPerturbation_attack, List.length_zipWith, noise_length, min_self]
      · intro _
        rw [difference_attack, supNorm_le nonneg]
        exact noise_le nonneg inRange 0 features.length
      · intro norm
        rw [difference_attack, euclidNorm_le nonneg]
        exact bounded norm rfl

/-- For every vector, configuration and attack flag: the vector stays in the ball for all draws exactly if the norm is
L_INF, nothing is perturbed, the bound is zero, or a single feature is mutable. -/
theorem stays_in_ball_iff (config : AdversarialConfig ℝ) (nonneg : 0 ≤ config.epsilonBound) (features : List ℝ)
    (isAttack : Bool) :
    (∀ gen, InRange config gen →
        StaysInBall config isAttack features (applyPerturbation config gen features isAttack).1) ↔
      config.norm = .lInf ∨ isAttack = false ∨ config.epsilonBound = 0 ∨
        mutableCount config 0 features.length ≤ 1 := by
  have square := sq_nonneg config.epsilonBound
  constructor
  · intro stays
    by_contra unsound
    simp only [not_or, not_le, Bool.not_eq_false] at unsound
    obtain ⟨norm, attack, positive, many⟩ := unsound
    have border : InRange config (Stream'.const config.epsilonBound) := fun k => ⟨by
      rw [Stream'.get_const]
      linarith, le_of_eq (Stream'.get_const _ _)⟩
    have euclid : config.norm = .l2 := by
      cases same : config.norm with
      | lInf => exact absurd same norm
      | l2 => rfl
    have bounded := (staysInBall_iff nonneg border isAttack features).mp (stays _ border) euclid attack
    have two : (2 : ℝ) ≤ mutableCount config 0 features.length := by exact_mod_cast many
    rw [sumSq_noise_const] at bounded
    have bound : 0 < config.epsilonBound ^ 2 := by positivity
    nlinarith
  · intro sound gen inRange
    rw [staysInBall_iff nonneg inRange]
    intro norm attack
    have total := sumSq_noise_le inRange 0 features.length
    rcases sound with linf | benign | zero | few
    · rw [linf] at norm
      contradiction
    · rw [benign] at attack
      contradiction
    · simpa [zero] using total
    · have one : (mutableCount config 0 features.length : ℝ) ≤ 1 := by exact_mod_cast few
      nlinarith

private noncomputable def euclidean : AdversarialConfig ℝ := { epsilonBound := (3 : Nat) / (20 : Nat), norm := .l2 }

theorem stays_in_ball_iff_one_mutable :
    mutableCount euclidean 0 4 = 1 ∧ ∀ gen, InRange euclidean gen →
      StaysInBall euclidean true [5, 5, 5, 5] (applyPerturbation euclidean gen [5, 5, 5, 5] true).1 := by
  have one : mutableCount euclidean 0 4 = 1 := rfl
  exact ⟨one, (stays_in_ball_iff euclidean (by norm_num [euclidean]) [5, 5, 5, 5] true).mpr
    (.inr (.inr (.inr one.le)))⟩

/-- With norm L_2 both mutable features are moved by the whole bound. -/
theorem euclidean_bound_exceeded :
    ∃ gen, InRange euclidean gen ∧
      euclidean.epsilonBound <
        euclidNorm (difference (applyPerturbation euclidean gen [5, 5, 5, 5, 5] true).1 [5, 5, 5, 5, 5]) := by
  refine ⟨Stream'.const euclidean.epsilonBound, ?_, ?_⟩
  · intro k
    rw [Stream'.get_const]
    norm_num [euclidean]
  · have two : mutableCount euclidean 0 5 = 2 := rfl
    have outside :
        ¬euclidNorm (noise euclidean 0 (Stream'.const euclidean.epsilonBound) 5) ≤ euclidean.epsilonBound := by
      rw [euclidNorm_le (by norm_num [euclidean]), sumSq_noise_const, two]
      norm_num [euclidean]
    rw [difference_attack]
    exact not_le.mp outside

end

end SentinelLab.AdversarialEngine
