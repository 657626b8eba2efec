import SentinelLab.Library.FloatingPoint

/-! `HilCoupler`: the highest temperature of a recorded trajectory and the time of its first breach. The
search for the maximum starts at 0, and a negative time says that there was no breach yet. -/

namespace SentinelLab.HilCoupler
open Library.FloatingPoint

variable {F : Type} [Field F]

structure PhysicalStatePoint (F : Type) [Field F] where
  timestampSec : F := 0
  temperatureC : F := 0

structure HilMetrics (F : Type) [Field F] where
  valid : Bool := false
  criticalClearingTimeMs : F := 0
  maxObservedTempC : F := 0
  lyapunovStabilityExponent : F := 0
  safetyEnvelopeViolated : Bool := false
  summaryReport : String := ""

structure HilConfig (F : Type) [Field F] where
  maxSafeTempC : F := (120 : Nat)
  targetTcritSlaMs : F := (50 : Nat)

structure Coupler (F : Type) [Field F] where
  config : HilConfig F := {}
  trajectory : List (PhysicalStatePoint F) := []

def recordStateSample (coupler : Coupler F) (point : PhysicalStatePoint F) : Coupler F :=
  { coupler with trajectory := coupler.trajectory ++ [point] }

def reset (coupler : Coupler F) : Coupler F := { coupler with trajectory := [] }

variable [LinearOrder F]

def observe (maxSafeTempC : F) : F × F → PhysicalStatePoint F → F × F
  | (maxTemp, tFirstBreach), pt =>
    (if pt.temperatureC > maxTemp then pt.temperatureC else maxTemp,
      if pt.temperatureC > maxSafeTempC ∧ tFirstBreach < 0 then pt.timestampSec else tFirstBreach)

def lyapunovStabilityExponent (libm : Libm F) (front back : PhysicalStatePoint F) : F :=
  let d0 := |front.temperatureC - (25 : Nat)|
  let dN := |back.temperatureC - (25 : Nat)|
  let totalT := back.timestampSec - front.timestampSec
  if d0 > 1 / (1000 : Nat) ∧ totalT > 1 / (1000 : Nat) then libm.log (dN / d0) / totalT else 0

def summaryReport (libm : Libm F) (config : HilConfig F) (mitigationDelayMs : F) (m : HilMetrics F) : String :=
  "HIL Co-Simulation Metrics: MaxTemp=" ++ libm.fixed 2 m.maxObservedTempC ++ "°C (Limit: " ++
  libm.fixed 2 config.maxSafeTempC ++ "°C) | T_crit SLA=" ++ libm.fixed 2 m.criticalClearingTimeMs ++ "ms | " ++
  "Mitigation Delay=" ++ libm.fixed 2 mitigationDelayMs ++ "ms | " ++
  "Lyapunov Exponent=" ++ libm.fixed 4 m.lyapunovStabilityExponent ++ " [" ++
  (if !m.safetyEnvelopeViolated then "STABLE" else "PHYSICAL BREACH") ++ "]"

def computeHilMetrics (libm : Libm F) (coupler : Coupler F) (mitigationDelayMs : F) : HilMetrics F :=
  match coupler.trajectory with
  | [] => { summaryReport := "Trajectory buffer is empty" }
  | front :: rest =>
    let (maxTemp, tFirstBreach) := (front :: rest).foldl (observe coupler.config.maxSafeTempC) ((0, -1) : F × F)
    let m : HilMetrics F :=
      { maxObservedTempC := maxTemp
        safetyEnvelopeViolated := decide (maxTemp > coupler.config.maxSafeTempC)
        criticalClearingTimeMs :=
          if tFirstBreach ≥ 0 then tFirstBreach * (1000 : Nat) else coupler.config.targetTcritSlaMs
        lyapunovStabilityExponent :=
          if (front :: rest).length ≥ 2 then
            lyapunovStabilityExponent libm front ((front :: rest).getLast (List.cons_ne_nil front rest))
          else 0
        valid := true }
    { m with summaryReport := summaryReport libm coupler.config mitigationDelayMs m }

/-! ## What the loop finds -/

def breaches (config : HilConfig F) (pt : PhysicalStatePoint F) : Bool := decide (pt.temperatureC > config.maxSafeTempC)

def breachTimes (config : HilConfig F) (trajectory : List (PhysicalStatePoint F)) : List F :=
  (trajectory.filter (breaches config)).map (·.timestampSec)

/-- A negative time is taken for none. -/
def latch (seen time : F) : F := if seen < 0 then time else seen

theorem observe_fold (config : HilConfig F) (trajectory : List (PhysicalStatePoint F)) (maxTemp tFirstBreach : F) :
    trajectory.foldl (observe config.maxSafeTempC) (maxTemp, tFirstBreach) =
      ((trajectory.map (·.temperatureC)).foldl stdMax maxTemp,
        (breachTimes config trajectory).foldl latch tFirstBreach) := by
  induction trajectory generalizing maxTemp tFirstBreach with
  | nil => rfl
  | cons pt rest ih =>
    rw [List.foldl_cons, observe, ih, List.map_cons, List.foldl_cons]
    unfold breachTimes
    congr 1
    by_cases above : pt.temperatureC > config.maxSafeTempC
    · have found : breaches config pt = true := decide_eq_true above
      rw [List.filter_cons_of_pos found, List.map_cons, List.foldl_cons]
      simp only [above, true_and]
      rfl
    · rw [List.filter_cons_of_neg (by simpa [breaches] using above), if_neg fun both => above both.1]

theorem foldl_latch {seen : F} (negative : seen < 0) (times : List F) :
    (∀ time ∈ times, time < 0) ∧ times.foldl latch seen < 0 ∨
      times.find? (fun time => decide (0 ≤ time)) = some (times.foldl latch seen) := by
  induction times generalizing seen with
  | nil => exact .inl ⟨fun time member => absurd member List.not_mem_nil, negative⟩
  | cons time rest ih =>
    have taken : latch seen time = time := if_pos negative
    rw [List.foldl_cons, taken]
    by_cases before : time < 0
    · rw [List.find?_cons_of_neg (by simpa using before)]
      rcases ih before with ⟨all, result⟩ | found
      · exact .inl ⟨List.forall_mem_cons.mpr ⟨before, all⟩, result⟩
      · exact .inr found
    · have kept : ∀ others : List F, others.foldl latch time = time := by
        intro others
        induction others with
        | nil => rfl
        | cons other others ih => rwa [List.foldl_cons, show latch time other = time from if_neg before]
      rw [kept, List.find?_cons_of_pos (by simpa using before)]
      exact .inr rfl

/-! ## The breach that is reported -/

def firstBreach (config : HilConfig F) (trajectory : List (PhysicalStatePoint F)) : Option (PhysicalStatePoint F) :=
  trajectory.find? (breaches config)

/-- Verdict, clearing time and maximum are those of the recorded samples. -/
structure SameBreach (config : HilConfig F) (trajectory : List (PhysicalStatePoint F)) (m : HilMetrics F) : Prop where
  verdict : m.safetyEnvelopeViolated = true ↔ ∃ pt ∈ trajectory, pt.temperatureC > config.maxSafeTempC
  clearing : m.criticalClearingTimeMs =
    match firstBreach config trajectory with
    | some pt => pt.timestampSec * (1000 : Nat)
    | none => config.targetTcritSlaMs
  maximum : IsGreatest {temperature | temperature ∈ trajectory.map (·.temperatureC)} m.maxObservedTempC

/-- The temperatures reach the seed of the maximum, and the first breach does not have the time of the
sentinel, unless all breaches do and the target happens to be the time of the first. -/
def Encoded (config : HilConfig F) (trajectory : List (PhysicalStatePoint F)) : Prop :=
  (∃ pt ∈ trajectory, 0 ≤ pt.temperatureC) ∧
    ∀ pt, firstBreach config trajectory = some pt →
      0 ≤ pt.timestampSec ∨
        ((∀ other ∈ trajectory, other.temperatureC > config.maxSafeTempC → other.timestampSec < 0) ∧
          config.targetTcritSlaMs = pt.timestampSec * (1000 : Nat))

theorem computeHilMetrics_eq (libm : Libm F) {coupler : Coupler F} (nonempty : coupler.trajectory ≠ [])
    (mitigationDelayMs : F) :
    let m := computeHilMetrics libm coupler mitigationDelayMs
    let tFirstBreach := (breachTimes coupler.config coupler.trajectory).foldl latch (-1)
    m.maxObservedTempC = (coupler.trajectory.map (·.temperatureC)).foldl stdMax 0 ∧
      m.safetyEnvelopeViolated = decide (m.maxObservedTempC > coupler.config.maxSafeTempC) ∧
      m.criticalClearingTimeMs =
        if tFirstBreach ≥ 0 then tFirstBreach * (1000 : Nat) else coupler.config.targetTcritSlaMs := by
  unfold computeHilMetrics
  split
  next empty => exact absurd empty nonempty
  next front rest filled =>
    rw [filled, observe_fold]
    exact ⟨rfl, rfl, rfl⟩

theorem verdict_of_maximum {config : HilConfig F} {trajectory : List (PhysicalStatePoint F)} {maxTemp : F}
    (maximum : IsGreatest {temperature | temperature ∈ trajectory.map (·.temperatureC)} maxTemp) :
    maxTemp > config.maxSafeTempC ↔ ∃ pt ∈ trajectory, pt.temperatureC > config.maxSafeTempC := by
  obtain ⟨reached, bound⟩ := maximum
  constructor
  · intro above
    obtain ⟨pt, member, hottest⟩ := List.mem_map.mp reached
    exact ⟨pt, member, by rwa [hottest]⟩
  · rintro ⟨pt, member, above⟩
    exact above.trans_le (bound (List.mem_map_of_mem member))

theorem head?_breachTimes (config : HilConfig F) (trajectory : List (PhysicalStatePoint F)) :
    (breachTimes config trajectory).head? = (firstBreach config trajectory).map (·.timestampSec) := by
  rw [breachTimes, List.head?_map, List.head?_filter, firstBreach]

theorem breachTimes_neg_iff (config : HilConfig F) (trajectory : List (PhysicalStatePoint F)) :
    (∀ time ∈ breachTimes config trajectory, time < 0) ↔
      ∀ other ∈ trajectory, other.temperatureC > config.maxSafeTempC → other.timestampSec < 0 := by
  rw [breachTimes, List.forall_mem_map]
  simp [breaches]

theorem clearing_iff [IsStrictOrderedRing F] (config : HilConfig F) (trajectory : List (PhysicalStatePoint F)) :
    let tFirstBreach := (breachTimes config trajectory).foldl latch (-1)
    ((if tFirstBreach ≥ 0 then tFirstBreach * (1000 : Nat) else config.targetTcritSlaMs) =
        match firstBreach config trajectory with
        | some pt => pt.timestampSec * (1000 : Nat)
        | none => config.targetTcritSlaMs) ↔
      ∀ pt, firstBreach config trajectory = some pt →
        0 ≤ pt.timestampSec ∨
          ((∀ other ∈ trajectory, other.temperatureC > config.maxSafeTempC → other.timestampSec < 0) ∧
            config.targetTcritSlaMs = pt.timestampSec * (1000 : Nat)) := by
  intro tFirstBreach
  have head := head?_breachTimes config trajectory
  cases first : firstBreach config trajectory with
  | none =>
    rw [first, Option.map_none, List.head?_eq_none_iff] at head
    have sentinel : ¬tFirstBreach ≥ 0 := by
      change ¬(breachTimes config trajectory).foldl latch (-1) ≥ 0
      rw [head]
      exact not_le.mpr neg_one_lt_zero
    rw [if_neg sentinel]
    exact iff_of_true rfl fun pt found => absurd found nofun
  | some pt =>
    rw [first, Option.map_some] at head
    obtain ⟨later, times⟩ := List.head?_eq_some_iff.mp head
    rw [← breachTimes_neg_iff]
    simp only [Option.some.injEq, forall_eq']
    rcases foldl_latch neg_one_lt_zero (breachTimes config trajectory) with ⟨hidden, sentinel⟩ | found
    · have first_hidden : ¬0 ≤ pt.timestampSec := by
        rw [times] at hidden
        exact not_le.mpr (hidden _ List.mem_cons_self)
      rw [if_neg (not_le.mpr sentinel), or_iff_right first_hidden, and_iff_right hidden]
    · have reported : 0 ≤ tFirstBreach := by simpa using List.find?_some found
      have shown : ¬∀ time ∈ breachTimes config trajectory, time < 0 :=
        fun hidden => absurd reported (not_le.mpr (hidden _ (List.mem_of_find?_eq_some found)))
      have thousand : ((1000 : Nat) : F) ≠ 0 := by positivity
      rw [if_pos reported, mul_left_inj' thousand, or_iff_left fun both => shown both.1]
      constructor
      · intro same
        exact same ▸ reported
      · intro after
        have at_first : (breachTimes config trajectory).find? (fun time => decide (0 ≤ time)) = some pt.timestampSec := by
          rw [times, List.find?_cons_of_pos (by simpa using after)]
        exact Option.some.inj (found.symm.trans at_first)

theorem sameBreach_iff_encoded [IsStrictOrderedRing F] (libm : Libm F) (coupler : Coupler F)
    (nonempty : coupler.trajectory ≠ []) (mitigationDelayMs : F) :
    SameBreach coupler.config coupler.trajectory (computeHilMetrics libm coupler mitigationDelayMs) ↔
      Encoded coupler.config coupler.trajectory := by
  obtain ⟨maxTemp, verdict, clearing⟩ := computeHilMetrics_eq libm nonempty mitigationDelayMs
  have seeded := foldl_stdMax_iff 0 (coupler.trajectory.map (·.temperatureC))
  rw [← maxTemp] at seeded
  have reaches : (∃ value ∈ coupler.trajectory.map (·.temperatureC), 0 ≤ value) ↔
      ∃ pt ∈ coupler.trajectory, 0 ≤ pt.temperatureC := by simp
  have clears := clearing_iff coupler.config coupler.trajectory
  dsimp only at clears
  rw [← clearing] at clears
  constructor
  · intro same
    exact ⟨reaches.mp (seeded.mp same.maximum), clears.mp same.clearing⟩
  · rintro ⟨positive, visible⟩
    have maximum := seeded.mpr (reaches.mpr positive)
    refine ⟨?_, clears.mpr visible, maximum⟩
    rw [verdict, decide_eq_true_iff]
    exact verdict_of_maximum maximum

/-! ## Recorded trajectories -/

def recorded (config : HilConfig F) (points : List (PhysicalStatePoint F)) : Coupler F :=
  points.foldl recordStateSample { config }

omit [LinearOrder F] in
theorem recorded_eq (config : HilConfig F) (points : List (PhysicalStatePoint F)) :
    recorded config points = ⟨config, points⟩ := by
  have appended (coupler : Coupler F) :
      points.foldl recordStateSample coupler = ⟨coupler.config, coupler.trajectory ++ points⟩ := by
    induction points generalizing coupler with
    | nil => rw [List.foldl_nil, List.append_nil]
    | cons point rest ih =>
      rw [List.foldl_cons, ih]
      simp [recordStateSample]
  exact appended { config }

/-- Verdict, clearing time and maximum describe the recorded samples exactly where the temperatures and
the time of the first breach are not below the values that stand for none. -/
theorem same_breach_iff (libm : Libm ℝ) (config : HilConfig ℝ) (points : List (PhysicalStatePoint ℝ))
    (nonempty : points ≠ []) (mitigationDelayMs : ℝ) :
    SameBreach config points (computeHilMetrics libm (recorded config points) mitigationDelayMs) ↔
      Encoded config points := by
  rw [recorded_eq]
  exact sameBreach_iff_encoded libm ⟨config, points⟩ nonempty mitigationDelayMs

theorem same_breach_heating :
    SameBreach {} [⟨0, 20⟩, ⟨1, 130⟩] (computeHilMetrics exact (recorded {} [⟨0, 20⟩, ⟨1, 130⟩]) 0) := by
  refine (same_breach_iff exact {} [⟨0, 20⟩, ⟨1, 130⟩] (List.cons_ne_nil _ _) 0).mpr ⟨⟨⟨0, 20⟩, by simp, by norm_num⟩, ?_⟩
  intro pt found
  have member : pt ∈ [(⟨0, 20⟩ : PhysicalStatePoint ℝ), ⟨1, 130⟩] := List.mem_of_find?_eq_some found
  left
  rcases List.mem_pair.mp member with rfl | rfl
  · exact le_rfl
  · exact zero_le_one

/-- A plant below zero has a maximum of 0, and a breach before time zero is not reported. -/
theorem breach_misreported :
    ¬SameBreach {} [⟨0, -5⟩] (computeHilMetrics exact (recorded {} [⟨0, -5⟩]) 0) ∧
      ¬SameBreach {} [⟨-1, 130⟩] (computeHilMetrics exact (recorded {} [⟨-1, 130⟩]) 0) := by
  rw [recorded_eq, recorded_eq, sameBreach_iff_encoded _ ⟨{}, [⟨0, -5⟩]⟩ (List.cons_ne_nil _ _),
    sameBreach_iff_encoded _ ⟨{}, [⟨-1, 130⟩]⟩ (List.cons_ne_nil _ _)]
  constructor
  · rintro ⟨⟨pt, member, positive⟩, _⟩
    rw [List.mem_singleton.mp member] at positive
    norm_num at positive
  · rintro ⟨_, visible⟩
    have first : firstBreach {} [⟨-1, 130⟩] = some (⟨-1, 130⟩ : PhysicalStatePoint ℝ) := by
      norm_num [firstBreach, breaches]
    rcases visible _ first with after | ⟨_, target⟩
    · norm_num at after
    · norm_num at target

end SentinelLab.HilCoupler
