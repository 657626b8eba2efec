import SentinelLab.Library.FloatingPoint

/-! `FdiaEngine` over an exact number field: a run of telemetry is searched for the first frame at
the critical threshold, and the alert is compared with it. Timestamp 0 stands for no breach. -/

namespace SentinelLab.FdiaEngine
open Library.FloatingPoint

variable {F : Type} [Field F]

structure FdiaTelemetryFrame (F : Type) [Field F] where
  timestampNs : BitVec 64 := 0
  cyberSensorId : BitVec 32 := 100
  cyberReportedScore : F := (10 : Nat) / (100 : Nat)
  physicalSensorId : BitVec 32 := 101
  physicalTrueValue : F := (85 : Nat)
  isFdiaActive : Bool := false

structure FdiaMetrics (F : Type) [Field F] where
  valid : Bool := false
  timeToDetectionMs : F := 0
  maxPhysicalDrift : F := 0
  causalAlertTriggered : Bool := false
  f1Score : F := 1
  summaryReport : String := ""

structure FdiaConfig (F : Type) [Field F] where
  cyberSensorId : BitVec 32 := 100
  physicalSensorId : BitVec 32 := 101
  criticalThreshold : F := (120 : Nat)
  targetTdetSlaMs : F := (10 : Nat)

variable [LinearOrder F]

def generateFdiaFrame (config : FdiaConfig F) (timestampNs : BitVec 64) (currentPhysicalTemp : F)
    (injectBlinding : Bool) : FdiaTelemetryFrame F where
  timestampNs
  cyberSensorId := config.cyberSensorId
  physicalSensorId := config.physicalSensorId
  physicalTrueValue := currentPhysicalTemp
  isFdiaActive := injectBlinding
  cyberReportedScore :=
    -- A blinded sensor claims a normal state while the physical value drifts.
    if injectBlinding then (10 : Nat) / (100 : Nat)
    else if config.criticalThreshold < currentPhysicalTemp then (95 : Nat) / (100 : Nat)
    else (10 : Nat) / (100 : Nat)

/-- One round of the loop on `breach_timestamp_ns` and `max_drift`. -/
def observe (config : FdiaConfig F) (seen : BitVec 64 × F) (f : FdiaTelemetryFrame F) : BitVec 64 × F :=
  let (breachTimestampNs, maxDrift) := seen
  (if config.criticalThreshold ≤ f.physicalTrueValue ∧ breachTimestampNs = 0 then f.timestampNs else breachTimestampNs,
   if maxDrift < f.physicalTrueValue then f.physicalTrueValue else maxDrift)

def summaryReport (libm : Libm F) (config : FdiaConfig F) (m : FdiaMetrics F) : String :=
  "FDIA Causal Evaluation [Signature: STUXNET_TRITON_DECEPT]: Max Physical Drift=" ++
  libm.fixed 2 m.maxPhysicalDrift ++ "°C | " ++
  "Threshold Limit=" ++ libm.fixed 2 config.criticalThreshold ++ "°C | " ++
  "T_det=" ++ libm.fixed 2 m.timeToDetectionMs ++ "ms (SLA: " ++ libm.fixed 2 config.targetTdetSlaMs ++ "ms) | " ++
  "Causal Detection=" ++
  (if m.causalAlertTriggered then "\x1b[1;32m[SUCCESS] Cross-Modal Interlock Triggered\x1b[0m"
    else "\x1b[1;31m[FAILED] Cyber Blindness Breach\x1b[0m")

def evaluateCausalDetection (libm : Libm F) (config : FdiaConfig F) (frames : List (FdiaTelemetryFrame F))
    (detectionTimestampNs : BitVec 64) : FdiaMetrics F :=
  if frames.isEmpty then { summaryReport := "FDIA telemetry buffer is empty" }
  else
    let (breachTimestampNs, maxDrift) := frames.foldl (observe config) (0, 0)
    let m : FdiaMetrics F := { maxPhysicalDrift := maxDrift, valid := true }
    let scored : FdiaMetrics F :=
      if 0 < detectionTimestampNs ∧ 0 < breachTimestampNs ∧ breachTimestampNs ≤ detectionTimestampNs then
        { m with
          causalAlertTriggered := true
          timeToDetectionMs := ((detectionTimestampNs - breachTimestampNs).toNat : F) / (1000000 : Nat)
          f1Score := 1 }
      else if 0 < breachTimestampNs ∧ detectionTimestampNs = 0 then
        { m with causalAlertTriggered := false, timeToDetectionMs := (999 : Nat), f1Score := 0 }
      else
        { m with causalAlertTriggered := false, timeToDetectionMs := 0, f1Score := 1 }
    { scored with summaryReport := summaryReport libm config scored }

/-! ## The search for the breach -/

def breaches (config : FdiaConfig F) (frames : List (FdiaTelemetryFrame F)) : List (BitVec 64) :=
  (frames.filter fun f => config.criticalThreshold ≤ f.physicalTrueValue).map (·.timestampNs)

/-- The timestamp of the first frame at or above the threshold. -/
def firstBreach (config : FdiaConfig F) (frames : List (FdiaTelemetryFrame F)) : Option (BitVec 64) :=
  (frames.find? fun f => config.criticalThreshold ≤ f.physicalTrueValue).map (·.timestampNs)

variable (config : FdiaConfig F) (frames : List (FdiaTelemetryFrame F)) (detectionTimestampNs : BitVec 64)

theorem firstBreach_eq_head : firstBreach config frames = (breaches config frames).head? := by
  rw [firstBreach, breaches, List.head?_map, List.head?_filter]

theorem observe_breach (seen : BitVec 64 × F) :
    (frames.foldl (observe config) seen).1 =
      if seen.1 = 0 then ((breaches config frames).find? (· ≠ 0)).getD 0 else seen.1 := by
  induction frames generalizing seen with
  | nil =>
    obtain ⟨breachTimestampNs, maxDrift⟩ := seen
    by_cases none_yet : breachTimestampNs = 0 <;> simp [breaches, none_yet]
  | cons f rest ih =>
    obtain ⟨breachTimestampNs, maxDrift⟩ := seen
    rw [List.foldl_cons, ih]
    by_cases critical : config.criticalThreshold ≤ f.physicalTrueValue
    · have first : breaches config (f :: rest) = f.timestampNs :: breaches config rest := by
        simp [breaches, critical]
      rw [first, List.find?_cons]
      by_cases none_yet : breachTimestampNs = 0
      · by_cases stamped : f.timestampNs = 0
        · simp only [observe, critical, none_yet, stamped, and_self, ↓reduceIte, ne_eq, not_true_eq_false,
            decide_false]
        · simp only [observe, critical, none_yet, stamped, and_self, ↓reduceIte, ne_eq, not_false_eq_true,
            decide_true, Option.getD_some]
      · simp only [observe, none_yet, and_false, ↓reduceIte]
    · have skipped : breaches config (f :: rest) = breaches config rest := by simp [breaches, critical]
      simp only [observe, skipped, critical, false_and, ↓reduceIte]

theorem observe_drift (seen : BitVec 64 × F) :
    IsGreatest (insert seen.2 {value | value ∈ frames.map (·.physicalTrueValue)})
      (frames.foldl (observe config) seen).2 := by
  have running : (frames.foldl (observe config) seen).2 = (frames.map (·.physicalTrueValue)).foldl stdMax seen.2 := by
    induction frames generalizing seen with
    | nil => rfl
    | cons f rest ih => exact ih _
  rw [running]
  exact foldl_stdMax_isGreatest _ _

def breachTimestampNs : BitVec 64 := ((breaches config frames).find? (· ≠ 0)).getD 0

/-! ## The three results -/

variable (libm : Libm F)

theorem evaluate_cases :
    let m := evaluateCausalDetection libm config frames detectionTimestampNs
    let breach := breachTimestampNs config frames
    (0 < detectionTimestampNs ∧ 0 < breach ∧ breach ≤ detectionTimestampNs ∧ m.causalAlertTriggered = true ∧
      m.timeToDetectionMs = ((detectionTimestampNs - breach).toNat : F) / (1000000 : Nat) ∧ m.f1Score = 1) ∨
    (0 < breach ∧ detectionTimestampNs = 0 ∧ m.causalAlertTriggered = false ∧ m.f1Score = 0) ∨
    (¬(0 < detectionTimestampNs ∧ 0 < breach ∧ breach ≤ detectionTimestampNs) ∧
      ¬(0 < breach ∧ detectionTimestampNs = 0) ∧ m.causalAlertTriggered = false ∧ m.f1Score = 1) := by
  intro m breach
  have searched : (frames.foldl (observe config) (0, 0)).1 = breach := by
    rw [observe_breach, if_pos rfl]
    rfl
  by_cases empty : frames.isEmpty
  · have none_yet : breach = 0 := by
      rw [List.isEmpty_iff] at empty
      simp [breach, breachTimestampNs, breaches, empty]
    have reported : m = { summaryReport := "FDIA telemetry buffer is empty" } := if_pos empty
    right
    right
    rw [reported, none_yet]
    simp
  · have reported : m = _ := if_neg empty
    dsimp only at reported
    rw [searched] at reported
    split at reported
    · next caught =>
      left
      rw [reported]
      exact ⟨caught.1, caught.2.1, caught.2.2, rfl, rfl, rfl⟩
    · next uncaught =>
      split at reported
      · next missed =>
        right
        left
        rw [reported]
        exact ⟨missed.1, missed.2, rfl, rfl⟩
      · next other =>
        right
        right
        rw [reported]
        exact ⟨uncaught, other, rfl, rfl⟩

/-- The evaluation reads the physical stream only: what the blinded sensors claim changes nothing. -/
theorem evaluate_blinding (samples : List (BitVec 64 × F × Bool)) :
    evaluateCausalDetection libm config
        (samples.map fun (timestampNs, temp, inject) => generateFdiaFrame config timestampNs temp inject)
        detectionTimestampNs =
      evaluateCausalDetection libm config
        (samples.map fun (timestampNs, temp, _) => generateFdiaFrame config timestampNs temp false)
        detectionTimestampNs := by
  unfold evaluateCausalDetection
  rw [List.foldl_map, List.foldl_map, List.isEmpty_map, List.isEmpty_map]
  rfl

/-! ## Which runs are classified correctly -/

/-- An alert at or after the first breach. -/
def Caught : Prop :=
  ∃ breach, firstBreach config frames = some breach ∧ 0 < detectionTimestampNs ∧ breach ≤ detectionTimestampNs

/-- The metrics tell caught breaches and quiet runs from missed breaches and false alerts. -/
structure Classified (m : FdiaMetrics F) : Prop where
  alert : m.causalAlertTriggered = true ↔ Caught config frames detectionTimestampNs
  time : ∀ breach, firstBreach config frames = some breach → 0 < detectionTimestampNs → breach ≤ detectionTimestampNs →
    m.timeToDetectionMs = ((detectionTimestampNs.toNat - breach.toNat : Nat) : F) / (1000000 : Nat)
  caught : Caught config frames detectionTimestampNs → m.f1Score = 1
  quiet : firstBreach config frames = none → detectionTimestampNs = 0 → m.f1Score = 1
  otherwise : ¬Caught config frames detectionTimestampNs →
    ¬(firstBreach config frames = none ∧ detectionTimestampNs = 0) → m.f1Score = 0

variable {config frames detectionTimestampNs}

theorem breachTimestampNs_of_none (absent : firstBreach config frames = none) : breachTimestampNs config frames = 0 := by
  rw [firstBreach_eq_head, List.head?_eq_none_iff] at absent
  simp [breachTimestampNs, absent]

theorem breachTimestampNs_of_some {breach : BitVec 64} (first : firstBreach config frames = some breach)
    (stamped : breach ≠ 0) : breachTimestampNs config frames = breach := by
  rw [firstBreach_eq_head, List.head?_eq_some_iff] at first
  obtain ⟨later, split⟩ := first
  rw [breachTimestampNs, split, List.find?_cons_of_pos (by simpa using stamped), Option.getD_some]

theorem breachTimestampNs_ne_zero :
    breachTimestampNs config frames ≠ 0 ↔ ∃ timestamp ∈ breaches config frames, timestamp ≠ 0 := by
  unfold breachTimestampNs
  cases found : (breaches config frames).find? (· ≠ 0) with
  | none =>
    rw [List.find?_eq_none] at found
    simpa using found
  | some timestamp =>
    have stamped := List.find?_some found
    exact iff_of_true (by simpa using stamped) ⟨timestamp, List.mem_of_find?_eq_some found, by simpa using stamped⟩

theorem not_caught_of_none (absent : firstBreach config frames = none) : ¬Caught config frames detectionTimestampNs := by
  rintro ⟨breach, first, _⟩
  rw [absent] at first
  cases first

theorem not_caught_of_quiet (quiet : detectionTimestampNs = 0) : ¬Caught config frames detectionTimestampNs := by
  rintro ⟨_, _, alerted, _⟩
  rw [quiet] at alerted
  exact absurd alerted (by decide)

theorem caught_iff {breach : BitVec 64} (first : firstBreach config frames = some breach) :
    Caught config frames detectionTimestampNs ↔ 0 < detectionTimestampNs ∧ breach ≤ detectionTimestampNs := by
  constructor
  · rintro ⟨other, first', positive, late⟩
    obtain rfl := Option.some.inj (first.symm.trans first')
    exact ⟨positive, late⟩
  · intro alert
    exact ⟨breach, first, alert⟩

theorem classified_of_missed {m : FdiaMetrics F} {breach : BitVec 64} (first : firstBreach config frames = some breach)
    (quiet : detectionTimestampNs = 0) (silent : m.causalAlertTriggered = false) (score : m.f1Score = 0) :
    Classified config frames detectionTimestampNs m := by
  have uncaught : ¬Caught config frames detectionTimestampNs := not_caught_of_quiet quiet
  refine ⟨iff_of_false (by rw [silent]; decide) uncaught, ?_, fun caught => absurd caught uncaught, ?_, fun _ _ => score⟩
  · intro _ _ alerted
    exact absurd alerted (by rw [quiet]; decide)
  · intro absent
    rw [first] at absent
    cases absent

section
variable [IsStrictOrderedRing F]

theorem classified_of_none_iff (absent : firstBreach config frames = none) :
    Classified config frames detectionTimestampNs (evaluateCausalDetection libm config frames detectionTimestampNs) ↔
      detectionTimestampNs = 0 := by
  have uncaught : ¬Caught config frames detectionTimestampNs := not_caught_of_none absent
  have none_yet := breachTimestampNs_of_none absent
  rcases evaluate_cases config frames detectionTimestampNs libm with ⟨_, some_breach, _⟩ | ⟨some_breach, _⟩ | ⟨_, _, silent, score⟩
  · exact absurd some_breach (by rw [none_yet]; decide)
  · exact absurd some_breach (by rw [none_yet]; decide)
  · constructor
    · intro classified
      by_contra alerted
      have zero := classified.otherwise uncaught fun quiet => alerted quiet.2
      exact one_ne_zero (score.symm.trans zero)
    · intro quiet
      refine ⟨iff_of_false (by rw [silent]; decide) uncaught, ?_, fun _ => score, fun _ _ => score, ?_⟩
      · intro breach first
        rw [absent] at first
        cases first
      · intro _ loud
        exact absurd ⟨absent, quiet⟩ loud

theorem classified_of_stamped_iff {breach : BitVec 64} (first : firstBreach config frames = some breach)
    (stamped : breach ≠ 0) :
    Classified config frames detectionTimestampNs (evaluateCausalDetection libm config frames detectionTimestampNs) ↔
      detectionTimestampNs = 0 ∨ breach ≤ detectionTimestampNs := by
  have searched := breachTimestampNs_of_some first stamped
  have positive : 0 < breach := (BitVec.pos_iff_ne_zero breach).mpr stamped
  have absent : firstBreach config frames ≠ none := by rw [first]; simp
  rcases evaluate_cases config frames detectionTimestampNs libm with
    ⟨alerted, _, late, triggered, time, score⟩ | ⟨_, quiet, silent, score⟩ | ⟨uncaught, loud, silent, score⟩
  · rw [searched] at late time
    have caught := (caught_iff first).mpr ⟨alerted, late⟩
    refine iff_of_true ⟨iff_of_true triggered caught, ?_, fun _ => score, fun none_first => absurd none_first absent,
      fun uncaught => absurd caught uncaught⟩ (.inr late)
    intro other first' _ _
    obtain rfl := Option.some.inj (first.symm.trans first')
    rw [time, BitVec.toNat_sub_of_le late]
  · exact iff_of_true (classified_of_missed first quiet silent score) (.inl quiet)
  · rw [searched] at uncaught loud
    have alerted : detectionTimestampNs ≠ 0 := fun quiet => loud ⟨positive, quiet⟩
    have early : ¬breach ≤ detectionTimestampNs :=
      fun late => uncaught ⟨(BitVec.pos_iff_ne_zero _).mpr alerted, positive, late⟩
    apply iff_of_false
    · intro classified
      have zero := classified.otherwise (by rw [caught_iff first]; exact fun both => early both.2)
        fun quiet => absurd quiet.1 absent
      exact one_ne_zero (score.symm.trans zero)
    · exact not_or.mpr ⟨alerted, early⟩

theorem classified_of_unstamped_iff (first : firstBreach config frames = some 0) :
    Classified config frames detectionTimestampNs (evaluateCausalDetection libm config frames detectionTimestampNs) ↔
      detectionTimestampNs = 0 ∧ ∃ timestamp ∈ breaches config frames, timestamp ≠ 0 := by
  have zero_le : (0 : BitVec 64) ≤ detectionTimestampNs := Nat.zero_le _
  have caught_iff_alerted : Caught config frames detectionTimestampNs ↔ 0 < detectionTimestampNs := by
    rw [caught_iff first]
    exact and_iff_left zero_le
  have absent : firstBreach config frames ≠ none := by rw [first]; simp
  rw [← breachTimestampNs_ne_zero]
  rcases evaluate_cases config frames detectionTimestampNs libm with
    ⟨alerted, some_breach, late, _, time, _⟩ | ⟨some_breach, quiet, silent, score⟩ | ⟨_, loud, silent, score⟩
  · apply iff_of_false
    · intro classified
      have exact_time := classified.time 0 first alerted zero_le
      have scale : ((1000000 : Nat) : F) ≠ 0 := by norm_num
      rw [time, div_left_inj' scale, BitVec.toNat_sub_of_le late, Nat.cast_inj] at exact_time
      have positive : 0 < (breachTimestampNs config frames).toNat := some_breach
      have below : (breachTimestampNs config frames).toNat ≤ detectionTimestampNs.toNat := late
      have zero : (0 : BitVec 64).toNat = 0 := rfl
      omega
    · exact fun missed => absurd alerted (by rw [missed.1]; decide)
  · exact iff_of_true (classified_of_missed first quiet silent score)
      ⟨quiet, (BitVec.pos_iff_ne_zero _).mp some_breach⟩
  · constructor
    · intro classified
      have quiet : detectionTimestampNs = 0 := by
        by_contra alerted
        have triggered := classified.alert.mpr (caught_iff_alerted.mpr ((BitVec.pos_iff_ne_zero _).mpr alerted))
        rw [silent] at triggered
        cases triggered
      have zero := classified.otherwise (not_caught_of_quiet quiet) fun none_first => absent none_first.1
      exact absurd (score.symm.trans zero) one_ne_zero
    · intro missed
      exact absurd ⟨(BitVec.pos_iff_ne_zero _).mpr missed.2, missed.1⟩ loud

/-- Exactly the runs without breach and alert, those whose first breach has a timestamp and no
alert before it, and missed breaches of which one has a timestamp are classified correctly. -/
theorem classified_iff (libm : Libm F) (config : FdiaConfig F) (frames : List (FdiaTelemetryFrame F))
    (detectionTimestampNs : BitVec 64) :
    Classified config frames detectionTimestampNs (evaluateCausalDetection libm config frames detectionTimestampNs) ↔
      (firstBreach config frames = none ∧ detectionTimestampNs = 0) ∨
      (∃ breach, firstBreach config frames = some breach ∧ breach ≠ 0 ∧
        (detectionTimestampNs = 0 ∨ breach ≤ detectionTimestampNs)) ∨
      (firstBreach config frames = some 0 ∧ detectionTimestampNs = 0 ∧
        ∃ timestamp ∈ breaches config frames, timestamp ≠ 0) := by
  cases first : firstBreach config frames with
  | none =>
    rw [classified_of_none_iff libm first]
    simp
  | some breach =>
    by_cases stamped : breach = 0
    · subst stamped
      rw [classified_of_unstamped_iff libm first]
      simp
    · rw [classified_of_stamped_iff libm first stamped]
      constructor
      · intro alert
        exact .inr (.inl ⟨breach, rfl, stamped, alert⟩)
      · rintro (⟨absent, _⟩ | ⟨other, same, _, alert⟩ | ⟨zero, _⟩)
        · cases absent
        · obtain rfl := Option.some.inj same
          exact alert
        · exact absurd (Option.some.inj zero) stamped

end

private noncomputable def overheating : FdiaTelemetryFrame ℝ := { timestampNs := 5000000, physicalTrueValue := 130 }

private theorem overheating_first : firstBreach {} [overheating] = some 5000000 := by
  norm_num [firstBreach, overheating]

theorem classified_iff_caught :
    Classified {} [overheating] 7000000 (evaluateCausalDetection exact {} [overheating] 7000000) :=
  (classified_iff exact {} [overheating] 7000000).mpr (.inr (.inl ⟨5000000, overheating_first, by decide, by decide⟩))

/-- An alert 2 ms before the breach has the full score. -/
theorem early_alert_scored :
    ¬Classified {} [overheating] 3000000 (evaluateCausalDetection exact {} [overheating] 3000000) := by
  rw [classified_of_stamped_iff exact overheating_first (by decide)]
  decide

end SentinelLab.FdiaEngine
