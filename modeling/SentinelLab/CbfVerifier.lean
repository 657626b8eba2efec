import SentinelLab.Library.FloatingPoint

/-! `CbfVerifier`: the barrier condition over a trajectory. -/

namespace SentinelLab.CbfVerifier
open Library.FloatingPoint

variable {F : Type} [Add F] [Sub F] [Mul F] [LE F] [DecidableLE F] [LT F] [DecidableLT F] [OfScientific F]

structure CbfStatePoint (F : Type) [OfScientific F] where
  timestampSec : F := 0.0
  temperatureC : F := 0.0
  hBarrierVal : F := 0.0
  hDotVal : F := 0.0

structure CbfVerificationResult (F : Type) [OfScientific F] where
  isFormallySafe : Bool := true
  minBarrierMarginH : F := 0.0
  minCbfConditionVal : F := 0.0
  boundaryViolationsCount : Nat := 0
  verificationCertificate : String := ""

structure CbfConfig (F : Type) [OfScientific F] where
  maxSafeTempC : F := 120.0
  alphaGain : F := 0.5

structure Accumulators (F : Type) where
  minH : F
  minCondition : F
  violations : Nat

def verifyPoint (config : CbfConfig F) (accumulators : Accumulators F) (pt : CbfStatePoint F) : Accumulators F :=
  let cbfCond := pt.hDotVal + (config.alphaGain * pt.hBarrierVal)
  { minH := stdMin accumulators.minH pt.hBarrierVal
    minCondition := stdMin accumulators.minCondition cbfCond
    violations :=
      if pt.hBarrierVal < 0.0 ∨ cbfCond < 0.0 then accumulators.violations + 1 else accumulators.violations }

def verificationCertificate (libm : Libm F) (res : CbfVerificationResult F) : String :=
  "FORMAL CONTROL BARRIER FUNCTION (CBF) CERTIFICATE: " ++
  "Min Barrier Margin h(x)=" ++ libm.fixed 3 res.minBarrierMarginH ++ " (Safe: h >= 0) | " ++
  "Min Invariance Val (dh/dt + alpha*h)=" ++ libm.fixed 3 res.minCbfConditionVal ++ " | " ++
  "Boundary Violations=" ++ toString res.boundaryViolationsCount ++ " [" ++
  (if res.isFormallySafe then "\x1b[1;32m[VERIFIED] Safe Set C Forward-Invariant\x1b[0m"
    else "\x1b[1;31m[UNSAFE] Barrier Invariant Breached\x1b[0m") ++ "]"

def verifyTrajectory (libm : Libm F) (config : CbfConfig F) (trajectory : List (CbfStatePoint F)) :
    CbfVerificationResult F :=
  if trajectory.isEmpty then
    { isFormallySafe := false, verificationCertificate := "Trajectory is empty" }
  else
    let last := trajectory.foldl (verifyPoint config) ⟨1e9, 1e9, 0⟩
    let res : CbfVerificationResult F :=
      { minBarrierMarginH := last.minH
        minCbfConditionVal := last.minCondition
        boundaryViolationsCount := last.violations
        isFormallySafe := decide (last.violations = 0 ∧ 0.0 ≤ last.minH) }
    { res with verificationCertificate := verificationCertificate libm res }

/-- `dh/dt + alpha * h` -/
def cbfCondition (config : CbfConfig F) (pt : CbfStatePoint F) : F :=
  pt.hDotVal + (config.alphaGain * pt.hBarrierVal)

def Violates (config : CbfConfig F) (pt : CbfStatePoint F) : Prop :=
  pt.hBarrierVal < 0.0 ∨ cbfCondition config pt < 0.0

instance (config : CbfConfig F) (pt : CbfStatePoint F) : Decidable (Violates config pt) :=
  inferInstanceAs (Decidable (_ ∨ _))

omit [Sub F] [LE F] [DecidableLE F] in
theorem verifyPoint_eq (config : CbfConfig F) (accumulators : Accumulators F) (pt : CbfStatePoint F) :
    verifyPoint config accumulators pt =
      { minH := stdMin accumulators.minH pt.hBarrierVal
        minCondition := stdMin accumulators.minCondition (cbfCondition config pt)
        violations := if Violates config pt then accumulators.violations + 1 else accumulators.violations } := rfl

omit [Sub F] [LE F] [DecidableLE F] in
theorem foldl_verifyPoint (config : CbfConfig F) (trajectory : List (CbfStatePoint F))
    (accumulators : Accumulators F) :
    trajectory.foldl (verifyPoint config) accumulators =
      { minH := (trajectory.map (·.hBarrierVal)).foldl stdMin accumulators.minH
        minCondition := (trajectory.map (cbfCondition config)).foldl stdMin accumulators.minCondition
        violations := accumulators.violations + trajectory.countP fun pt => Violates config pt } := by
  induction trajectory generalizing accumulators with
  | nil => rfl
  | cons pt rest ih =>
    rw [List.foldl_cons, ih, List.countP_cons, verifyPoint_eq]
    simp only [List.map_cons, List.foldl_cons, decide_eq_true_eq, Accumulators.mk.injEq, true_and]
    split
    · omega
    · omega

omit [Sub F] in
theorem verifyTrajectory_fields (libm : Libm F) (config : CbfConfig F) {trajectory : List (CbfStatePoint F)}
    (nonempty : trajectory ≠ []) :
    let res := verifyTrajectory libm config trajectory
    let minH := (trajectory.map (·.hBarrierVal)).foldl stdMin 1e9
    let violations := trajectory.countP fun pt => Violates config pt
    res.minBarrierMarginH = minH ∧ res.boundaryViolationsCount = violations ∧
      res.isFormallySafe = decide (violations = 0 ∧ 0.0 ≤ minH) := by
  have whole : ¬trajectory.isEmpty = true := by
    rw [List.isEmpty_iff]
    exact nonempty
  simp only [verifyTrajectory, if_neg whole, foldl_verifyPoint, Nat.zero_add]
  exact ⟨trivial, trivial, trivial⟩

end SentinelLab.CbfVerifier
