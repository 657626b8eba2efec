import SentinelLab.Library.FloatingPoint
import SentinelLab.Library.Ranges

/-! `EvtEngine`: block maxima of the recorded latencies and the Gumbel bound fitted to them. -/

namespace SentinelLab.EvtEngine
open Library.FloatingPoint Library.Ranges

variable {F : Type} [Add F] [Sub F] [Mul F] [Div F] [Neg F] [LE F] [DecidableLE F] [OfScientific F]

structure EvtResult (F : Type) [OfScientific F] where
  valid : Bool := false
  meanLatencyNs : F := 0.0
  maxObservedLatencyNs : F := 0.0
  gumbelLocationMu : F := 0.0
  gumbelScaleSigma : F := 0.0
  p99LatencyNs : F := 0.0
  p999LatencyNs : F := 0.0
  p99999WcetBoundNs : F := 0.0
  deadlineSatisfied : Bool := true
  summaryText : String := ""

structure EvtConfig (F : Type) [OfScientific F] where
  blockSize : Nat := 1000
  confidenceLevel : F := 0.99999
  deadlineNs : F := 100000.0

/-- `*std::max_element`; `none` is the end of an empty range, dereferenced. -/
def maxElement : List Nat → Option Nat
  | [] => none
  | first :: rest => some (rest.foldl max first)

def extractBlockMaxima (libm : Libm F) (samples : List Nat) (blockSize : Nat) : Option (List F) :=
  if samples.isEmpty ∨ blockSize = 0 then some []
  else
    let numBlocks := samples.length / blockSize
    (List.range numBlocks).mapM fun i =>
      (maxElement ((samples.drop (i * blockSize)).take blockSize)).map libm.ofNat

/-- `std::accumulate` from `0.0`. -/
def accumulate (values : List F) : F := values.foldl (· + ·) 0.0

def calculateQuantile (libm : Libm F) (res : EvtResult F) (p : F) : F :=
  res.gumbelLocationMu - (res.gumbelScaleSigma * libm.log (-libm.log p))

def fitGumbel (libm : Libm F) (res : EvtResult F) (maxima : List F) : EvtResult F :=
  let maxMean := accumulate maxima / libm.ofNat maxima.length
  let varSum := maxima.foldl (fun varSum val => varSum + (val - maxMean) * (val - maxMean)) 0.0
  let maxVariance := varSum / libm.ofNat (maxima.length - 1)
  let stdDev := libm.sqrt maxVariance
  let gumbelScaleSigma := (stdDev * libm.sqrt 6.0) / 3.14159265358979323846
  { res with
    gumbelScaleSigma
    gumbelLocationMu := maxMean - (0.57721566490153286060 * gumbelScaleSigma) }

def summaryText (libm : Libm F) (res : EvtResult F) : String :=
  "EVT WCET Analysis: Mean=" ++ libm.fixed 2 res.meanLatencyNs ++ "ns | MaxObserved=" ++
  libm.fixed 2 res.maxObservedLatencyNs ++ "ns | Gumbel(mu=" ++ libm.fixed 2 res.gumbelLocationMu ++
  ", sigma=" ++ libm.fixed 2 res.gumbelScaleSigma ++ ") | p99.999% WCET=" ++
  libm.fixed 2 res.p99999WcetBoundNs ++ "ns [" ++
  (if res.deadlineSatisfied then "DEADLINE SATISFIED" else "DEADLINE BREACH") ++ "]"

/-- `none` is undefined behaviour of the source. -/
def calculateWcetBound (libm : Libm F) (config : EvtConfig F) (samples : List Nat) : Option (EvtResult F) :=
  if samples.length < config.blockSize then
    some { summaryText := "Insufficient samples for EVT estimation" }
  else do
    let maxObserved ← maxElement samples
    let res : EvtResult F :=
      { meanLatencyNs := accumulate (samples.map libm.ofNat) / libm.ofNat samples.length
        maxObservedLatencyNs := libm.ofNat maxObserved }
    let maxima ← extractBlockMaxima libm samples config.blockSize
    if maxima.length < 2 then
      some { res with summaryText := "Insufficient block maxima for Gumbel parameter fitting" }
    else
      let res := fitGumbel libm res maxima
      let res := { res with
        p99LatencyNs := calculateQuantile libm res 0.99
        p999LatencyNs := calculateQuantile libm res 0.999
        p99999WcetBoundNs := calculateQuantile libm res config.confidenceLevel }
      let res := { res with
        deadlineSatisfied := decide (res.p99999WcetBoundNs ≤ config.deadlineNs)
        valid := true }
      some { res with summaryText := summaryText libm res }

/-! ## When there is an estimate -/

theorem maxElement_isSome {samples : List Nat} (nonempty : samples ≠ []) : (maxElement samples).isSome := by
  cases samples with
  | nil => exact absurd rfl nonempty
  | cons first rest => rfl

theorem extractBlockMaxima_eq {N : Type} (libm : Libm N) (samples : List Nat) {blockSize : Nat}
    (positive : 0 < blockSize) :
    extractBlockMaxima libm samples blockSize =
      some ((List.range (samples.length / blockSize)).map fun i =>
        libm.ofNat ((maxElement ((samples.drop (i * blockSize)).take blockSize)).getD 0)) := by
  unfold extractBlockMaxima
  by_cases empty : samples = []
  · subst empty
    simp
  rw [if_neg (by simp [empty, positive.ne'])]
  apply mapM_eq_map
  intro i member
  have inside : (i + 1) * blockSize ≤ samples.length :=
    (Nat.mul_le_mul_right blockSize (List.mem_range.mp member)).trans (Nat.div_mul_le_self _ _)
  have whole : (samples.drop (i * blockSize)).take blockSize ≠ [] := by
    apply List.ne_nil_of_length_pos
    rw [List.length_take, List.length_drop]
    rw [Nat.add_mul, Nat.one_mul] at inside
    omega
  obtain ⟨largest, found⟩ := Option.isSome_iff_exists.mp (maxElement_isSome whole)
  simp [found]

theorem extractBlockMaxima_length {N : Type} (libm : Libm N) (samples : List Nat) {blockSize : Nat}
    (positive : 0 < blockSize) :
    ∃ maxima, extractBlockMaxima libm samples blockSize = some maxima ∧
      maxima.length = samples.length / blockSize :=
  ⟨_, extractBlockMaxima_eq libm samples positive, by simp⟩

theorem calculateWcetBound_cases (libm : Libm F) (config : EvtConfig F) {samples : List Nat}
    (positive : 0 < config.blockSize) (enough : config.blockSize ≤ samples.length) :
    ∃ res, calculateWcetBound libm config samples = some res ∧
      ((samples.length / config.blockSize < 2 ∧ res.valid = false ∧ res.deadlineSatisfied = true) ∨
        (2 ≤ samples.length / config.blockSize ∧ res.valid = true ∧
          res.deadlineSatisfied = decide (res.p99999WcetBoundNs ≤ config.deadlineNs))) := by
  have nonempty : samples ≠ [] := by
    intro empty
    subst empty
    exact absurd enough (Nat.not_le_of_lt positive)
  obtain ⟨maxObserved, observed⟩ := Option.isSome_iff_exists.mp (maxElement_isSome nonempty)
  obtain ⟨maxima, extracted, blocks⟩ := extractBlockMaxima_length libm samples positive
  unfold calculateWcetBound
  rw [if_neg (Nat.not_lt_of_le enough), observed, extracted]
  simp only [Option.bind_eq_bind, Option.bind_some, blocks]
  by_cases few : samples.length / config.blockSize < 2
  · rw [if_pos few]
    exact ⟨_, rfl, Or.inl ⟨few, rfl, rfl⟩⟩
  · rw [if_neg few]
    exact ⟨_, rfl, Or.inr ⟨Nat.le_of_not_lt few, rfl, rfl⟩⟩

end SentinelLab.EvtEngine
