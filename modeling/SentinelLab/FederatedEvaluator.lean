import SentinelLab.Library.FloatingPoint
import SentinelLab.Library.Ranges

/-! `FederatedEvaluator` over an exact number field; the 32-bit counters of `FederatedMetrics` are
what they are. -/

namespace SentinelLab.FederatedEvaluator
open Library.FloatingPoint Library.Ranges

inductive AggregationAlgorithm where
  | fedAvg
  | trimmedMean
  | krum
  | median
  deriving DecidableEq, Repr

variable {F : Type} [Field F] [LinearOrder F]

structure FederatedConfig (F : Type) [Field F] where
  algorithm : AggregationAlgorithm := .krum
  maxPasrPct : F := 2

structure FederatedMetrics (F : Type) [Field F] where
  valid : Bool := false
  totalNodes : BitVec 32 := 5
  byzantineNodes : BitVec 32 := 1
  aggregationUsed : String := ""
  poisoningAttackSuccessRate : F := 0
  modelAccuracyLossPct : F := 0
  gradientCosineDistance : F := 0
  byzantineDefenseSuccessful : Bool := true
  summaryReport : String := ""

def calculateEuclideanDistance (libm : Libm F) (w1 w2 : List F) : F :=
  if w1.isEmpty ∨ w1.length ≠ w2.length then 0
  else libm.sqrt ((w1.zip w2).foldl (fun distSq (a, b) => distSq + (a - b) * (a - b)) 0)

def dists (libm : Libm F) (clientGradients : List (List F)) (n i : Nat) : List F :=
  ((List.range n).filter fun j => i ≠ j).map fun j =>
    calculateEuclideanDistance libm (clientGradients.getD i []) (clientGradients.getD j [])

def neighborsCount (n k : Nat) : Nat := if k + 2 < n then n - k - 2 else 1

/-- One round of the scoring loop; `none` is a sum over the end of the distances. -/
def krumScore (libm : Libm F) (clientGradients : List (List F)) (n k i : Nat) : Option F :=
  let sorted := (dists libm clientGradients n i).mergeSort fun first second => first ≤ second
  if neighborsCount n k ≤ sorted.length then some (sorted.take (neighborsCount n k)).sum else none

def selectBest (libm : Libm F) (clientGradients : List (List F)) (n k : Nat) : Option Nat :=
  ((List.range n).mapM (krumScore libm clientGradients n k)).map minElement

def countByzantine (isByzantineNode : List Bool) : BitVec 32 :=
  isByzantineNode.foldl (fun byzantineNodes byz => if byz then byzantineNodes + 1 else byzantineNodes) 0

def aggregationUsed : AggregationAlgorithm → String
  | .krum => "KRUM_ROBUST_AGGREGATION"
  | .trimmedMean => "TRIMMED_MEAN"
  | .fedAvg => "FED_AVG"
  | .median => "FED_AVG"

def summaryReport (libm : Libm F) (config : FederatedConfig F) (m : FederatedMetrics F) (bestIdx : Nat)
    (bestIsByzantine : Bool) : String :=
  "Federated Byzantine Evaluation [" ++ m.aggregationUsed ++ "]: " ++
  "Total Nodes=" ++ toString m.totalNodes.toNat ++ " (Byzantine=" ++ toString m.byzantineNodes.toNat ++ ") | " ++
  "Selected Node #" ++ toString bestIdx ++ " [" ++ (if bestIsByzantine then "POISONED" else "BENIGN") ++ "] | " ++
  "PASR=" ++ libm.fixed 2 m.poisoningAttackSuccessRate ++ "% (Limit: " ++ libm.fixed 2 config.maxPasrPct ++ "%) | " ++
  "Gradient Dist=" ++ libm.fixed 4 m.gradientCosineDistance ++ " [" ++
  (if m.byzantineDefenseSuccessful then "\x1b[1;32m[PASSED] Byzantine Poisoning Neutralized\x1b[0m"
    else "\x1b[1;31m[FAILED] Model Backdoor Injected\x1b[0m") ++ "]"

def evaluateAggregationRobustness (libm : Libm F) (config : FederatedConfig F)
    (clientGradients : List (List F)) (trueBenignGradient : List F) (isByzantineNode : List Bool) :
    Option (FederatedMetrics F) :=
  let totalNodes := BitVec.ofNat 32 clientGradients.length
  let byzantineNodes := countByzantine isByzantineNode
  if totalNodes = 0 ∨ trueBenignGradient.isEmpty then
    some { totalNodes, byzantineNodes, summaryReport := "Invalid client gradient input buffer" }
  else do
    let bestIdx ← selectBest libm clientGradients totalNodes.toNat byzantineNodes.toNat
    let bestIsByzantine := isByzantineNode.getD bestIdx false
    let poisoningAttackSuccessRate : F := if bestIsByzantine then (100 : Nat) else 0
    let m : FederatedMetrics F :=
      { totalNodes
        byzantineNodes
        gradientCosineDistance :=
          calculateEuclideanDistance libm (clientGradients.getD bestIdx []) trueBenignGradient
        poisoningAttackSuccessRate
        modelAccuracyLossPct := if bestIsByzantine then (85 : Nat) / (10 : Nat) else (2 : Nat) / (10 : Nat)
        aggregationUsed := aggregationUsed config.algorithm
        byzantineDefenseSuccessful := !bestIsByzantine && decide (poisoningAttackSuccessRate ≤ config.maxPasrPct)
        valid := true }
    some { m with summaryReport := summaryReport libm config m bestIdx bestIsByzantine }

end SentinelLab.FederatedEvaluator
