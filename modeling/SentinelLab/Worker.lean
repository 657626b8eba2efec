import SentinelLab.Benchmark
import SentinelLab.EbpfFilter
import SentinelLab.Library.Transition

/-! The worker thread of `main.cpp`: each event that leaves the queue is scored, mitigated and
recorded. The score, the readings of the clock and the answer of the kernel come from outside. -/

namespace SentinelLab.Worker
open Inet EbpfFilter Benchmark Library.Transition Library.SinglePrecision

/-- `0.85f` -/
def dropThreshold : Binary32 := 0x3F59999A

/-- `0.65f` -/
def logThreshold : Binary32 := 0x3F266666

variable (inetPton : String → Option Key)

/-- The mitigation branches: what they do to the filter and which action they note. -/
def mitigate (world : World) (ev : BenchmarkEvent) (succeeds : Bool) : World × MitigationAction :=
  if ge ev.anomalyScore dropThreshold then
    ((blockIp inetPton world ev.sourceIp succeeds).1, .kernelDropped)
  else if ge ev.anomalyScore logThreshold then (world, .logged)
  else (world, .passed)

/-- From `predict_anomaly` up to `record_event`. -/
def evaluate (world : World) (ev : BenchmarkEvent) (anomalyScore : Binary32) (tInferDone tMitigated : Int)
    (succeeds : Bool) : World × BenchmarkEvent :=
  let ev := { ev with anomalyScore, tInferDone }
  let mitigated := mitigate inetPton world ev succeeds
  (mitigated.1,
    { ev with action := mitigated.2, tMitigated, totalLatencyUs := (tMitigated - ev.tIngest : Int) / 1000 })

structure Pipeline where
  world : World
  benchmarker : Benchmarker

structure Round where
  event : BenchmarkEvent
  anomalyScore : Binary32
  tInferDone : Int
  tMitigated : Int
  succeeds : Bool
  deriving DecidableEq, Repr

def Round.evaluate (round : Round) (world : World) : World × BenchmarkEvent :=
  Worker.evaluate inetPton world round.event round.anomalyScore round.tInferDone round.tMitigated round.succeeds

/-- The observation is the event that is recorded. -/
def step (state : Pipeline) (round : Round) : Option (Pipeline × BenchmarkEvent) :=
  let evaluated := round.evaluate inetPton state.world
  some (⟨evaluated.1, recordEvent state.benchmarker evaluated.2⟩, evaluated.2)

def machine : Machine Pipeline Round BenchmarkEvent := ⟨step inetPton⟩

/-! ## One evaluation -/

def actionFor (anomalyScore : Binary32) : MitigationAction :=
  if ge anomalyScore dropThreshold then .kernelDropped
  else if ge anomalyScore logThreshold then .logged
  else .passed

section
variable (world : World) (ev : BenchmarkEvent) (anomalyScore : Binary32) (tInferDone tMitigated : Int)
  (succeeds : Bool)

@[simp] theorem evaluate_sourceIp :
    (evaluate inetPton world ev anomalyScore tInferDone tMitigated succeeds).2.sourceIp = ev.sourceIp := rfl

theorem evaluate_action :
    (evaluate inetPton world ev anomalyScore tInferDone tMitigated succeeds).2.action =
      actionFor anomalyScore := by
  unfold evaluate mitigate actionFor
  dsimp only
  split
  · rfl
  · split
    · rfl
    · rfl

theorem evaluate_dropped_iff :
    (evaluate inetPton world ev anomalyScore tInferDone tMitigated succeeds).2.action = .kernelDropped ↔
      ge anomalyScore dropThreshold = true := by
  rw [evaluate_action]
  unfold actionFor
  by_cases high : ge anomalyScore dropThreshold = true
  · simp [high]
  · by_cases middle : ge anomalyScore logThreshold = true
    · simp [high, middle]
    · simp [high, middle]

theorem evaluate_world_of_high (high : ge anomalyScore dropThreshold = true) :
    (evaluate inetPton world ev anomalyScore tInferDone tMitigated succeeds).1 =
      (blockIp inetPton world ev.sourceIp succeeds).1 := by
  simp [evaluate, mitigate, high]

theorem evaluate_world_of_low (low : ge anomalyScore dropThreshold = false) :
    (evaluate inetPton world ev anomalyScore tInferDone tMitigated succeeds).1 = world := by
  by_cases middle : ge anomalyScore logThreshold = true
  · simp [evaluate, mitigate, low, middle]
  · simp [evaluate, mitigate, low, middle]

end

theorem Round.blockedIps_subset (round : Round) (world : World) :
    world.harness.blockedIps ⊆ (round.evaluate inetPton world).1.harness.blockedIps := by
  unfold Round.evaluate
  by_cases high : ge round.anomalyScore dropThreshold = true
  · rw [evaluate_world_of_high inetPton world _ _ _ _ _ high]
    exact blockedIps_subset_blockIp inetPton world round.event.sourceIp round.succeeds
  · rw [evaluate_world_of_low inetPton world _ _ _ _ _ (by simpa using high)]

/-! ## Recorded drops -/

/-- For an event that will be recorded as dropped: its source is listed already, or it can be
read, the map is open and the kernel grants the insertion. -/
def Granted (state : Pipeline) (round : Round) : Prop :=
  ge round.anomalyScore dropThreshold = true →
    round.event.sourceIp ∈ state.world.harness.blockedIps ∨
      ((inetPton round.event.sourceIp).isSome ∧ state.world.openMap.isSome ∧ round.succeeds = true)

/-- The event that is recorded as dropped has a listed source at that moment. -/
def DropIsBlocked (entry : Entry Pipeline Round BenchmarkEvent) : Prop :=
  entry.obs.action = .kernelDropped → entry.obs.sourceIp ∈ entry.after.world.harness.blockedIps

/-- The positives of the metrics are the labelled events with a listed source among those
recorded as dropped. -/
def CountsBlocked (state : Pipeline) : Prop :=
  ∀ testDurationSeconds : ℚ,
    (computeMetrics state.benchmarker testDurationSeconds).truePositives +
        (computeMetrics state.benchmarker testDurationSeconds).falsePositives =
      state.benchmarker.recordedEvents.countP fun ev =>
        (ev.groundTruthLabel = 1 ∨ ev.groundTruthLabel = 0) ∧ ev.action = .kernelDropped ∧
          ev.sourceIp ∈ state.world.harness.blockedIps

variable {inetPton}

theorem step_eq_some {state next : Pipeline} {round : Round} {ev : BenchmarkEvent}
    (taken : step inetPton state round = some (next, ev)) :
    next = ⟨(round.evaluate inetPton state.world).1,
      recordEvent state.benchmarker (round.evaluate inetPton state.world).2⟩ ∧
      ev = (round.evaluate inetPton state.world).2 := by
  simpa only [step, Option.some.injEq, Prod.mk.injEq, eq_comm] using taken

theorem step_dropIsBlocked_iff {state next : Pipeline} {round : Round} {ev : BenchmarkEvent}
    (taken : step inetPton state round = some (next, ev)) :
    DropIsBlocked ⟨state, round, ev, next⟩ ↔ Granted inetPton state round := by
  rcases step_eq_some taken with ⟨rfl, rfl⟩
  unfold DropIsBlocked Granted Round.evaluate
  rw [evaluate_dropped_iff]
  apply imp_congr_right
  intro high
  rw [evaluate_sourceIp, evaluate_world_of_high inetPton _ _ _ _ _ _ high]
  exact mem_blockIp_iff inetPton state.world round.event.sourceIp round.succeeds

theorem countsBlocked_of_listed {state : Pipeline} (paired : state.benchmarker.Paired)
    (listed : ∀ ev ∈ state.benchmarker.recordedEvents, ev.action = .kernelDropped →
      ev.sourceIp ∈ state.world.harness.blockedIps) : CountsBlocked state := by
  intro testDurationSeconds
  have cells := computeMetrics_confusionMatrix paired testDurationSeconds
  have positives := congrArg ConfusionMatrix.truePositives cells
  have negatives := congrArg ConfusionMatrix.falsePositives cells
  simp only [BenchmarkMetrics.confusionMatrix, matrixOf] at positives negatives
  rw [positives, negatives]
  generalize state.benchmarker.recordedEvents = events at listed
  induction events with
  | nil => rfl
  | cons ev events ih =>
    have rest := ih fun other member => listed other (List.mem_cons_of_mem ev member)
    have first := listed ev List.mem_cons_self
    simp only [cell, List.countP_cons] at rest ⊢
    by_cases dropped : ev.action = .kernelDropped
    · by_cases attack : ev.groundTruthLabel = 1
      · simp [attack, dropped, first dropped] at rest ⊢
        omega
      · by_cases benign : ev.groundTruthLabel = 0
        · simp [benign, dropped, first dropped] at rest ⊢
          omega
        · simpa [attack, benign] using rest
    · simpa [dropped] using rest

theorem run_paired {world : World} {trace : List (Entry Pipeline Round BenchmarkEvent)} {final : Pipeline}
    (run : Run (machine inetPton) ⟨world, {}⟩ trace final) : final.benchmarker.Paired := by
  have preserved (state : Pipeline) (round : Round) (ev : BenchmarkEvent) (next : Pipeline)
      (paired : state.benchmarker.Paired) (taken : step inetPton state round = some (next, ev)) :
      next.benchmarker.Paired := by
    rcases step_eq_some taken with ⟨rfl, rfl⟩
    exact paired.recordEvent _
  exact run.invariant (fun state => state.benchmarker.Paired) preserved rfl

theorem recorded_drops_listed {world : World} {trace : List (Entry Pipeline Round BenchmarkEvent)}
    {final : Pipeline} (run : Run (machine inetPton) ⟨world, {}⟩ trace final)
    (blocked : ∀ entry ∈ trace, DropIsBlocked entry) :
    ∀ ev ∈ final.benchmarker.recordedEvents, ev.action = .kernelDropped →
      ev.sourceIp ∈ final.world.harness.blockedIps := by
  induction run with
  | nil => simp
  | snoc earlier taken ih =>
    intro ev recorded dropped
    have last := blocked _ (List.mem_append_right _ (List.mem_singleton_self _))
    rcases step_eq_some taken with ⟨rfl, rfl⟩
    rcases List.mem_append.mp recorded with before | now
    · have listed := ih (fun entry member => blocked entry (List.mem_append_left _ member)) ev before dropped
      exact Round.blockedIps_subset inetPton _ _ listed
    · rw [List.mem_singleton] at now
      subst now
      exact last dropped

/-- Over every run of the worker, whatever world `load_and_attach` left and whatever the kernel
answers: the recorded drops are blocked in user space exactly if each of them was granted, and
then the positives of the metrics count blocked sources only. -/
theorem recorded_drops_blocked_iff_granted (inetPton : String → Option Key) (world : World) (final : Pipeline)
    (trace : List (Entry Pipeline Round BenchmarkEvent))
    (run : Run (machine inetPton) ⟨world, {}⟩ trace final) :
    ((∀ entry ∈ trace, DropIsBlocked entry) ↔ ∀ entry ∈ trace, Granted inetPton entry.before entry.label) ∧
      ((∀ entry ∈ trace, Granted inetPton entry.before entry.label) → CountsBlocked final) := by
  have blocked_iff : (∀ entry ∈ trace, DropIsBlocked entry) ↔
      ∀ entry ∈ trace, Granted inetPton entry.before entry.label := by
    apply run.all_iff (fun _ => True) _ _ trivial
    · intro state round ev next _ taken
      exact step_dropIsBlocked_iff taken
    · intro state round ev next _ _ _
      exact trivial
  refine ⟨blocked_iff, ?_⟩
  intro granted
  have all_blocked := blocked_iff.mpr granted
  exact countsBlocked_of_listed (run_paired run) (recorded_drops_listed run all_blocked)

private def attack : Round := ⟨{ sourceIp := dottedQuad.ntop ⟨10, 0, 0, 1⟩, groundTruthLabel := 1 }, 0x3F800000, 10, 20, true⟩

private theorem taken (state : Pipeline) :
    (machine (dottedQuad.key .little)).step state attack =
      some (⟨(attack.evaluate (dottedQuad.key .little) state.world).1, recordEvent state.benchmarker
        (attack.evaluate (dottedQuad.key .little) state.world).2⟩,
        (attack.evaluate (dottedQuad.key .little) state.world).2) := rfl

private def harness : EBPFFilterHarness := EBPFFilterHarness.create (fun _ => 2) "ens33"

theorem recorded_drops_blocked_iff_granted_attack :
    ∃ world attached, loadAndAttach ⟨harness, ⟨fun _ => none, none⟩⟩ (.loaded 5 (some 3) true) =
        some (world, attached) ∧
      ∃ trace final, Run (machine (dottedQuad.key .little)) ⟨world, {}⟩ trace final ∧
        trace ≠ [] ∧ ∀ entry ∈ trace, DropIsBlocked entry := by
  obtain ⟨world, loaded, isOpen⟩ : ∃ world,
      loadAndAttach ⟨harness, ⟨fun _ => none, none⟩⟩ (.loaded 5 (some 3) true) = some (world, true) ∧
        world.openMap = some KernelMap.empty := by
    refine ⟨_, rfl, ?_⟩
    simp [World.openMap, findMapFd]
  have run : Run (machine (dottedQuad.key .little)) ⟨world, {}⟩ _ _ := Run.single (taken ⟨world, {}⟩)
  refine ⟨world, true, loaded, _, _, run, by simp, ?_⟩
  apply (recorded_drops_blocked_iff_granted (dottedQuad.key .little) world _ _ run).1.mpr
  intro entry member _
  rw [List.mem_singleton.mp member]
  exact Or.inr ⟨by simp [attack], by simp [isOpen], rfl⟩

/-- The object file is not found, and the drop is recorded all the same. -/
theorem recorded_drop_not_blocked :
    ∃ world attached, loadAndAttach ⟨harness, ⟨fun _ => none, none⟩⟩ .openFailed = some (world, attached) ∧
      ∃ trace final, Run (machine (dottedQuad.key .little)) ⟨world, {}⟩ trace final ∧
        ∃ entry ∈ trace, entry.obs.action = .kernelDropped ∧
          entry.obs.sourceIp ∉ entry.after.world.harness.blockedIps := by
  let world : World := ⟨harness, ⟨fun _ => none, none⟩⟩
  refine ⟨world, false, rfl, _, _, Run.single (taken ⟨world, {}⟩), _, List.mem_singleton_self _, ?_, ?_⟩
  · apply (evaluate_dropped_iff (dottedQuad.key .little) world attack.event attack.anomalyScore
      attack.tInferDone attack.tMitigated attack.succeeds).mpr
    decide
  · change attack.event.sourceIp ∉ (attack.evaluate (dottedQuad.key .little) world).1.harness.blockedIps
    unfold Round.evaluate
    rw [evaluate_world_of_high (dottedQuad.key .little) world _ _ _ _ _ (by decide), mem_blockIp_iff]
    simp [world, World.openMap, harness, EBPFFilterHarness.create]

end SentinelLab.Worker
