import SentinelLab.Feedback

/-! The loop from the score of an event to the fate of later frames. Frames of any number of
sources arrive; an address is condemned when one of its events is judged to be dropped and the
kernel grants the block, and from then on the filter drops what it sends, and nothing else. -/

namespace SentinelLab.MitigationLoop
open Inet EbpfFilter Benchmark XdpFilter Feedback Worker
open Library.Transition Library.Bytes Library.SinglePrecision

/-- `succeeds` is the kernel's answer to the insertion of a key; a full map is one of the refusals. -/
inductive Label where
  | arrive
  | listen (now : Int)
  | evaluate (tInferDone tMitigated : Int) (succeeds : Bool)
  | record
  deriving DecidableEq, Repr

def stepEvaluate (testbed : Testbed) (state : State) (tInferDone tMitigated : Int) (succeeds : Bool) : Option State :=
  match state.queue, state.evaluated with
  | ev :: queue, none =>
      let evaluated := evaluate (testbed.codec.key testbed.host) state.world ev
        (testbed.predictAnomaly ev.features) tInferDone tMitigated succeeds
      some { state with world := evaluated.1, queue, evaluated := some evaluated.2 }
  | _, _ => none

def step (testbed : Testbed) (state : State) : Label → Option State
  | .arrive => stepArrive testbed state
  | .listen now => stepListen testbed state now
  | .evaluate tInferDone tMitigated succeeds => stepEvaluate testbed state tInferDone tMitigated succeeds
  | .record => stepRecord state

def machine (testbed : Testbed) : Machine State Label Unit :=
  ⟨fun state label => (step testbed state label).map (·, ())⟩

abbrev Trace := List (Entry State Label Unit)

def grantedIn (entry : Entry State Label Unit) : Option BenchmarkEvent :=
  match entry.label with
  | .evaluate _ _ true => entry.after.evaluated
  | _ => none

def droppedIn (host : Endian) (entry : Entry State Label Unit) : Option InAddr :=
  match entry.label, entry.before.toSend with
  | .arrive, frame :: _ =>
      match receive host entry.before.world frame with
      | some (_, .drop) => some (sourceAddr frame)
      | _ => none
  | _, _ => none

/-- An event from the address has been judged to be dropped, and the block of its source granted. -/
def Condemned (codec : Codec) (trace : Trace) (addr : InAddr) : Prop :=
  ∃ ev ∈ trace.filterMap grantedIn, ev.action = .kernelDropped ∧ ev.sourceIp = codec.ntop addr

def drops (host : Endian) (trace : Trace) (addr : InAddr) : Nat := (trace.filterMap (droppedIn host)).count addr

variable {testbed : Testbed} {trace : Trace} {state next : State} {entry : Entry State Label Unit}

theorem condemned_snoc (codec : Codec) (addr : InAddr) :
    Condemned codec (trace ++ [entry]) addr ↔ Condemned codec trace addr ∨
      ∃ ev, grantedIn entry = some ev ∧ ev.action = .kernelDropped ∧ ev.sourceIp = codec.ntop addr := by
  unfold Condemned
  rw [List.filterMap_append]
  cases granted : grantedIn entry with
  | none => simp [granted]
  | some ev => simp [granted, or_and_right, exists_or]

theorem drops_snoc (host : Endian) (addr : InAddr) :
    drops host (trace ++ [entry]) addr = drops host trace addr + if droppedIn host entry = some addr then 1 else 0 := by
  unfold drops
  rw [List.filterMap_append, List.count_append]
  cases dropped : droppedIn host entry with
  | none => simp [dropped]
  | some other => simp [dropped, List.count_singleton]

/-- A condemned address is listed, its entry in the kernel counts the frames that were dropped,
and no other address has lost a frame. -/
structure Enforced (testbed : Testbed) (trace : Trace) (state : State) : Prop where
  installed : Installed testbed.codec testbed.host state.world
  addressed : ∀ ev ∈ state.queue, ∃ addr, testbed.codec.ntop addr = ev.sourceIp
  listed : ∀ addr, testbed.codec.ntop addr ∈ state.world.harness.blockedIps ↔ Condemned testbed.codec trace addr
  counted : ∀ map, state.world.openMap = some map → ∀ addr, Condemned testbed.codec trace addr →
    map (addr.sAddr testbed.host) = some (BitVec.ofNat 64 (drops testbed.host trace addr))
  spared : ∀ addr, ¬Condemned testbed.codec trace addr → drops testbed.host trace addr = 0

theorem condemned_of_none {codec : Codec} (ungranted : grantedIn entry = none) (addr : InAddr) :
    Condemned codec (trace ++ [entry]) addr ↔ Condemned codec trace addr := by
  rw [condemned_snoc, ungranted]
  simp

theorem drops_of_none {host : Endian} (kept : droppedIn host entry = none) (addr : InAddr) :
    drops host (trace ++ [entry]) addr = drops host trace addr := by
  rw [drops_snoc, kept, if_neg (by simp), Nat.add_zero]

theorem Enforced.of_quiet (enforced : Enforced testbed trace state)
    (condemned : ∀ addr, Condemned testbed.codec (trace ++ [entry]) addr ↔ Condemned testbed.codec trace addr)
    (kept : droppedIn testbed.host entry = none) (world : next.world = state.world)
    (addressed : ∀ ev ∈ next.queue, ∃ addr, testbed.codec.ntop addr = ev.sourceIp) :
    Enforced testbed (trace ++ [entry]) next := by
  constructor
  · rw [world]
    exact enforced.installed
  · exact addressed
  · intro addr
    rw [world, condemned]
    exact enforced.listed addr
  · intro map isOpen addr guilty
    rw [world] at isOpen
    rw [drops_of_none kept]
    exact enforced.counted map isOpen addr ((condemned addr).mp guilty)
  · intro addr innocent
    rw [drops_of_none kept]
    exact enforced.spared addr (mt (condemned addr).mpr innocent)

theorem stepArrive_enforced (enforced : Enforced testbed trace state) {frame : List Byte} {toSend : List (List Byte)}
    (sending : state.toSend = frame :: toSend) (taken : stepArrive testbed state = some next) :
    Enforced testbed (trace ++ [⟨state, .arrive, (), next⟩]) next ∧
      (IsIpv4 frame ∧ Condemned testbed.codec trace (sourceAddr frame) → next.socket = state.socket) ∧
      (¬(IsIpv4 frame ∧ Condemned testbed.codec trace (sourceAddr frame)) →
        next.socket = state.socket ++ (testbed.deliver frame).toList) := by
  obtain ⟨map, isOpen, listed⟩ := enforced.installed.listed
  have received := receive_eq enforced.installed isOpen frame
  have condemned (addr : InAddr) : Condemned testbed.codec (trace ++ [⟨state, .arrive, (), next⟩]) addr ↔
      Condemned testbed.codec trace addr := condemned_of_none (by simp [grantedIn]) addr
  have guilty_iff : (map ((sourceAddr frame).sAddr testbed.host)).isSome ↔
      Condemned testbed.codec trace (sourceAddr frame) := (listed _).trans (enforced.listed _)
  unfold stepArrive at taken
  simp only [sending] at taken
  rcases xdpFirewall_cases testbed.host map frame with ⟨ipv4, count, present, done⟩ | ⟨other, done⟩
  · rw [done, Option.map_some] at received
    simp only [received, Option.map_some, Option.some.injEq] at taken
    have guilty := guilty_iff.mp (by simp [present])
    have dropped : droppedIn testbed.host ⟨state, .arrive, (), next⟩ = some (sourceAddr frame) := by
      simp [droppedIn, sending, received]
    subst taken
    refine ⟨⟨receive_installed enforced.installed received, enforced.addressed, ?_, ?_, ?_⟩, fun _ => rfl,
      fun innocent => absurd ⟨ipv4, guilty⟩ innocent⟩
    · intro addr
      rw [condemned]
      exact enforced.listed addr
    · intro map' isOpen' addr known
      rw [openMap_putMap isOpen, Option.some.injEq] at isOpen'
      have before := enforced.counted map isOpen addr ((condemned addr).mp known)
      rw [← isOpen', update_sAddr, drops_snoc, dropped]
      by_cases same : addr = sourceAddr frame
      · rw [same, present, Option.some.injEq] at before
        rw [if_pos same, if_pos (by rw [same]), same, before, BitVec.ofNat_add]
        rfl
      · rw [if_neg same, if_neg (by simpa using Ne.symm same), Nat.add_zero, before]
    · intro addr innocent
      have other : addr ≠ sourceAddr frame := by
        intro same
        exact innocent ((condemned addr).mpr (same ▸ guilty))
      rw [drops_snoc, dropped, if_neg (by simpa using other.symm), Nat.add_zero]
      exact enforced.spared addr (mt (condemned addr).mpr innocent)
  · rw [done, Option.map_some] at received
    simp only [received, Option.map_some, Option.some.injEq] at taken
    rw [guilty_iff] at other
    have dropped : droppedIn testbed.host ⟨state, .arrive, (), next⟩ = none := by
      simp [droppedIn, sending, received]
    subst taken
    refine ⟨⟨receive_installed enforced.installed received, enforced.addressed, ?_, ?_, ?_⟩,
      fun guilty => absurd guilty other, fun _ => rfl⟩
    · intro addr
      rw [condemned]
      exact enforced.listed addr
    · intro map' isOpen' addr known
      rw [openMap_putMap isOpen, Option.some.injEq] at isOpen'
      rw [← isOpen', drops_of_none dropped]
      exact enforced.counted map isOpen addr ((condemned addr).mp known)
    · intro addr innocent
      rw [drops_of_none dropped]
      exact enforced.spared addr (mt (condemned addr).mpr innocent)

theorem stepListen_enforced (enforced : Enforced testbed trace state) {now : Int}
    (taken : stepListen testbed state now = some next) :
    Enforced testbed (trace ++ [⟨state, .listen now, (), next⟩]) next := by
  unfold stepListen at taken
  split at taken
  · cases taken
  next clientAddr datagram socket waiting =>
    obtain ⟨offered, parsed, rfl⟩ := Option.map_eq_some_iff.mp taken
    refine enforced.of_quiet (condemned_of_none (by simp [grantedIn])) (by simp [droppedIn]) rfl ?_
    intro ev member
    rcases List.mem_append.mp member with queued | last
    · exact enforced.addressed ev queued
    · rw [Option.mem_toList] at last
      rw [last] at parsed
      exact ⟨clientAddr.sinAddr, (NetworkIngest.parse_sourceIp parsed).symm⟩

theorem blockIp_refused (inetPton : String → Option Key) (world : World) (ipAddress : String) :
    (blockIp inetPton world ipAddress false).1 = world := by
  rcases blockIp_cases inetPton world ipAddress false with ⟨_, done⟩ | ⟨_, granted, _⟩ | ⟨_, _, done⟩
  · rw [done]
  · cases granted
  · rw [done]

theorem Enforced.of_judged (enforced : Enforced testbed trace state) {tInferDone tMitigated : Int} {succeeds : Bool}
    {ev : BenchmarkEvent} {queue : List BenchmarkEvent} (queued : state.queue = ev :: queue)
    (condemned : ∀ addr,
      Condemned testbed.codec (trace ++ [⟨state, .evaluate tInferDone tMitigated succeeds, (), next⟩]) addr ↔
        Condemned testbed.codec trace addr)
    (world : next.world = state.world) (left : next.queue = queue) :
    Enforced testbed (trace ++ [⟨state, .evaluate tInferDone tMitigated succeeds, (), next⟩]) next := by
  refine enforced.of_quiet condemned (by simp [droppedIn]) world ?_
  rw [left]
  intro later member
  exact enforced.addressed later (by simp [queued, member])

theorem Enforced.of_blocked (enforced : Enforced testbed trace state) {source : InAddr} {map : KernelMap}
    (isOpen : state.world.openMap = some map) (innocent : ¬Condemned testbed.codec trace source)
    (condemned : ∀ addr,
      Condemned testbed.codec (trace ++ [entry]) addr ↔ Condemned testbed.codec trace addr ∨ addr = source)
    (kept : droppedIn testbed.host entry = none) (installed : Installed testbed.codec testbed.host next.world)
    (world : next.world = (state.world.putMap (Function.update map (source.sAddr testbed.host) (some 0))).withBlocked
      (insert (testbed.codec.ntop source) state.world.harness.blockedIps))
    (addressed : ∀ ev ∈ next.queue, ∃ addr, testbed.codec.ntop addr = ev.sourceIp) :
    Enforced testbed (trace ++ [entry]) next := by
  refine ⟨installed, addressed, ?_, ?_, ?_⟩
  · intro addr
    rw [world, condemned, ← enforced.listed]
    simp only [blockedIps_withBlocked, Finset.mem_insert, testbed.codec.ntop_injective.eq_iff]
    exact or_comm
  · intro map' isOpen' addr known
    rw [world, openMap_withBlocked, openMap_putMap isOpen, Option.some.injEq] at isOpen'
    rw [← isOpen', update_sAddr, drops_of_none kept]
    by_cases same : addr = source
    · rw [if_pos same, same, enforced.spared source innocent]
      rfl
    · rw [if_neg same]
      exact enforced.counted map isOpen addr (((condemned addr).mp known).resolve_right same)
  · intro addr spared
    rw [drops_of_none kept]
    exact enforced.spared addr fun guilty => spared ((condemned addr).mpr (Or.inl guilty))

theorem stepEvaluate_granted (enforced : Enforced testbed trace state) {tInferDone tMitigated : Int}
    (taken : stepEvaluate testbed state tInferDone tMitigated true = some next) :
    Enforced testbed (trace ++ [⟨state, .evaluate tInferDone tMitigated true, (), next⟩]) next := by
  unfold stepEvaluate at taken
  split at taken
  next ev queue queued idle =>
    simp only [Option.some.injEq] at taken
    obtain ⟨source, address⟩ := enforced.addressed ev (by simp [queued])
    have condemned (addr : InAddr) :
        Condemned testbed.codec (trace ++ [⟨state, .evaluate tInferDone tMitigated true, (), next⟩]) addr ↔
          Condemned testbed.codec trace addr ∨
            ge (testbed.predictAnomaly ev.features) dropThreshold = true ∧ addr = source := by
      rw [condemned_snoc, ← taken]
      simp only [grantedIn, Option.some.injEq, exists_eq_left', evaluate_dropped_iff, evaluate_sourceIp, ← address,
        testbed.codec.ntop_injective.eq_iff, eq_comm (a := source)]
    have waiting : ∀ later ∈ queue, ∃ addr, testbed.codec.ntop addr = later.sourceIp :=
      fun later member => enforced.addressed later (by simp [queued, member])
    by_cases high : ge (testbed.predictAnomaly ev.features) dropThreshold = true
    · rw [evaluate_world_of_high _ _ _ _ _ _ _ high] at taken
      have installed := blockIp_installed enforced.installed ⟨ev.sourceIp, source, address⟩
      rcases blockIp_cases (testbed.codec.key testbed.host) state.world ev.sourceIp true with
        ⟨before, done⟩ | ⟨unlisted, _, key, map, parsed, isOpen, done⟩ | ⟨_, failed, _⟩
      · have guilty := (enforced.listed source).mp (address ▸ before)
        refine enforced.of_judged queued ?_ (by rw [← taken, done]) (by rw [← taken])
        intro addr
        rw [condemned]
        exact or_iff_left_of_imp fun judged => judged.2 ▸ guilty
      · rw [← address, testbed.codec.key_ntop, Option.some.injEq] at parsed
        have innocent : ¬Condemned testbed.codec trace source :=
          mt (enforced.listed source).mpr (address ▸ unlisted)
        simp only [high, true_and] at condemned
        simp only [done] at taken installed
        refine enforced.of_blocked isOpen innocent condemned (by simp [droppedIn]) (by rw [← taken]; exact installed) ?_
          (by rw [← taken]; exact waiting)
        rw [← taken, parsed, address]
      · obtain ⟨map, isOpen, _⟩ := enforced.installed.listed
        simp [← address, isOpen] at failed
    · rw [evaluate_world_of_low _ _ _ _ _ _ _ (by simpa using high)] at taken
      refine enforced.of_judged queued ?_ (by rw [← taken]) (by rw [← taken])
      intro addr
      rw [condemned]
      exact or_iff_left_of_imp fun judged => absurd judged.1 high
  · cases taken

theorem stepEvaluate_refused (enforced : Enforced testbed trace state) {tInferDone tMitigated : Int}
    (taken : stepEvaluate testbed state tInferDone tMitigated false = some next) :
    Enforced testbed (trace ++ [⟨state, .evaluate tInferDone tMitigated false, (), next⟩]) next := by
  unfold stepEvaluate at taken
  split at taken
  next ev queue queued idle =>
    simp only [Option.some.injEq] at taken
    refine enforced.of_judged queued (condemned_of_none (by simp [grantedIn])) ?_ (by rw [← taken])
    rw [← taken]
    by_cases high : ge (testbed.predictAnomaly ev.features) dropThreshold = true
    · rw [evaluate_world_of_high _ _ _ _ _ _ _ high]
      exact blockIp_refused _ _ _
    · rw [evaluate_world_of_low _ _ _ _ _ _ _ (by simpa using high)]
  · cases taken

theorem step_enforced {label : Label} (enforced : Enforced testbed trace state)
    (taken : (machine testbed).step state label = some (next, ())) :
    Enforced testbed (trace ++ [⟨state, label, (), next⟩]) next := by
  obtain ⟨after, stepped, same⟩ := Option.map_eq_some_iff.mp taken
  cases same
  cases label with
  | arrive =>
    cases sending : state.toSend with
    | nil => simp [step, stepArrive, sending] at stepped
    | cons frame toSend => exact (stepArrive_enforced enforced sending stepped).1
  | listen now => exact stepListen_enforced enforced stepped
  | evaluate tInferDone tMitigated succeeds =>
    cases succeeds with
    | false => exact stepEvaluate_refused enforced stepped
    | true => exact stepEvaluate_granted enforced stepped
  | record =>
    obtain ⟨ev, _, rfl⟩ := Option.map_eq_some_iff.mp stepped
    exact enforced.of_quiet (condemned_of_none (by simp [grantedIn])) (by simp [droppedIn]) rfl enforced.addressed

theorem run_enforced {world : World} {frames : List (List Byte)} (attached : Attached world)
    (run : Run (machine testbed) { world, toSend := frames } trace state) : Enforced testbed trace state := by
  refine run.history (fun trace state label obs next _ enforced taken => step_enforced enforced taken) ?_
  obtain ⟨ifNametoindex, kernel, progFd, fd, loaded⟩ := attached
  have unlisted := (loadAndAttach_blockedIps loaded).trans (create_blockedIps ifNametoindex "ens33")
  refine ⟨loadAndAttach_installed (create_blockedIps ifNametoindex "ens33") loaded, by simp, ?_, ?_, ?_⟩
  · intro addr
    simp [unlisted, Condemned]
  · intro map isOpen addr guilty
    simp [Condemned] at guilty
  · intro addr _
    rfl

/-- Over every run, with any frames from any sources and any answers of the kernel: a frame is kept
from the socket exactly if its source was condemned before it arrived. At the end the condemned
addresses are the listed ones, and the kernel's entry of each counts the frames it has lost. -/
theorem frames_dropped_iff_condemned (testbed : Testbed) (world : World) (attached : Attached world)
    (frames : List (List Byte)) (trace : Trace) (final : State)
    (run : Run (machine testbed) { world, toSend := frames } trace final) :
    (∀ first second state next frame toSend, trace = first ++ ⟨state, .arrive, (), next⟩ :: second →
      state.toSend = frame :: toSend →
        (IsIpv4 frame ∧ Condemned testbed.codec first (sourceAddr frame) → next.socket = state.socket) ∧
        (¬(IsIpv4 frame ∧ Condemned testbed.codec first (sourceAddr frame)) →
          next.socket = state.socket ++ (testbed.deliver frame).toList)) ∧
      ∀ addr, (testbed.codec.ntop addr ∈ final.world.harness.blockedIps ↔ Condemned testbed.codec trace addr) ∧
        (Condemned testbed.codec trace addr → ∃ map, final.world.openMap = some map ∧
          map (addr.sAddr testbed.host) = some (BitVec.ofNat 64 (drops testbed.host trace addr))) ∧
        (¬Condemned testbed.codec trace addr → drops testbed.host trace addr = 0) := by
  constructor
  · intro first second state next frame toSend whole sending
    rw [whole] at run
    obtain ⟨earlier, taken, _⟩ := run.at_entry
    obtain ⟨after, stepped, same⟩ := Option.map_eq_some_iff.mp taken
    cases same
    exact (stepArrive_enforced (run_enforced attached earlier) sending stepped).2
  · intro addr
    have enforced := run_enforced attached run
    obtain ⟨map, isOpen, _⟩ := enforced.installed.listed
    exact ⟨enforced.listed addr, fun guilty => ⟨map, isOpen, enforced.counted map isOpen addr guilty⟩,
      enforced.spared addr⟩

/-! Three frames of an attacker: the block is refused for the first and granted for the second. -/

private def attackFrame : List Byte :=
  List.replicate 12 0 ++ [0x08, 0x00] ++ List.replicate 12 0 ++ [10, 0, 0, 1] ++ List.replicate 12 0 ++
    NetworkIngest.slab ++ List.replicate 8 0 ++ [0, 0, 0, 1] ++ [0, 0, 0, 1] ++ [0x00, 0x00, 0x80, 0x3F]

private def scoredByFeature : Testbed :=
  ⟨dottedQuad, .little, fun frame => some (⟨(0xC3, 0x50), sourceAddr frame⟩, frame.drop 42),
    fun features => features.headD 0⟩

private def filtered : World :=
  ⟨⟨"ens33", 2, 3, 5, some ⟨some 3⟩, ∅⟩, ⟨Function.update (fun _ => none) 3 (some KernelMap.empty), some 5⟩⟩

set_option maxRecDepth 4000 in
theorem frames_dropped_iff_condemned_attacker :
    ∃ trace final,
      Run (machine scoredByFeature) { world := filtered, toSend := [attackFrame, attackFrame, attackFrame] } trace final ∧
      drops .little trace ⟨10, 0, 0, 1⟩ = 1 ∧
      ∃ map, final.world.openMap = some map ∧ map (InAddr.sAddr .little ⟨10, 0, 0, 1⟩) = some 1 := by
  obtain ⟨⟨trace, final⟩, executed, once⟩ : ∃ result, (machine scoredByFeature).exec
      { world := filtered, toSend := [attackFrame, attackFrame, attackFrame] }
      [.arrive, .listen 0, .evaluate 0 0 false, .record, .arrive, .listen 0, .evaluate 0 0 true, .arrive] =
        some result ∧ drops .little result.1 ⟨10, 0, 0, 1⟩ = 1 := ⟨_, rfl, rfl⟩
  have run := Machine.exec_run executed
  have enforced := (frames_dropped_iff_condemned scoredByFeature filtered
    ⟨fun _ => 2, ⟨fun _ => none, none⟩, 5, 3, rfl⟩ _ trace final run).2 ⟨10, 0, 0, 1⟩
  have guilty : Condemned dottedQuad trace ⟨10, 0, 0, 1⟩ := by
    by_contra innocent
    rw [show drops .little trace ⟨10, 0, 0, 1⟩ = 0 from enforced.2.2 innocent] at once
    exact absurd once Nat.zero_ne_one
  obtain ⟨map, isOpen, counted⟩ := enforced.2.1 guilty
  refine ⟨trace, final, run, once, map, isOpen, ?_⟩
  rw [show map (InAddr.sAddr .little ⟨10, 0, 0, 1⟩) = _ from counted]
  exact congrArg (fun count => some (BitVec.ofNat 64 count)) once

end SentinelLab.MitigationLoop
