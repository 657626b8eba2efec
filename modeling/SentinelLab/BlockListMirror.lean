import SentinelLab.EbpfFilter

/-! The list of blocked addresses in user space against the keys of the loaded kernel map, over
every sequence of calls on one harness. -/

namespace SentinelLab.BlockListMirror
open Inet EbpfFilter Library.Transition Library.Bytes

inductive Call where
  | loadAndAttach (outcome : LoadOutcome)
  | detach (detached : Bool)
  | blockIp (ipAddress : String) (succeeds : Bool)
  | unblockIp (ipAddress : String) (succeeds : Bool)
  deriving DecidableEq, Repr

variable (inetPton : String → Option Key)

def step (world : World) : Call → Option (World × Option Bool)
  | .loadAndAttach outcome => (loadAndAttach world outcome).map fun (world, result) => (world, some result)
  | .detach detached => some (detach world detached, none)
  | .blockIp ipAddress succeeds =>
      let (world, result) := blockIp inetPton world ipAddress succeeds
      some (world, some result)
  | .unblockIp ipAddress succeeds =>
      let (world, result) := unblockIp inetPton world ipAddress succeeds
      some (world, some result)

def machine : Machine World Call (Option Bool) := ⟨step inetPton⟩

def KeyLoaded (world : World) (key : Key) : Prop := ∃ map, currentMap world = some map ∧ (map key).isSome

/-- The loaded map has exactly the keys of the listed addresses. -/
def Mirrors (world : World) : Prop :=
  ∀ key, KeyLoaded world key ↔ ∃ ip ∈ world.harness.blockedIps, inetPton ip = some key

/-- After the call the list mirrors the map, and a `true` was the truth. -/
def Faithful (entry : Entry World Call (Option Bool)) : Prop :=
  Mirrors inetPton entry.after ∧
    (∀ ip succeeds, entry.label = .blockIp ip succeeds → entry.obs = some true →
      ∃ key, inetPton ip = some key ∧ KeyLoaded entry.after key) ∧
    ∀ ip succeeds, entry.label = .unblockIp ip succeeds → entry.obs = some true →
      ∀ key, inetPton ip = some key → ¬KeyLoaded entry.after key

def LoadOutcome.loads : LoadOutcome → Bool
  | .loaded .. => true
  | _ => false

/-- An object is replaced or closed only while no address is listed, and the kernel grants the
deletion of a key that is in the map. -/
def Orderly (world : World) : Call → Prop
  | .loadAndAttach outcome =>
      world.harness.ifindex ≠ 0 → LoadOutcome.loads outcome → world.harness.blockedIps = ∅
  | .detach _ => world.harness.blockedIps = ∅
  | .blockIp _ _ => True
  | .unblockIp ip succeeds => ∀ key, inetPton ip = some key → KeyLoaded world key → succeeds = true

/-- `map_fd_` is open exactly when it is the descriptor of the loaded object, and every listed
address was readable. -/
structure Linked (world : World) : Prop where
  descriptor : ∀ fd, world.harness.bpfObj = some ⟨some fd⟩ →
    world.harness.mapFd = fd ∧ (world.kernel.maps fd).isSome
  closed : (∀ fd, world.harness.bpfObj ≠ some ⟨some fd⟩) → world.openMap = none
  readable : ∀ ip ∈ world.harness.blockedIps, (inetPton ip).isSome

variable {inetPton} {world : World}

theorem Linked.currentMap_eq (linked : Linked inetPton world) : currentMap world = world.openMap := by
  unfold currentMap
  split
  next fd loaded => simp [World.openMap, (linked.descriptor fd loaded).1]
  next other => exact (linked.closed other).symm

theorem Linked.putMap {map : KernelMap} (linked : Linked inetPton world) (isOpen : world.openMap = some map)
    (map' : KernelMap) : Linked inetPton (world.putMap map') := by
  refine ⟨?_, ?_, linked.readable⟩
  · intro fd loaded
    obtain ⟨same, some_map⟩ := linked.descriptor fd loaded
    refine ⟨same, ?_⟩
    simp [World.putMap, same]
  · intro other
    have closed : world.openMap = none := linked.closed other
    rw [closed] at isOpen
    cases isOpen

theorem Linked.withBlocked {blockedIps : Finset String} (linked : Linked inetPton world)
    (readable : ∀ ip ∈ blockedIps, (inetPton ip).isSome) : Linked inetPton (world.withBlocked blockedIps) :=
  ⟨linked.descriptor, linked.closed, readable⟩

theorem create_linked (ifNametoindex : String → Nat) (name : String) (kernel : Kernel) :
    Linked inetPton ⟨EBPFFilterHarness.create ifNametoindex name, kernel⟩ := by
  unfold EBPFFilterHarness.create
  split <;> exact ⟨by simp, by simp [World.openMap], by simp⟩

theorem loadAndAttach_linked {after : World} {outcome : LoadOutcome} {result : Bool}
    (linked : Linked inetPton world) (taken : loadAndAttach world outcome = some (after, result)) :
    Linked inetPton after := by
  unfold loadAndAttach at taken
  split at taken
  · cases taken
    exact linked
  cases outcome with
  | openFailed =>
    cases taken
    exact linked
  | loadFailed =>
    cases taken
    exact linked
  | loaded progFd mapFd attached =>
    simp only at taken
    split at taken
    · cases taken
    · cases mapFd with
      | none =>
        split at taken <;> cases taken <;>
          exact ⟨by simp, by simp [World.openMap, findMapFd], linked.readable⟩
      | some fd =>
        split at taken <;> cases taken <;>
          exact ⟨by simp [findMapFd], fun other => absurd rfl (other fd), linked.readable⟩

theorem detach_linked (linked : Linked inetPton world) (detached : Bool) :
    Linked inetPton (detach world detached) := by
  have program : Linked inetPton (detachProgram world detached) := by
    unfold detachProgram
    split
    · exact ⟨linked.descriptor, linked.closed, linked.readable⟩
    · exact linked
  unfold detach
  dsimp only
  split
  next obj loaded =>
    refine ⟨by simp, ?_, program.readable⟩
    intro _
    obtain ⟨_ | fd⟩ := obj
    · have closed := program.closed (by simp [loaded])
      exact closed
    · simp [World.openMap, Kernel.closeObject, (program.descriptor fd loaded).1]
  · exact program

theorem blockIp_linked (linked : Linked inetPton world) (ip : String) (succeeds : Bool) :
    Linked inetPton (blockIp inetPton world ip succeeds).1 := by
  obtain ⟨_, done⟩ | ⟨_, _, key, map, parsed, isOpen, done⟩ | ⟨_, _, done⟩ :=
    blockIp_cases inetPton world ip succeeds <;> rw [done]
  · exact linked
  · apply (linked.putMap isOpen _).withBlocked
    intro other member
    rcases Finset.mem_insert.mp member with rfl | before
    · simp [parsed]
    · exact linked.readable other before
  · exact linked

theorem unblockIp_linked (linked : Linked inetPton world) (ip : String) (succeeds : Bool) :
    Linked inetPton (unblockIp inetPton world ip succeeds).1 := by
  have fewer : ∀ other ∈ world.harness.blockedIps.erase ip, (inetPton other).isSome :=
    fun other member => linked.readable other (Finset.mem_of_mem_erase member)
  obtain ⟨_, done⟩ | ⟨key, _, ⟨map, isOpen, _, _, done⟩ | ⟨_, done⟩⟩ :=
    unblockIp_cases inetPton world ip succeeds <;> rw [done]
  · exact linked
  · exact (linked.putMap isOpen _).withBlocked fewer
  · exact linked.withBlocked fewer

theorem step_linked {after : World} {call : Call} {obs : Option Bool} (linked : Linked inetPton world)
    (taken : step inetPton world call = some (after, obs)) : Linked inetPton after := by
  cases call with
  | loadAndAttach outcome =>
    obtain ⟨⟨next, result⟩, loaded, same⟩ := Option.map_eq_some_iff.mp taken
    cases same
    exact loadAndAttach_linked linked loaded
  | detach detached =>
    cases taken
    exact detach_linked linked detached
  | blockIp ip succeeds =>
    cases taken
    exact blockIp_linked linked ip succeeds
  | unblockIp ip succeeds =>
    cases taken
    exact unblockIp_linked linked ip succeeds

/-! ## The mirror -/

theorem keyLoaded_iff (linked : Linked inetPton world) (key : Key) :
    KeyLoaded world key ↔ ∃ map, world.openMap = some map ∧ (map key).isSome := by
  rw [KeyLoaded, linked.currentMap_eq]

theorem keyLoaded_update (linked : Linked inetPton world) {map : KernelMap} (isOpen : world.openMap = some map)
    {key : Key} {value : Option Counter} {blockedIps : Finset String}
    (kept : Linked inetPton ((world.putMap (Function.update map key value)).withBlocked blockedIps)) (other : Key) :
    KeyLoaded ((world.putMap (Function.update map key value)).withBlocked blockedIps) other ↔
      if other = key then value.isSome = true else KeyLoaded world other := by
  rw [keyLoaded_iff kept, keyLoaded_iff linked]
  simp only [openMap_withBlocked, openMap_putMap isOpen, isOpen, Option.some.injEq, exists_eq_left']
  split
  next same => rw [same, Function.update_self]
  next different => rw [Function.update_of_ne different]

theorem mirrors_of_nothing_loaded (linked : Linked inetPton world) (nothing : ∀ key, ¬KeyLoaded world key) :
    Mirrors inetPton world ↔ world.harness.blockedIps = ∅ := by
  constructor
  · intro mirrors
    apply Finset.eq_empty_of_forall_notMem
    intro ip member
    obtain ⟨key, parsed⟩ := Option.isSome_iff_exists.mp (linked.readable ip member)
    exact nothing key ((mirrors key).mpr ⟨ip, member, parsed⟩)
  · intro empty key
    simp [nothing key, empty]

theorem loaded_nothing {after : World} {outcome : LoadOutcome} {result : Bool}
    (index : world.harness.ifindex ≠ 0) (loads : LoadOutcome.loads outcome)
    (taken : loadAndAttach world outcome = some (after, result)) (key : Key) : ¬KeyLoaded after key := by
  unfold loadAndAttach at taken
  rw [if_neg index] at taken
  cases outcome with
  | openFailed => simp [LoadOutcome.loads] at loads
  | loadFailed => simp [LoadOutcome.loads] at loads
  | loaded progFd mapFd attached =>
    simp only at taken
    split at taken
    · cases taken
    · cases mapFd <;> split at taken <;> cases taken <;> simp [KeyLoaded, currentMap, KernelMap.empty]

theorem load_failed {after : World} {outcome : LoadOutcome} {result : Bool}
    (fails : world.harness.ifindex = 0 ∨ LoadOutcome.loads outcome = false)
    (taken : loadAndAttach world outcome = some (after, result)) : after = world := by
  unfold loadAndAttach at taken
  split at taken
  · cases taken
    rfl
  next index =>
    cases outcome with
    | openFailed | loadFailed =>
      cases taken
      rfl
    | loaded => simp [index, LoadOutcome.loads] at fails

theorem detach_nothing (world : World) (detached : Bool) :
    (detach world detached).harness.blockedIps = world.harness.blockedIps ∧
      ∀ key, ¬KeyLoaded (detach world detached) key := by
  have program : (detachProgram world detached).harness.blockedIps = world.harness.blockedIps := by
    unfold detachProgram
    split <;> rfl
  unfold detach
  dsimp only
  split
  · exact ⟨program, by simp [KeyLoaded, currentMap]⟩
  next unloaded => exact ⟨program, by simp [KeyLoaded, currentMap, unloaded]⟩

theorem blockIp_faithful (linked : Linked inetPton world) (mirrors : Mirrors inetPton world) (ip : String)
    (succeeds : Bool) :
    Mirrors inetPton (blockIp inetPton world ip succeeds).1 ∧
      ((blockIp inetPton world ip succeeds).2 = true →
        ∃ key, inetPton ip = some key ∧ KeyLoaded (blockIp inetPton world ip succeeds).1 key) := by
  have kept := blockIp_linked linked ip succeeds
  obtain ⟨listed, done⟩ | ⟨_, _, key, map, parsed, isOpen, done⟩ | ⟨_, _, done⟩ :=
    blockIp_cases inetPton world ip succeeds <;> rw [done] at kept ⊢
  · refine ⟨mirrors, fun _ => ?_⟩
    obtain ⟨key, parsed⟩ := Option.isSome_iff_exists.mp (linked.readable ip listed)
    exact ⟨key, parsed, (mirrors key).mpr ⟨ip, listed, parsed⟩⟩
  · have after (other : Key) :
        KeyLoaded ((world.putMap (Function.update map key (some 0))).withBlocked
          (insert ip world.harness.blockedIps)) other ↔ other = key ∨ KeyLoaded world other := by
      rw [keyLoaded_update linked isOpen kept]
      split
      next same => exact iff_of_true rfl (.inl same)
      next different => exact (or_iff_right different).symm
    refine ⟨?_, fun _ => ⟨key, parsed, (after key).mpr (Or.inl rfl)⟩⟩
    intro other
    rw [after, mirrors other]
    simp only [blockedIps_withBlocked, Finset.exists_mem_insert, parsed, Option.some.injEq, eq_comm]
  · exact ⟨mirrors, by simp⟩

theorem mirrors_erase {map : KernelMap} {key : Key} {ip : String}
    (injective : ∀ ip ip' key, inetPton ip = some key → inetPton ip' = some key → ip = ip')
    (linked : Linked inetPton world) (mirrors : Mirrors inetPton world) (isOpen : world.openMap = some map)
    (parsed : inetPton ip = some key)
    (kept : Linked inetPton ((world.putMap (Function.update map key none)).withBlocked
      (world.harness.blockedIps.erase ip))) :
    Mirrors inetPton ((world.putMap (Function.update map key none)).withBlocked
        (world.harness.blockedIps.erase ip)) ∧
      ¬KeyLoaded ((world.putMap (Function.update map key none)).withBlocked
        (world.harness.blockedIps.erase ip)) key := by
  have after (other : Key) :
      KeyLoaded ((world.putMap (Function.update map key none)).withBlocked
        (world.harness.blockedIps.erase ip)) other ↔ other ≠ key ∧ KeyLoaded world other := by
    rw [keyLoaded_update linked isOpen kept]
    split
    next same => exact iff_of_false Bool.false_ne_true fun loaded => loaded.1 same
    next different => exact (and_iff_right different).symm
  constructor
  · intro other
    rw [after, mirrors other]
    simp only [blockedIps_withBlocked, Finset.mem_erase]
    constructor
    · rintro ⟨different, ip', member, parsed'⟩
      refine ⟨ip', ⟨?_, member⟩, parsed'⟩
      rintro rfl
      exact different (Option.some.inj (parsed'.symm.trans parsed))
    · rintro ⟨ip', ⟨different, member⟩, parsed'⟩
      refine ⟨?_, ip', member, parsed'⟩
      rintro rfl
      exact different (injective _ _ _ parsed' parsed)
  · intro present
    exact ((after key).mp present).1 rfl

theorem unblockIp_faithful (injective : ∀ ip ip' key, inetPton ip = some key → inetPton ip' = some key → ip = ip')
    (linked : Linked inetPton world) (mirrors : Mirrors inetPton world) (ip : String) (succeeds : Bool) :
    (Mirrors inetPton (unblockIp inetPton world ip succeeds).1 ∧
      ((unblockIp inetPton world ip succeeds).2 = true →
        ∀ key, inetPton ip = some key → ¬KeyLoaded (unblockIp inetPton world ip succeeds).1 key)) ↔
      ∀ key, inetPton ip = some key → KeyLoaded world key → succeeds = true := by
  have kept := unblockIp_linked linked ip succeeds
  obtain ⟨unreadable, done⟩ | ⟨key, parsed, ⟨map, isOpen, granted, _, done⟩ | ⟨refused, done⟩⟩ :=
    unblockIp_cases inetPton world ip succeeds <;> rw [done] at kept ⊢
  · simp [unreadable, mirrors]
  · obtain ⟨mirrors', removed⟩ := mirrors_erase injective linked mirrors isOpen parsed kept
    simp [parsed, mirrors', removed, granted]
  · -- The key stays where it was; only the list loses the address.
    have after (other : Key) :
        KeyLoaded (world.withBlocked (world.harness.blockedIps.erase ip)) other ↔ KeyLoaded world other := by
      rw [keyLoaded_iff kept, keyLoaded_iff linked, openMap_withBlocked]
    by_cases present : KeyLoaded world key
    · obtain ⟨map, isOpen, inside⟩ := (keyLoaded_iff linked key).mp present
      have denied : succeeds = false := (refused map isOpen).resolve_right (by
        intro absent
        simp [absent] at inside)
      refine iff_of_false ?_ ?_
      · rintro ⟨_, gone⟩
        exact gone rfl key parsed ((after key).mpr present)
      · intro granted
        rw [granted key parsed present] at denied
        cases denied
    · have unlisted : ip ∉ world.harness.blockedIps :=
        fun member => present ((mirrors key).mpr ⟨ip, member, parsed⟩)
      have same : world.withBlocked (world.harness.blockedIps.erase ip) = world := by
        rw [Finset.erase_eq_of_notMem unlisted]
        rfl
      rw [same]
      simp [parsed, mirrors, present]

/-- From a mirroring state, a call is faithful exactly if it is orderly. -/
theorem faithful_iff_orderly
    (injective : ∀ ip ip' key, inetPton ip = some key → inetPton ip' = some key → ip = ip')
    {call : Call} {obs : Option Bool} {after : World} (linked : Linked inetPton world)
    (mirrors : Mirrors inetPton world) (taken : step inetPton world call = some (after, obs)) :
    Faithful inetPton ⟨world, call, obs, after⟩ ↔ Orderly inetPton world call := by
  have kept := step_linked linked taken
  cases call with
  | loadAndAttach outcome =>
    obtain ⟨⟨next, result⟩, loaded, same⟩ := Option.map_eq_some_iff.mp taken
    cases same
    by_cases fails : world.harness.ifindex = 0 ∨ LoadOutcome.loads outcome = false
    · obtain rfl := load_failed fails loaded
      refine iff_of_true ⟨mirrors, by simp, by simp⟩ ?_
      intro index loads
      rcases fails with zero | never
      · exact absurd zero index
      · simp [never] at loads
    · have index : world.harness.ifindex ≠ 0 := fun zero => fails (Or.inl zero)
      have loads : LoadOutcome.loads outcome = true := by simpa using fun never => fails (Or.inr never)
      have nothing := loaded_nothing index loads loaded
      simp [Faithful, Orderly, mirrors_of_nothing_loaded kept nothing, loadAndAttach_blockedIps loaded, index, loads]
  | detach detached =>
    cases taken
    obtain ⟨listed, nothing⟩ := detach_nothing world detached
    simp [Faithful, Orderly, mirrors_of_nothing_loaded kept nothing, listed]
  | blockIp ip succeeds =>
    cases taken
    obtain ⟨mirrored, truthful⟩ := blockIp_faithful linked mirrors ip succeeds
    refine iff_of_true ⟨mirrored, ?_, by simp⟩ trivial
    intro ip' succeeds' same returned
    cases same
    exact truthful (Option.some.inj returned)
  | unblockIp ip succeeds =>
    cases taken
    rw [Orderly, ← unblockIp_faithful injective linked mirrors ip succeeds]
    constructor
    · rintro ⟨mirrored, _, truthful⟩
      exact ⟨mirrored, fun returned => truthful ip succeeds rfl (congrArg some returned)⟩
    · rintro ⟨mirrored, truthful⟩
      refine ⟨mirrored, by simp, ?_⟩
      intro ip' succeeds' same returned
      cases same
      exact truthful (Option.some.inj returned)

/-- Over every run of one harness, whatever the kernel answers: every call is faithful exactly if
every call is orderly. -/
theorem blockList_mirrors_iff_orderly (inetPton : String → Option Key)
    (injective : ∀ ip ip' key, inetPton ip = some key → inetPton ip' = some key → ip = ip')
    (ifNametoindex : String → Nat) (interfaceName : String) (kernel : Kernel)
    (trace : List (Entry World Call (Option Bool))) (final : World)
    (run : Run (machine inetPton) ⟨EBPFFilterHarness.create ifNametoindex interfaceName, kernel⟩ trace final) :
    (∀ entry ∈ trace, Faithful inetPton entry) ↔
      ∀ entry ∈ trace, Orderly inetPton entry.before entry.label := by
  have base : Linked inetPton ⟨EBPFFilterHarness.create ifNametoindex interfaceName, kernel⟩ :=
    create_linked ifNametoindex interfaceName kernel
  have empty : Mirrors inetPton ⟨EBPFFilterHarness.create ifNametoindex interfaceName, kernel⟩ := by
    have nothing : ∀ key, ¬KeyLoaded ⟨EBPFFilterHarness.create ifNametoindex interfaceName, kernel⟩ key := by
      unfold EBPFFilterHarness.create
      split <;> simp [KeyLoaded, currentMap]
    rw [mirrors_of_nothing_loaded base nothing]
    exact create_blockedIps ifNametoindex interfaceName
  apply run.all_iff (fun world => Linked inetPton world ∧ Mirrors inetPton world) _ _ ⟨base, empty⟩
  · intro world call obs after good taken
    exact faithful_iff_orderly injective good.1 good.2 taken
  · intro world call obs after good taken faithful
    exact ⟨step_linked good.1 taken, faithful.1⟩

private def fresh : World := ⟨EBPFFilterHarness.create (fun _ => 2) "ens33", ⟨fun _ => none, none⟩⟩

private def quad : String := inetNtop ⟨10, 0, 0, 1⟩

private theorem quad_key : dottedQuad.key .little quad = some 0x0100000A := by
  simp [Codec.key, dottedQuad, quad, inetPton_inetNtop]
  decide

theorem blockList_mirrors_iff_orderly_loaded :
    ∃ trace final, (machine (dottedQuad.key .little)).exec fresh
        [.loadAndAttach (.loaded 5 (some 3) true), .blockIp quad true] = some (trace, final) ∧
      ∀ entry ∈ trace, Faithful (dottedQuad.key .little) entry := by
  obtain ⟨⟨trace, final⟩, executed⟩ : ∃ result, (machine (dottedQuad.key .little)).exec fresh
      [.loadAndAttach (.loaded 5 (some 3) true), .blockIp quad true] = some result := ⟨_, rfl⟩
  refine ⟨trace, final, executed, ?_⟩
  apply (blockList_mirrors_iff_orderly _ (dottedQuad_key_injective .little) _ _ _ trace final
    (Machine.exec_run executed)).mpr
  cases executed
  simp [Orderly, fresh, EBPFFilterHarness.create]

/-- The list survives a reload, the keys do not: a block that was reported is gone. -/
theorem blockList_stale_after_reload :
    ∃ trace final, Run (machine (dottedQuad.key .little)) fresh trace final ∧
      ∃ entry ∈ trace, entry.label = .blockIp quad true ∧ entry.obs = some true ∧
        ∃ key, dottedQuad.key .little quad = some key ∧ ¬KeyLoaded entry.after key := by
  let calls : List Call :=
    [.loadAndAttach (.loaded 5 (some 3) true), .blockIp quad true, .detach true,
      .loadAndAttach (.loaded 6 (some 4) true), .blockIp quad true]
  have executed : ∃ trace final, (machine (dottedQuad.key .little)).exec fresh calls = some (trace, final) ∧
      ∃ entry ∈ trace, entry.label = .blockIp quad true ∧ entry.obs = some true ∧
        ¬KeyLoaded entry.after 0x0100000A := by
    simp [calls, Machine.exec, machine, step, loadAndAttach, fresh, EBPFFilterHarness.create, blockIp,
      quad_key, detach, detachProgram, Kernel.mapUpdateElem, Kernel.closeObject, findMapFd, KeyLoaded,
      currentMap, KernelMap.empty]
  obtain ⟨trace, final, ran, entry, member, label, obs, missing⟩ := executed
  exact ⟨trace, final, Machine.exec_run ran, entry, member, label, obs, _, quad_key, missing⟩

end SentinelLab.BlockListMirror
