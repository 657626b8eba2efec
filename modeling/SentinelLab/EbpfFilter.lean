import SentinelLab.Inet
import SentinelLab.Library.Transition

/-! `EBPFFilterHarness` of `ebpf_filter.cpp` next to the part of the kernel it talks to: the open
map descriptors and the program attached to the interface. Each outcome the kernel may choose is
an argument. `inet_pton` is a parameter, already composed with `s_addr`. -/

namespace SentinelLab.EbpfFilter
open Inet

abbrev Counter := BitVec 64

abbrev KernelMap := Key → Option Counter

def KernelMap.empty : KernelMap := fun _ => none

structure Kernel where
  maps : Nat → Option KernelMap
  xdp : Option Int

/-- `bpf_map_update_elem` with `BPF_ANY`: takes effect and returns 0, or fails with no effect. -/
def Kernel.mapUpdateElem (kernel : Kernel) (fd : Int) (key : Key) (value : Counter) (succeeds : Bool) :
    Kernel × Int :=
  match kernel.maps fd.toNat with
  | some map =>
      if 0 ≤ fd ∧ succeeds then
        ({ kernel with maps :=
            Function.update kernel.maps fd.toNat (some (Function.update map key (some value))) }, 0)
      else (kernel, -1)
  | none => (kernel, -1)

def Kernel.mapDeleteElem (kernel : Kernel) (fd : Int) (key : Key) (succeeds : Bool) : Kernel × Int :=
  match kernel.maps fd.toNat with
  | some map =>
      if 0 ≤ fd ∧ succeeds ∧ (map key).isSome then
        ({ kernel with maps := Function.update kernel.maps fd.toNat (some (Function.update map key none)) }, 0)
      else (kernel, -1)
  | none => (kernel, -1)

/-- A loaded object; closing it closes its map descriptor, if it has one. -/
structure BpfObject where
  mapFd : Option Nat
  deriving DecidableEq, Repr

structure EBPFFilterHarness where
  interfaceName : String
  ifindex : Nat
  mapFd : Int := -1
  progFd : Int := -1
  bpfObj : Option BpfObject := none
  blockedIps : Finset String := ∅

def EBPFFilterHarness.create (ifNametoindex : String → Nat) (interfaceName : String) : EBPFFilterHarness :=
  if ifNametoindex interfaceName = 0 then
    { interfaceName := if ifNametoindex "eth0" ≠ 0 then "eth0" else interfaceName,
      ifindex := ifNametoindex "eth0" }
  else { interfaceName, ifindex := ifNametoindex interfaceName }

structure World where
  harness : EBPFFilterHarness
  kernel : Kernel

/-- What libbpf answers during `load_and_attach`. A negative `progFd` is a failed lookup of the
program, `mapFd = none` a failed lookup of the map. -/
inductive LoadOutcome where
  | openFailed
  | loadFailed
  | loaded (progFd : Int) (mapFd : Option Nat) (attached : Bool)
  deriving DecidableEq, Repr

def findMapFd : Option Nat → Int
  | some fd => fd
  | none => -2

/-- `none` is no behaviour of the code: a descriptor that is still open is not handed out again. -/
def loadAndAttach (world : World) (outcome : LoadOutcome) : Option (World × Bool) :=
  if world.harness.ifindex = 0 then some (world, false)
  else match outcome with
    | .openFailed => some (world, false)
    | .loadFailed => some (world, false)
    | .loaded progFd mapFd attached =>
        if mapFd.any fun fd => (world.kernel.maps fd).isSome then none
        else
          let harness := { world.harness with progFd, mapFd := findMapFd mapFd, bpfObj := some ⟨mapFd⟩ }
          let maps := match mapFd with
            | some fd => Function.update world.kernel.maps fd (some KernelMap.empty)
            | none => world.kernel.maps
          if attached then some (⟨harness, ⟨maps, some progFd⟩⟩, true)
          else some (⟨harness, ⟨maps, world.kernel.xdp⟩⟩, false)

def Kernel.closeObject (kernel : Kernel) (obj : BpfObject) : Kernel :=
  match obj.mapFd with
  | some fd => { kernel with maps := Function.update kernel.maps fd none }
  | none => kernel

/-- `detached` is whether `bpf_xdp_detach` takes effect; the code does not look. -/
def detachProgram (world : World) (detached : Bool) : World :=
  if 0 < world.harness.ifindex ∧ 0 < world.harness.progFd then
    ⟨{ world.harness with progFd := -1 },
      { world.kernel with xdp := if detached then none else world.kernel.xdp }⟩
  else world

def detach (world : World) (detached : Bool) : World :=
  let world := detachProgram world detached
  match world.harness.bpfObj with
  | some obj => ⟨{ world.harness with bpfObj := none }, world.kernel.closeObject obj⟩
  | none => world

variable (inetPton : String → Option Key)

/-- `succeeds` is whether the kernel grants `bpf_map_update_elem`. -/
def blockIp (world : World) (ipAddress : String) (succeeds : Bool) : World × Bool :=
  if ipAddress ∈ world.harness.blockedIps then (world, true)
  else match inetPton ipAddress with
    | none => (world, false)
    | some key =>
        if 0 ≤ world.harness.mapFd then
          match world.kernel.mapUpdateElem world.harness.mapFd key 0 succeeds with
          | (kernel, res) =>
              if res = 0 then
                (⟨{ world.harness with blockedIps := insert ipAddress world.harness.blockedIps }, kernel⟩, true)
              else (⟨world.harness, kernel⟩, false)
        else (world, false)

/-- The result of `bpf_map_delete_elem` is not looked at. -/
def unblockIp (world : World) (ipAddress : String) (succeeds : Bool) : World × Bool :=
  match inetPton ipAddress with
  | none => (world, false)
  | some key =>
      let kernel :=
        if 0 ≤ world.harness.mapFd then (world.kernel.mapDeleteElem world.harness.mapFd key succeeds).1
        else world.kernel
      (⟨{ world.harness with blockedIps := world.harness.blockedIps.erase ipAddress }, kernel⟩, true)

/-! ## What a call can do -/

def currentMap (world : World) : Option KernelMap :=
  match world.harness.bpfObj with
  | some ⟨some fd⟩ => world.kernel.maps fd
  | _ => none

def World.openMap (world : World) : Option KernelMap :=
  if 0 ≤ world.harness.mapFd then world.kernel.maps world.harness.mapFd.toNat else none

def World.putMap (world : World) (map : KernelMap) : World :=
  { world with kernel.maps := Function.update world.kernel.maps world.harness.mapFd.toNat (some map) }

def World.withBlocked (world : World) (blockedIps : Finset String) : World :=
  { world with harness.blockedIps := blockedIps }

section
variable {world : World} {map : KernelMap}

theorem openMap_nonneg (isOpen : world.openMap = some map) : 0 ≤ world.harness.mapFd := by
  unfold World.openMap at isOpen
  split at isOpen
  · assumption
  · cases isOpen

theorem maps_of_openMap (isOpen : world.openMap = some map) :
    world.kernel.maps world.harness.mapFd.toNat = some map := by
  simpa only [World.openMap, if_pos (openMap_nonneg isOpen)] using isOpen

theorem maps_of_closed (positive : 0 ≤ world.harness.mapFd) (closed : world.openMap = none) :
    world.kernel.maps world.harness.mapFd.toNat = none := by
  rwa [World.openMap, if_pos positive] at closed

@[simp] theorem openMap_putMap (isOpen : world.openMap = some map) (map' : KernelMap) :
    (world.putMap map').openMap = some map' := by
  simp [World.openMap, World.putMap, openMap_nonneg isOpen]

@[simp] theorem openMap_withBlocked (blockedIps : Finset String) :
    (world.withBlocked blockedIps).openMap = world.openMap := rfl

@[simp] theorem blockedIps_withBlocked (blockedIps : Finset String) :
    (world.withBlocked blockedIps).harness.blockedIps = blockedIps := rfl

end

@[simp] theorem create_blockedIps (ifNametoindex : String → Nat) (interfaceName : String) :
    (EBPFFilterHarness.create ifNametoindex interfaceName).blockedIps = ∅ := by
  unfold EBPFFilterHarness.create
  split <;> rfl

theorem loadAndAttach_blockedIps {world after : World} {outcome : LoadOutcome} {result : Bool}
    (loaded : loadAndAttach world outcome = some (after, result)) :
    after.harness.blockedIps = world.harness.blockedIps := by
  unfold loadAndAttach at loaded
  split at loaded
  · cases loaded
    rfl
  · cases outcome with
    | openFailed | loadFailed =>
      cases loaded
      rfl
    | loaded progFd mapFd attached =>
      simp only at loaded
      split at loaded
      · cases loaded
      · split at loaded <;> cases loaded <;> rfl

theorem blockIp_cases (world : World) (ipAddress : String) (succeeds : Bool) :
    (ipAddress ∈ world.harness.blockedIps ∧ blockIp inetPton world ipAddress succeeds = (world, true)) ∨
    (ipAddress ∉ world.harness.blockedIps ∧ succeeds = true ∧ ∃ key map,
      inetPton ipAddress = some key ∧ world.openMap = some map ∧
      blockIp inetPton world ipAddress succeeds =
        ((world.putMap (Function.update map key (some 0))).withBlocked
          (insert ipAddress world.harness.blockedIps), true)) ∨
    (ipAddress ∉ world.harness.blockedIps ∧
      (inetPton ipAddress = none ∨ world.openMap = none ∨ succeeds = false) ∧
      blockIp inetPton world ipAddress succeeds = (world, false)) := by
  by_cases listed : ipAddress ∈ world.harness.blockedIps
  · exact Or.inl ⟨listed, by simp [blockIp, listed]⟩
  cases parsed : inetPton ipAddress with
  | none => exact Or.inr (Or.inr ⟨listed, Or.inl rfl, by simp [blockIp, listed, parsed]⟩)
  | some key =>
    cases opened : world.openMap with
    | none =>
      have refused : blockIp inetPton world ipAddress succeeds = (world, false) := by
        by_cases positive : 0 ≤ world.harness.mapFd
        · simp [blockIp, listed, parsed, positive, Kernel.mapUpdateElem, maps_of_closed positive opened]
        · simp [blockIp, listed, parsed, positive]
      exact Or.inr (Or.inr ⟨listed, Or.inr (Or.inl rfl), refused⟩)
    | some map =>
      have positive := openMap_nonneg opened
      have behind := maps_of_openMap opened
      cases succeeds with
      | true =>
        exact Or.inr (Or.inl ⟨listed, rfl, key, map, rfl, rfl, by
          simp [blockIp, listed, parsed, positive, Kernel.mapUpdateElem, behind, World.putMap, World.withBlocked]⟩)
      | false =>
        exact Or.inr (Or.inr ⟨listed, Or.inr (Or.inr rfl),
          by simp [blockIp, listed, parsed, positive, Kernel.mapUpdateElem, behind]⟩)

theorem mem_blockIp_iff (world : World) (ipAddress : String) (succeeds : Bool) :
    ipAddress ∈ (blockIp inetPton world ipAddress succeeds).1.harness.blockedIps ↔
      ipAddress ∈ world.harness.blockedIps ∨
        ((inetPton ipAddress).isSome ∧ world.openMap.isSome ∧ succeeds = true) := by
  rcases blockIp_cases inetPton world ipAddress succeeds with
    ⟨listed, done⟩ | ⟨_, succeeded, key, map, parsed, isOpen, done⟩ | ⟨unlisted, failed, done⟩
  · rw [done]
    exact iff_of_true listed (Or.inl listed)
  · rw [done]
    apply iff_of_true
    · simp
    · simp [parsed, isOpen, succeeded]
  · rw [done]
    apply iff_of_false unlisted
    intro listed
    rcases listed with before | ⟨parses, opened, succeeded⟩
    · exact unlisted before
    · rcases failed with unread | closed | refused
      · simp [unread] at parses
      · simp [closed] at opened
      · simp [refused] at succeeded

theorem blockedIps_subset_blockIp (world : World) (ipAddress : String) (succeeds : Bool) :
    world.harness.blockedIps ⊆ (blockIp inetPton world ipAddress succeeds).1.harness.blockedIps := by
  rcases blockIp_cases inetPton world ipAddress succeeds with
    ⟨_, done⟩ | ⟨_, _, key, map, _, _, done⟩ | ⟨_, _, done⟩
  · rw [done]
  · rw [done]
    exact Finset.subset_insert _ _
  · rw [done]

/-- `unblock_ip` of a readable address always drops it from the list; the key goes only if the
map is open and the kernel grants the deletion. -/
theorem unblockIp_cases (world : World) (ipAddress : String) (succeeds : Bool) :
    (inetPton ipAddress = none ∧ unblockIp inetPton world ipAddress succeeds = (world, false)) ∨
    (∃ key, inetPton ipAddress = some key ∧
      ((∃ map, world.openMap = some map ∧ succeeds = true ∧ (map key).isSome ∧
          unblockIp inetPton world ipAddress succeeds =
            ((world.putMap (Function.update map key none)).withBlocked
              (world.harness.blockedIps.erase ipAddress), true)) ∨
        ((∀ map, world.openMap = some map → succeeds = false ∨ map key = none) ∧
          unblockIp inetPton world ipAddress succeeds =
            (world.withBlocked (world.harness.blockedIps.erase ipAddress), true)))) := by
  cases parsed : inetPton ipAddress with
  | none => exact Or.inl ⟨rfl, by simp [unblockIp, parsed]⟩
  | some key =>
    refine Or.inr ⟨key, rfl, ?_⟩
    cases opened : world.openMap with
    | none =>
      have kept : unblockIp inetPton world ipAddress succeeds =
          (world.withBlocked (world.harness.blockedIps.erase ipAddress), true) := by
        by_cases positive : 0 ≤ world.harness.mapFd
        · simp [unblockIp, parsed, positive, Kernel.mapDeleteElem, maps_of_closed positive opened, World.withBlocked]
        · simp [unblockIp, parsed, positive, World.withBlocked]
      exact Or.inr ⟨fun map isOpen => absurd isOpen nofun, kept⟩
    | some map =>
      have positive := openMap_nonneg opened
      have behind := maps_of_openMap opened
      by_cases granted : succeeds = true ∧ (map key).isSome
      · exact Or.inl ⟨map, rfl, granted.1, granted.2, by
          simp [unblockIp, parsed, positive, Kernel.mapDeleteElem, behind, granted, World.putMap, World.withBlocked]⟩
      · refine Or.inr ⟨?_, by
          simp only [unblockIp, parsed, positive, Kernel.mapDeleteElem, behind, granted, World.withBlocked,
            if_true, and_false, if_false]⟩
        intro map' same
        obtain rfl := Option.some.inj same
        by_cases succeeded : succeeds = true
        · exact Or.inr (by simpa [succeeded] using granted)
        · exact Or.inl (by simpa using succeeded)

end SentinelLab.EbpfFilter
