import SentinelLab.EbpfFilter

/-! `load_and_attach` call by call: which libbpf objects are open, and what a failure leaves behind.
The calls refine `EbpfFilter.loadAndAttach`, which only tells the outcomes apart. -/

namespace SentinelLab.FilterLoading
open Inet EbpfFilter

/-- The fields of `EBPFFilterHarness` with `bpf_obj_` as an address, the open objects by their
addresses, and the kernel. -/
structure Host where
  interfaceName : String
  ifindex : Nat
  mapFd : Int := -1
  progFd : Int := -1
  bpfObj : Option Nat := none
  blockedIps : Finset String := ∅
  objects : Nat → Option BpfObject
  kernel : Kernel

/-- What libbpf answers: the address of the opened object, whether it loads, the descriptors of
its program and its map, and whether the program is attached. -/
structure Answers where
  obj : Option Nat
  loads : Bool
  progFd : Int
  mapFd : Option Nat
  attaches : Bool

def Host.bpfObjectOpenFile (host : Host) (address : Nat) : Host :=
  { host with objects := Function.update host.objects address (some ⟨none⟩) }

def Host.bpfObjectLoad (host : Host) (address : Nat) (mapFd : Option Nat) : Host :=
  { host with
    objects := Function.update host.objects address (some ⟨mapFd⟩)
    kernel := match mapFd with
      | some fd => { host.kernel with maps := Function.update host.kernel.maps fd (some KernelMap.empty) }
      | none => host.kernel }

def Host.bpfObjectClose (host : Host) (address : Nat) : Host :=
  match host.objects address with
  | some obj =>
      { host with objects := Function.update host.objects address none, kernel := host.kernel.closeObject obj }
  | none => host

/-- `none` is no behaviour of the code: an address or a descriptor that is in use is not handed
out again. -/
def loadAndAttach (host : Host) (answers : Answers) : Option (Host × Bool) :=
  if host.ifindex = 0 then some (host, false)
  else match answers.obj with
    | none => some (host, false)
    | some address =>
        if (host.objects address).isSome then none
        else
          let opened := host.bpfObjectOpenFile address
          if !answers.loads then some (opened.bpfObjectClose address, false)
          else if answers.mapFd.any fun fd => (host.kernel.maps fd).isSome then none
          else
            let loaded := opened.bpfObjectLoad address answers.mapFd
            let fields := { loaded with
              progFd := answers.progFd
              mapFd := findMapFd answers.mapFd
              bpfObj := some address }
            if answers.attaches then
              some ({ fields with kernel := { fields.kernel with xdp := some answers.progFd } }, true)
            else some (fields, false)

def Host.detachProgram (host : Host) (detached : Bool) : Host :=
  if 0 < host.ifindex ∧ 0 < host.progFd then
    { host with progFd := -1, kernel := { host.kernel with xdp := if detached then none else host.kernel.xdp } }
  else host

def Host.detach (host : Host) (detached : Bool) : Host :=
  let host := host.detachProgram detached
  match host.bpfObj with
  | some address => { host.bpfObjectClose address with bpfObj := none }
  | none => host

/-! ## The outcomes -/

def Host.toWorld (host : Host) : World where
  harness :=
    { interfaceName := host.interfaceName
      ifindex := host.ifindex
      mapFd := host.mapFd
      progFd := host.progFd
      bpfObj := host.bpfObj.bind host.objects
      blockedIps := host.blockedIps }
  kernel := host.kernel

def Answers.outcome (answers : Answers) : LoadOutcome :=
  if answers.obj.isNone then .openFailed
  else if !answers.loads then .loadFailed
  else .loaded answers.progFd answers.mapFd answers.attaches

variable {host after : Host} {answers : Answers} {result : Bool}

theorem close_open {address : Nat} (fresh : host.objects address = none) :
    (host.bpfObjectOpenFile address).bpfObjectClose address = host := by
  have restored : Function.update host.objects address none = host.objects := by
    rw [← fresh, Function.update_eq_self]
  simp only [Host.bpfObjectClose, Host.bpfObjectOpenFile, Function.update_self, Kernel.closeObject,
    Function.update_idem, restored]

def Host.pointed (host : Host) (answers : Answers) (address : Nat) : Host :=
  { (host.bpfObjectOpenFile address).bpfObjectLoad address answers.mapFd with
    progFd := answers.progFd
    mapFd := findMapFd answers.mapFd
    bpfObj := some address }

def Host.attached (host : Host) (answers : Answers) (address : Nat) : Host :=
  { host.pointed answers address with kernel :=
      { (host.pointed answers address).kernel with
        xdp := if answers.attaches then some answers.progFd else (host.pointed answers address).kernel.xdp } }

theorem loadAndAttach_inv (called : loadAndAttach host answers = some (after, result)) :
    (after = host ∧ result = false ∧ (host.ifindex = 0 ∨ answers.obj = none ∨ answers.loads = false)) ∨
    ∃ address, host.ifindex ≠ 0 ∧ answers.obj = some address ∧ host.objects address = none ∧ answers.loads = true ∧
      ¬(answers.mapFd.any fun fd => (host.kernel.maps fd).isSome) = true ∧ result = answers.attaches ∧
      after = host.attached answers address := by
  unfold loadAndAttach at called
  by_cases absent : host.ifindex = 0
  · rw [if_pos absent] at called
    cases called
    exact .inl ⟨rfl, rfl, .inl absent⟩
  · rw [if_neg absent] at called
    cases opened : answers.obj with
    | none =>
      rw [opened] at called
      cases called
      exact .inl ⟨rfl, rfl, .inr (.inl rfl)⟩
    | some address =>
      simp only [opened] at called
      split at called
      · cases called
      · next unused =>
        have fresh : host.objects address = none := by simpa using unused
        cases loads : answers.loads with
        | false =>
          rw [loads, close_open fresh] at called
          cases called
          exact .inl ⟨rfl, rfl, .inr (.inr rfl)⟩
        | true =>
          simp only [loads, Bool.not_true, Bool.false_eq_true, ↓reduceIte] at called
          split at called
          · cases called
          · next free =>
            right
            refine ⟨address, absent, rfl, fresh, rfl, free, ?_⟩
            unfold Host.attached
            cases attaches : answers.attaches with
            | true | false =>
              rw [attaches] at called
              cases called
              exact ⟨rfl, rfl⟩

theorem loadAndAttach_cases (called : loadAndAttach host answers = some (after, result)) :
    (after = host ∧ result = false ∧ (host.ifindex = 0 ∨ answers.obj = none ∨ answers.loads = false)) ∨
    ∃ address, host.ifindex ≠ 0 ∧ answers.obj = some address ∧ host.objects address = none ∧ answers.loads = true ∧
      result = answers.attaches ∧ after.ifindex = host.ifindex ∧ after.bpfObj = some address ∧
      after.progFd = answers.progFd ∧ after.mapFd = findMapFd answers.mapFd ∧ after.blockedIps = host.blockedIps ∧
      after.objects address = some ⟨answers.mapFd⟩ ∧
      after.kernel.xdp = (if answers.attaches then some answers.progFd else host.kernel.xdp) ∧
      ∀ fd, answers.mapFd = some fd → after.kernel.maps fd = some KernelMap.empty := by
  rcases loadAndAttach_inv called with early | ⟨address, present, opened, fresh, loads, _, result_eq, rfl⟩
  · exact .inl early
  · right
    have kernel_xdp : (host.pointed answers address).kernel.xdp = host.kernel.xdp := by
      unfold Host.pointed Host.bpfObjectLoad
      cases answers.mapFd <;> rfl
    refine ⟨address, present, opened, fresh, loads, result_eq, rfl, rfl, rfl, rfl, rfl, ?_, ?_, ?_⟩
    · exact Function.update_self ..
    · rw [← kernel_xdp]
      rfl
    · intro fd found
      simp [Host.attached, Host.pointed, Host.bpfObjectLoad, found]

/-- The calls do what the outcome says. -/
theorem loadAndAttach_refines (called : loadAndAttach host answers = some (after, result)) :
    EbpfFilter.loadAndAttach host.toWorld answers.outcome = some (after.toWorld, result) := by
  unfold EbpfFilter.loadAndAttach Answers.outcome
  rcases loadAndAttach_inv called with
    ⟨rfl, rfl, early⟩ | ⟨address, present, opened, _, loads, free, rfl, rfl⟩
  · by_cases absent : after.ifindex = 0
    · exact if_pos absent
    · rw [if_neg (show ¬after.toWorld.harness.ifindex = 0 from absent)]
      rcases early with absent' | unopened | unloaded
      · exact absurd absent' absent
      · rw [unopened]
        rfl
      · rw [unloaded]
        cases answers.obj <;> rfl
  · have free' : ¬(answers.mapFd.any fun fd => (host.toWorld.kernel.maps fd).isSome) = true := free
    rw [if_neg (show ¬host.toWorld.harness.ifindex = 0 from present), opened, loads]
    simp only [Option.isNone_some, Bool.not_true, Bool.false_eq_true, ↓reduceIte, free']
    cases attaches : answers.attaches <;> cases found : answers.mapFd <;>
      simp [Host.toWorld, Host.attached, Host.pointed, Host.bpfObjectLoad, Host.bpfObjectOpenFile, attaches, found]

theorem detach_refines (host : Host) (detached : Bool) :
    (host.detach detached).toWorld = EbpfFilter.detach host.toWorld detached := by
  have program : (host.detachProgram detached).toWorld = EbpfFilter.detachProgram host.toWorld detached := by
    unfold Host.detachProgram EbpfFilter.detachProgram
    by_cases attached : 0 < host.ifindex ∧ 0 < host.progFd
    · have attached' : 0 < host.toWorld.harness.ifindex ∧ 0 < host.toWorld.harness.progFd := attached
      rw [if_pos attached, if_pos attached']
      rfl
    · have unattached : ¬(0 < host.toWorld.harness.ifindex ∧ 0 < host.toWorld.harness.progFd) := attached
      rw [if_neg attached, if_neg unattached]
  unfold Host.detach EbpfFilter.detach
  rw [← program]
  cases pointer : (host.detachProgram detached).bpfObj with
  | none => simp [Host.toWorld, pointer]
  | some address =>
    cases behind : (host.detachProgram detached).objects address with
    | none => simp [Host.toWorld, Host.bpfObjectClose, pointer, behind]
    | some obj => simp [Host.toWorld, Host.bpfObjectClose, pointer, behind]

/-! ## What a failed call leaves behind -/

/-- The fields of the harness have their previous values, and the call has closed what it opened. -/
structure LeftAsItWas (before after : Host) : Prop where
  mapFd : after.mapFd = before.mapFd
  progFd : after.progFd = before.progFd
  bpfObj : after.bpfObj = before.bpfObj
  blockedIps : after.blockedIps = before.blockedIps
  closed : ∀ address, before.objects address = none → after.objects address = none

/-- A later `block_ip` answers as it would have without the call, and a later `detach` leaves the same
program on the interface. -/
structure ActsAsBefore (before after : Host) : Prop where
  blockIp : ∀ inetPton ipAddress succeeds,
    (blockIp inetPton after.toWorld ipAddress succeeds).2 = (blockIp inetPton before.toWorld ipAddress succeeds).2
  detach : ∀ detached, (after.detach detached).kernel.xdp = (before.detach detached).kernel.xdp

/-- The program cannot be attached when the fields already point to the loaded object. -/
def AttachFailed (host : Host) (answers : Answers) : Prop :=
  host.ifindex ≠ 0 ∧ answers.obj.isSome ∧ answers.loads = true ∧ answers.attaches = false

theorem eq_of_not_attachFailed (called : loadAndAttach host answers = some (after, false))
    (other : ¬AttachFailed host answers) : after = host := by
  rcases loadAndAttach_cases called with ⟨same, _⟩ | ⟨address, present, opened, _, loads, unattached, _⟩
  · exact same
  · exact absurd ⟨present, by rw [opened]; rfl, loads, unattached.symm⟩ other

theorem leaves_harness_iff (called : loadAndAttach host answers = some (after, result)) :
    (result = false → LeftAsItWas host after) ↔ ¬AttachFailed host answers := by
  constructor
  · rintro left ⟨present, some_object, loads, unattached⟩
    rcases loadAndAttach_cases called with ⟨_, _, early⟩ | ⟨address, _, _, fresh, _, result_eq, _, _, _, _, _, still_open, _⟩
    · rcases early with absent | unopened | unloaded
      · exact present absent
      · rw [unopened] at some_object
        cases some_object
      · rw [unloaded] at loads
        cases loads
    · have leaked := (left (result_eq.trans unattached)).closed address fresh
      rw [still_open] at leaked
      cases leaked
  · rintro other rfl
    rw [eq_of_not_attachFailed called other]
    exact ⟨rfl, rfl, rfl, rfl, fun _ closed => closed⟩

/-- After a failed attachment, an address is reported as blocked through a map that no program on
the interface reads. -/
theorem blockIp_after_failed_attach {inetPton : String → Option Key}
    (called : loadAndAttach host answers = some (after, false)) {address fd : Nat} (present : host.ifindex ≠ 0)
    (opened : answers.obj = some address) (loads : answers.loads = true) (found : answers.mapFd = some fd)
    {ipAddress : String} {key : Key} (parsed : inetPton ipAddress = some key) :
    (blockIp inetPton after.toWorld ipAddress true).2 = true ∧ after.kernel.xdp = host.kernel.xdp := by
  rcases loadAndAttach_cases called with
    ⟨_, _, early⟩ | ⟨_, _, _, _, _, result_eq, _, _, _, map_eq, _, _, xdp_eq, empty⟩
  · simp [present, opened, loads] at early
  · rw [found] at map_eq
    rw [← result_eq] at xdp_eq
    refine ⟨?_, xdp_eq⟩
    have isOpen : after.toWorld.openMap = some KernelMap.empty := by
      simp [World.openMap, Host.toWorld, map_eq, findMapFd, empty fd found]
    rcases blockIp_cases inetPton after.toWorld ipAddress true with
      ⟨_, done⟩ | ⟨_, _, _, _, _, _, done⟩ | ⟨_, failed, _⟩
    · rw [done]
    · rw [done]
    · simp [parsed, isOpen] at failed

theorem detach_xdp (attached : 0 < host.ifindex ∧ 0 < host.progFd) : (host.detach true).kernel.xdp = none := by
  have taken : (host.detachProgram true).kernel.xdp = none := by
    rw [Host.detachProgram, if_pos attached]
    rfl
  unfold Host.detach
  cases pointer : (host.detachProgram true).bpfObj with
  | none => simpa [pointer] using taken
  | some address =>
    simp only [pointer, Host.bpfObjectClose]
    cases (host.detachProgram true).objects address with
    | none => exact taken
    | some obj =>
      rcases obj with ⟨_ | fd⟩
      · exact taken
      · exact taken

/-- And `detach` takes whatever program is on the interface, though it is none of the harness. -/
theorem detach_after_failed_attach (called : loadAndAttach host answers = some (after, false)) {address : Nat}
    (present : host.ifindex ≠ 0) (opened : answers.obj = some address) (loads : answers.loads = true)
    (valid : 0 < answers.progFd) : (after.detach true).kernel.xdp = none := by
  rcases loadAndAttach_cases called with
    ⟨_, _, early⟩ | ⟨_, _, _, _, _, _, index_eq, _, prog_eq, _, _, _, _, _⟩
  · simp [present, opened, loads] at early
  · apply detach_xdp
    rw [index_eq, prog_eq]
    exact ⟨Nat.pos_of_ne_zero present, valid⟩

/-- Every failure but one leaves the harness as it was, and what it does later. After the other one an
address is reported as blocked through a map that no program on the interface reads, and `detach`
takes whatever program is there. -/
theorem failed_load_leaves_harness_iff (called : loadAndAttach host answers = some (after, result)) :
    ((result = false → LeftAsItWas host after) ↔ ¬AttachFailed host answers) ∧
    (result = false → ¬AttachFailed host answers → ActsAsBefore host after) ∧
    (AttachFailed host answers →
      (∀ fd, answers.mapFd = some fd → ∀ inetPton ipAddress key, inetPton ipAddress = some key →
        (blockIp inetPton after.toWorld ipAddress true).2 = true ∧ after.kernel.xdp = host.kernel.xdp) ∧
      (0 < answers.progFd → (after.detach true).kernel.xdp = none)) := by
  refine ⟨leaves_harness_iff called, ?_, ?_⟩
  · rintro rfl other
    rw [eq_of_not_attachFailed called other]
    exact ⟨fun _ _ _ => rfl, fun _ => rfl⟩
  · rintro ⟨present, some_object, loads, unattached⟩
    obtain ⟨address, opened⟩ := Option.isSome_iff_exists.mp some_object
    have failed : result = false := by
      rcases loadAndAttach_cases called with ⟨_, failed, _⟩ | ⟨_, _, _, _, _, result_eq, _⟩
      · exact failed
      · exact result_eq.trans unattached
    subst failed
    constructor
    · intro fd found inetPton ipAddress key parsed
      exact blockIp_after_failed_attach called present opened loads found parsed
    · exact detach_after_failed_attach called present opened loads

private def busyHost : Host where
  interfaceName := "eth0"
  ifindex := 2
  objects := fun _ => none
  kernel := ⟨fun _ => none, some 99⟩

private def busyAnswers : Answers := ⟨some 1, true, 7, some 5, false⟩

private def unreadable : Answers := ⟨some 1, false, -22, none, false⟩

/-- An object that the kernel does not load. -/
theorem failed_load_leaves_harness_iff_unloaded : LeftAsItWas busyHost busyHost := by
  have called : loadAndAttach busyHost unreadable = some (busyHost, false) := by
    simp [loadAndAttach, busyHost, unreadable, Host.bpfObjectOpenFile, Host.bpfObjectClose, Kernel.closeObject]
  exact (failed_load_leaves_harness_iff called).1.mpr (by simp [AttachFailed, unreadable]) rfl

/-- The interface is busy: the call fails and keeps the object open, an address is then reported
as blocked, and `detach` takes the program of somebody else. -/
theorem busy_interface_left_changed :
    ∃ after, loadAndAttach busyHost busyAnswers = some (after, false) ∧ ¬LeftAsItWas busyHost after ∧
      (blockIp (fun _ => some 0) after.toWorld "10.0.0.1" true).2 = true ∧ after.kernel.xdp = some 99 ∧
      (after.detach true).kernel.xdp = none := by
  obtain ⟨after, called⟩ : ∃ after, loadAndAttach busyHost busyAnswers = some (after, false) := ⟨_, rfl⟩
  have blocked : (blockIp (fun _ => some 0) after.toWorld "10.0.0.1" true).2 = true ∧
      after.kernel.xdp = busyHost.kernel.xdp :=
    blockIp_after_failed_attach called (by decide) rfl rfl rfl rfl
  refine ⟨after, called, ?_, blocked.1, blocked.2, detach_after_failed_attach called (by decide) rfl rfl (by decide)⟩
  intro left
  have attached : ¬AttachFailed busyHost busyAnswers := (leaves_harness_iff called).mp fun _ => left
  exact attached ⟨by decide, rfl, rfl, rfl⟩

end SentinelLab.FilterLoading
