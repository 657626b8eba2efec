import SentinelLab.EbpfFilter
import SentinelLab.Library.Transition

/-! `xdp_firewall` over the raw bytes of a frame, and its agreement with the list of blocked
addresses that the harness keeps in user space. -/

namespace SentinelLab.XdpFilter
open Inet EbpfFilter Library.Transition Library.Bytes

inductive XdpAction where
  | pass
  | drop
  deriving DecidableEq, Repr

def sizeofEthhdr : Nat := 14
def sizeofIphdr : Nat := 20

/-- `__constant_htons`: a 16-bit value of the host whose memory is in network order. -/
def htons (host : Endian) (value : Nat) : Nat := host.decode (Endian.big.encode 2 value)

def ethPIp : Nat := 0x0800

/-- `none` is an access outside the frame. -/
def xdpFirewall (host : Endian) (map : KernelMap) (frame : List Byte) : Option (XdpAction × KernelMap) :=
  if frame.length < sizeofEthhdr then some (.pass, map)
  else do
    let hProto ← load frame 12 2
    if host.decode hProto ≠ htons host ethPIp then some (.pass, map)
    else if frame.length < sizeofEthhdr + sizeofIphdr then some (.pass, map)
    else do
      let saddr ← load frame (sizeofEthhdr + 12) 4
      let srcIp : Key := BitVec.ofNat 32 (host.decode saddr)
      match map srcIp with
      | some dropCounter => some (.drop, Function.update map srcIp (some (dropCounter + 1)))
      | none => some (.pass, map)

/-- A frame that arrives while the object is loaded and attached; `none` otherwise. -/
def receive (host : Endian) (world : World) (frame : List Byte) : Option (World × XdpAction) :=
  match world.harness.bpfObj, world.kernel.xdp with
  | some ⟨some fd⟩, some _ => do
      let map ← world.kernel.maps fd
      let (action, map) ← xdpFirewall host map frame
      some ({ world with kernel.maps := Function.update world.kernel.maps fd (some map) }, action)
  | _, _ => none

/-! ## One frame -/

/-- Long enough for both headers, with the EtherType bytes of IPv4. -/
def IsIpv4 (frame : List Byte) : Prop :=
  34 ≤ frame.length ∧ frame[12]? = some 0x08 ∧ frame[13]? = some 0x00

def sourceAddr (frame : List Byte) : InAddr :=
  ⟨frame.getD 26 0, frame.getD 27 0, frame.getD 28 0, frame.getD 29 0⟩

theorem hProto_eq_iff (host : Endian) (frame : List Byte) (long : 14 ≤ frame.length) :
    host.decode [frame.getD 12 0, frame.getD 13 0] = htons host ethPIp ↔
      frame[12]? = some 0x08 ∧ frame[13]? = some 0x00 := by
  have twelve : frame[12]? = some (frame.getD 12 0) := by
    simp [List.getElem?_eq_getElem (show 12 < frame.length by omega)]
  have thirteen : frame[13]? = some (frame.getD 13 0) := by
    simp [List.getElem?_eq_getElem (show 13 < frame.length by omega)]
  rw [twelve, thirteen]
  constructor
  · intro same
    have bytes : [frame.getD 12 0, frame.getD 13 0] = [0x08, 0x00] := host.decode_injective rfl same
    simpa only [List.cons.injEq, and_true, Option.some.injEq] using bytes
  · rintro ⟨first, second⟩
    rw [Option.some.inj first, Option.some.inj second]
    rfl

/-- The program reads inside the frame only, whatever its length. It drops an IPv4 frame whose
source has an entry, and counts it there; any other frame passes. -/
theorem xdpFirewall_cases (host : Endian) (map : KernelMap) (frame : List Byte) :
    (IsIpv4 frame ∧ ∃ count, map ((sourceAddr frame).sAddr host) = some count ∧
      xdpFirewall host map frame =
        some (.drop, Function.update map ((sourceAddr frame).sAddr host) (some (count + 1)))) ∨
    (¬(IsIpv4 frame ∧ (map ((sourceAddr frame).sAddr host)).isSome) ∧
      xdpFirewall host map frame = some (.pass, map)) := by
  unfold xdpFirewall
  by_cases ethernet : frame.length < sizeofEthhdr
  · refine Or.inr ⟨?_, by rw [if_pos ethernet]⟩
    intro dropped
    exact absurd dropped.1.1 (Nat.not_le_of_lt (Nat.lt_of_lt_of_le ethernet (by decide)))
  have long : 14 ≤ frame.length := Nat.le_of_not_lt ethernet
  rw [if_neg ethernet, load_eq_bytes (show 12 + 2 ≤ frame.length from long)]
  simp only [List.range, List.range.loop, List.map_cons, List.map_nil, Nat.add_zero, Nat.reduceAdd,
    Option.bind_eq_bind, Option.bind_some]
  by_cases ip : frame[12]? = some 0x08 ∧ frame[13]? = some 0x00
  · rw [if_neg (not_not_intro ((hProto_eq_iff host frame long).mpr ip))]
    by_cases short : frame.length < sizeofEthhdr + sizeofIphdr
    · refine Or.inr ⟨?_, by rw [if_pos short]⟩
      intro dropped
      exact absurd dropped.1.1 (Nat.not_le_of_lt short)
    · have whole : 34 ≤ frame.length := Nat.le_of_not_lt short
      have inside : sizeofEthhdr + 12 + 4 ≤ frame.length := Nat.le_trans (by decide) whole
      have address : BitVec.ofNat 32 (host.decode [frame.getD 26 0, frame.getD 27 0, frame.getD 28 0,
          frame.getD 29 0]) = (sourceAddr frame).sAddr host := rfl
      rw [if_neg short, load_eq_bytes inside]
      simp only [sizeofEthhdr, List.range, List.range.loop, List.map_cons, List.map_nil, Nat.reduceAdd,
        Nat.add_zero, Option.bind_some, address]
      cases entry : map ((sourceAddr frame).sAddr host) with
      | none => exact Or.inr ⟨by simp, rfl⟩
      | some count => exact Or.inl ⟨⟨whole, ip⟩, count, rfl, rfl⟩
  · refine Or.inr ⟨fun dropped => ip dropped.1.2, ?_⟩
    rw [if_pos (mt (hProto_eq_iff host frame long).mp ip)]

/-! ## Blocking and filtering together -/

/-- The calls that the two sides see: addresses blocked and released by their canonical dotted
quads, and the frames that arrive. -/
inductive Call (codec : Codec) where
  | blockIp (ip : codec.Quad)
  | unblockIp (ip : codec.Quad)
  | frame (bytes : List Byte)

inductive Answer where
  | returned (result : Bool)
  | action (action : XdpAction)

variable (codec : Codec) (host : Endian)

def step (world : World) : Call codec → Option (World × Answer)
  | .blockIp ip =>
      let (world, result) := blockIp (codec.key host) world ip.1 true
      some (world, .returned result)
  | .unblockIp ip =>
      let (world, result) := unblockIp (codec.key host) world ip.1 true
      some (world, .returned result)
  | .frame bytes => (receive host world bytes).map fun (world, action) => (world, .action action)

def machine : Machine World (Call codec) Answer := ⟨step codec host⟩

/-- The object is loaded and attached, and its map has the keys of the listed addresses. -/
structure Installed (world : World) : Prop where
  object : ∃ fd : Nat, world.harness.bpfObj = some ⟨some fd⟩ ∧ world.harness.mapFd = fd
  attached : world.kernel.xdp.isSome
  listed : ∃ map, world.openMap = some map ∧
    ∀ addr, (map (addr.sAddr host)).isSome ↔ codec.ntop addr ∈ world.harness.blockedIps

variable {codec host} {world after : World}

theorem Installed.currentMap_eq (installed : Installed codec host world) :
    currentMap world = world.openMap := by
  obtain ⟨fd, loaded, same⟩ := installed.object
  simp [currentMap, World.openMap, loaded, same]

theorem Installed.putMap (installed : Installed codec host world) (map : KernelMap)
    (blockedIps : Finset String)
    (listed : ∀ addr, (map (addr.sAddr host)).isSome ↔ codec.ntop addr ∈ blockedIps) :
    Installed codec host ((world.putMap map).withBlocked blockedIps) := by
  obtain ⟨_, isOpen, _⟩ := installed.listed
  exact ⟨installed.object, installed.attached, map, by rw [openMap_withBlocked, openMap_putMap isOpen], listed⟩

theorem update_sAddr (host : Endian) (map : KernelMap) (addr other : InAddr) (value : Option Counter) :
    Function.update map (addr.sAddr host) value (other.sAddr host) =
      if other = addr then value else map (other.sAddr host) := by
  split
  next same => rw [same, Function.update_self]
  next different => rw [Function.update_of_ne (mt (fun keys => InAddr.sAddr_injective host keys) different)]

theorem Installed.update (installed : Installed codec host world) {map : KernelMap}
    (listed : ∀ addr, (map (addr.sAddr host)).isSome ↔ codec.ntop addr ∈ world.harness.blockedIps) (addr : InAddr)
    (value : Option Counter) {blockedIps : Finset String} (entry : value.isSome ↔ codec.ntop addr ∈ blockedIps)
    (others : ∀ other, codec.ntop other ≠ codec.ntop addr →
      (codec.ntop other ∈ world.harness.blockedIps ↔ codec.ntop other ∈ blockedIps)) :
    Installed codec host ((world.putMap (Function.update map (addr.sAddr host) value)).withBlocked blockedIps) := by
  apply installed.putMap
  intro other
  rw [update_sAddr]
  split
  next same => rw [same, entry]
  next different => rw [listed other, others other (mt (fun texts => codec.ntop_injective texts) different)]

theorem receive_eq (installed : Installed codec host world) {map : KernelMap}
    (isOpen : world.openMap = some map) (frame : List Byte) :
    receive host world frame =
      (xdpFirewall host map frame).map fun (action, map) => (world.putMap map, action) := by
  obtain ⟨fd, loaded, same⟩ := installed.object
  obtain ⟨prog, attached⟩ := Option.isSome_iff_exists.mp installed.attached
  have behind := maps_of_openMap isOpen
  rw [same, Int.toNat_natCast] at behind
  simp only [receive, loaded, attached, behind, Option.bind_eq_bind, Option.bind_some, World.putMap, same,
    Int.toNat_natCast]
  cases xdpFirewall host map frame <;> rfl

theorem receive_spec (installed : Installed codec host world) (frame : List Byte) :
    ∃ map action, receive host world frame = some (world.putMap map, action) ∧
      (action = .drop ↔ IsIpv4 frame ∧ codec.ntop (sourceAddr frame) ∈ world.harness.blockedIps) := by
  obtain ⟨map, isOpen, listed⟩ := installed.listed
  rw [receive_eq installed isOpen, ← listed]
  rcases xdpFirewall_cases host map frame with ⟨ipv4, count, present, done⟩ | ⟨other, done⟩
  · refine ⟨_, _, by rw [done]; rfl, ?_⟩
    simp [ipv4, present]
  · exact ⟨_, _, by rw [done]; rfl, iff_of_false (by simp) other⟩

theorem loadAndAttach_installed {progFd : Int} {fd : Nat} (none_listed : world.harness.blockedIps = ∅)
    (loaded : loadAndAttach world (.loaded progFd (some fd) true) = some (after, true)) :
    Installed codec host after := by
  unfold loadAndAttach at loaded
  split at loaded
  · simp at loaded
  simp only at loaded
  split at loaded
  · cases loaded
  · cases loaded
    refine ⟨⟨fd, rfl, rfl⟩, rfl, KernelMap.empty, by simp [World.openMap, findMapFd], ?_⟩
    simp [KernelMap.empty, none_listed]

theorem blockIp_installed (installed : Installed codec host world) (ip : codec.Quad) :
    Installed codec host (blockIp (codec.key host) world ip.1 true).1 := by
  obtain ⟨_, addr, rfl⟩ := ip
  obtain ⟨map, isOpen, listed⟩ := installed.listed
  rcases blockIp_cases (codec.key host) world (codec.ntop addr) true with
    ⟨_, done⟩ | ⟨_, _, key, map', parsed, isOpen', done⟩ | ⟨_, _, done⟩
  · rw [done]
    exact installed
  · rw [done]
    obtain rfl : addr.sAddr host = key := Option.some.inj ((codec.key_ntop host addr).symm.trans parsed)
    obtain rfl : map = map' := Option.some.inj (isOpen.symm.trans isOpen')
    apply installed.update listed addr
    · simp
    · intro other different
      rw [Finset.mem_insert, or_iff_right different]
  · rw [done]
    exact installed

theorem unblockIp_installed (installed : Installed codec host world) (ip : codec.Quad) :
    Installed codec host (unblockIp (codec.key host) world ip.1 true).1 := by
  obtain ⟨_, addr, rfl⟩ := ip
  obtain ⟨map, isOpen, listed⟩ := installed.listed
  rcases unblockIp_cases (codec.key host) world (codec.ntop addr) true with
    ⟨_, done⟩ | ⟨key, parsed, ⟨map', isOpen', _, _, done⟩ | ⟨absent, done⟩⟩
  · rw [done]
    exact installed
  · rw [done]
    obtain rfl : addr.sAddr host = key := Option.some.inj ((codec.key_ntop host addr).symm.trans parsed)
    obtain rfl : map = map' := Option.some.inj (isOpen.symm.trans isOpen')
    apply installed.update listed addr
    · simp
    · intro other different
      rw [Finset.mem_erase, and_iff_right different]
  · -- The key was not in the map, so the address was not listed either.
    obtain rfl : addr.sAddr host = key := Option.some.inj ((codec.key_ntop host addr).symm.trans parsed)
    have missing : map (addr.sAddr host) = none := (absent map isOpen).resolve_left (by simp)
    have unlisted : codec.ntop addr ∉ world.harness.blockedIps := by
      rw [← listed addr, missing]
      simp
    rw [done, Finset.erase_eq_of_notMem unlisted]
    exact installed

theorem receive_installed (installed : Installed codec host world) {frame : List Byte} {action : XdpAction}
    (taken : receive host world frame = some (after, action)) : Installed codec host after := by
  obtain ⟨map, isOpen, listed⟩ := installed.listed
  rw [receive_eq installed isOpen] at taken
  rcases xdpFirewall_cases host map frame with ⟨_, count, present, done⟩ | ⟨_, done⟩
  · rw [done] at taken
    cases taken
    apply installed.putMap _ world.harness.blockedIps
    intro addr
    rw [← listed addr]
    by_cases same : addr.sAddr host = (sourceAddr frame).sAddr host
    · simp [same, present]
    · simp [Function.update_of_ne same]
  · rw [done] at taken
    cases taken
    exact installed.putMap map world.harness.blockedIps listed

theorem step_installed {call : Call codec} {answer : Answer} (installed : Installed codec host world)
    (taken : step codec host world call = some (after, answer)) : Installed codec host after := by
  cases call with
  | blockIp ip =>
    cases taken
    exact blockIp_installed installed ip
  | unblockIp ip =>
    cases taken
    exact unblockIp_installed installed ip
  | frame bytes =>
    obtain ⟨⟨next, action⟩, received, same⟩ := Option.map_eq_some_iff.mp taken
    cases same
    exact receive_installed installed received

/-- After any calls on one loaded object, the kernel drops exactly the frames whose source is
listed in user space; a drop counts itself under that source and touches nothing else. -/
theorem xdpFirewall_agrees_with_blockedIps (codec : Codec) (host : Endian) (ifNametoindex : String → Nat)
    (interfaceName : String) (kernel : Kernel) (progFd : Int) (fd : Nat) (start final : World)
    (trace : List (Entry World (Call codec) Answer))
    (loaded : loadAndAttach ⟨EBPFFilterHarness.create ifNametoindex interfaceName, kernel⟩
      (.loaded progFd (some fd) true) = some (start, true))
    (run : Run (machine codec host) start trace final) (frame : List Byte) :
    ∃ map action map', currentMap final = some map ∧ xdpFirewall host map frame = some (action, map') ∧
      (action = .drop ↔ 34 ≤ frame.length ∧ frame[12]? = some 0x08 ∧ frame[13]? = some 0x00 ∧
        codec.ntop (sourceAddr frame) ∈ final.harness.blockedIps) ∧
      (action = .drop → ∃ count, map ((sourceAddr frame).sAddr host) = some count ∧
        map' = Function.update map ((sourceAddr frame).sAddr host) (some (count + 1))) ∧
      (action = .pass → map' = map) := by
  have installed : Installed codec host final :=
    run.invariant (Installed codec host) (fun _ _ _ _ installed taken => step_installed installed taken)
      (loadAndAttach_installed (create_blockedIps ifNametoindex interfaceName) loaded)
  obtain ⟨map, isOpen, listed⟩ := installed.listed
  rcases xdpFirewall_cases host map frame with ⟨ipv4, count, present, done⟩ | ⟨other, done⟩
  · refine ⟨map, _, _, installed.currentMap_eq.trans isOpen, done, ?_, fun _ => ⟨count, present, rfl⟩, by simp⟩
    simp [ipv4.1, ipv4.2, ← listed, present]
  · refine ⟨map, _, _, installed.currentMap_eq.trans isOpen, done, iff_of_false (by simp) ?_, by simp, fun _ => rfl⟩
    rintro ⟨long, first, second, member⟩
    exact other ⟨⟨long, first, second⟩, (listed _).mpr member⟩

private def blocked : dottedQuad.Quad := ⟨dottedQuad.ntop ⟨10, 0, 0, 1⟩, _, rfl⟩

private def ipFrame : List Byte :=
  List.replicate 12 0 ++ [0x08, 0x00] ++ List.replicate 12 0 ++ [10, 0, 0, 1] ++ List.replicate 4 0

theorem xdpFirewall_agrees_with_blockedIps_blocked :
    ∃ start trace final, Run (machine dottedQuad .little) start trace final ∧
      ∃ map map', currentMap final = some map ∧ xdpFirewall .little map ipFrame = some (.drop, map') := by
  let fresh : World := ⟨EBPFFilterHarness.create (fun _ => 2) "ens33", ⟨fun _ => none, none⟩⟩
  obtain ⟨start, loaded, isOpen⟩ : ∃ start,
      loadAndAttach fresh (.loaded 5 (some 3) true) = some (start, true) ∧
        start.openMap = some KernelMap.empty := by
    refine ⟨_, rfl, ?_⟩
    simp [World.openMap, findMapFd]
  let called := blockIp (dottedQuad.key .little) start blocked.1 true
  have taken : (machine dottedQuad .little).step start (.blockIp blocked) =
    some (called.1, .returned called.2) := rfl
  have run := Run.single taken
  obtain ⟨map, action, map', current, ran, dropped, _⟩ :=
    xdpFirewall_agrees_with_blockedIps dottedQuad .little _ _ _ 5 3 start called.1 _ loaded run ipFrame
  have member : blocked.1 ∈ called.1.harness.blockedIps := by
    rcases blockIp_cases (dottedQuad.key .little) start blocked.1 true with
      ⟨listed, done⟩ | ⟨_, _, _, _, _, _, done⟩ | ⟨_, failed, _⟩
    · simpa only [called, done] using listed
    · simp only [called, done, blockedIps_withBlocked, Finset.mem_insert_self]
    · simp [isOpen, blocked] at failed
  rw [dropped.mpr ⟨by decide, by decide, by decide, member⟩] at ran
  exact ⟨start, _, called.1, run, map, map', current, ran⟩

end SentinelLab.XdpFilter
