import SentinelLab.Library.Descriptors
import SentinelLab.Library.Transition

/-! `PmuProfiler`: the descriptors of five hardware counters from `start` to `stop`, with the history
of the system calls on them. Doubles are exact rationals here. -/

namespace SentinelLab.PmuCounters
open Library.Descriptors Library.Transition

/-! ## System calls -/

/-- The commands of `perf_event` that the profiler gives. A counter is opened disabled. -/
inductive Ioctl where
  | reset
  | enable
  | disable
  deriving DecidableEq, Repr

abbrev History : Type := List (Use Ioctl)

def opened (history : History) : Table Ioctl := Table.run (fun _ => none) history

/-- What the kernel answers to `perf_event_open`: a descriptor, or the number of an error. -/
inductive Answer where
  | descriptor (fd : Nat)
  | error (errno : Nat)
  deriving DecidableEq, Repr

/-- `syscall` returns -1 for every error. -/
def Answer.result : Answer → Int
  | .descriptor fd => fd
  | .error _ => -1

/-- `none` is no behaviour of the kernel: a descriptor that is open is not handed out again. -/
def openPerfCounter (answer : Answer) (history : History) : Option (Int × History) :=
  match answer with
  | .descriptor fd =>
      if (opened history fd).isSome then none else some (answer.result, history ++ [.opened fd])
  | .error _ => some (answer.result, history)

def ioctl (fd : Int) (request : Ioctl) (history : History) : History := history ++ [.told fd.toNat request]

def ioctlIfOpen (fd : Int) (request : Ioctl) (history : History) : History :=
  if 0 ≤ fd then ioctl fd request history else history

def closeIfOpen (fd : Int) (history : History) : Int × History :=
  if 0 ≤ fd then (-1, history ++ [.closed fd.toNat]) else (fd, history)

/-- The field stays 0 where nothing is open or the read fails. -/
def readIfOpen (fd : Int) (value : Option (BitVec 64)) (history : History) : BitVec 64 × History :=
  if 0 ≤ fd then (value.getD 0, history ++ [.read fd.toNat]) else (0, history)

/-! ## The profiler -/

structure PmuMetrics where
  valid : Bool := false
  cpuCycles : BitVec 64 := 0
  instructions : BitVec 64 := 0
  llcReferences : BitVec 64 := 0
  llcMisses : BitVec 64 := 0
  busCycles : BitVec 64 := 0
  instructionsPerCycle : ℚ := 0
  llcMissRate : ℚ := 0
  deriving DecidableEq, Repr

structure PmuProfiler where
  isActive : Bool := false
  fdCycles : Int := -1
  fdInstructions : Int := -1
  fdLlcRefs : Int := -1
  fdLlcMisses : Int := -1
  fdBusCycles : Int := -1
  deriving DecidableEq, Repr

/-- One value for each counter, in the order in which they are opened. -/
structure Counters (α : Type) where
  cycles : α
  instructions : α
  llcRefs : α
  llcMisses : α
  busCycles : α
  deriving DecidableEq, Repr

def closeFds (profiler : PmuProfiler) (history : History) : PmuProfiler × History :=
  let (fdCycles, history) := closeIfOpen profiler.fdCycles history
  let (fdInstructions, history) := closeIfOpen profiler.fdInstructions history
  let (fdLlcRefs, history) := closeIfOpen profiler.fdLlcRefs history
  let (fdLlcMisses, history) := closeIfOpen profiler.fdLlcMisses history
  let (fdBusCycles, history) := closeIfOpen profiler.fdBusCycles history
  ({ profiler with fdCycles, fdInstructions, fdLlcRefs, fdLlcMisses, fdBusCycles }, history)

def start (answers : Counters Answer) (profiler : PmuProfiler) (history : History) :
    Option (Bool × PmuProfiler × History) := do
  let (profiler, history) := closeFds profiler history
  let (fdCycles, history) ← openPerfCounter answers.cycles history
  let (fdInstructions, history) ← openPerfCounter answers.instructions history
  let (fdLlcRefs, history) ← openPerfCounter answers.llcRefs history
  let (fdLlcMisses, history) ← openPerfCounter answers.llcMisses history
  let (fdBusCycles, history) ← openPerfCounter answers.busCycles history
  let profiler := { profiler with fdCycles, fdInstructions, fdLlcRefs, fdLlcMisses, fdBusCycles }
  if fdCycles < 0 ∨ fdInstructions < 0 then
    some (false, closeFds { profiler with isActive := false } history)
  else
    let history := ioctl fdCycles .reset history
    let history := ioctl fdInstructions .reset history
    let history := ioctlIfOpen fdLlcRefs .reset history
    let history := ioctlIfOpen fdLlcMisses .reset history
    let history := ioctl fdCycles .enable history
    let history := ioctl fdInstructions .enable history
    let history := ioctlIfOpen fdLlcRefs .enable history
    let history := ioctlIfOpen fdLlcMisses .enable history
    some (true, { profiler with isActive := true }, history)

def readCurrent (values : Counters (Option (BitVec 64))) (profiler : PmuProfiler) (history : History) :
    PmuMetrics × History :=
  if !profiler.isActive then ({}, history)
  else
    let (cpuCycles, history) := readIfOpen profiler.fdCycles values.cycles history
    let (instructions, history) := readIfOpen profiler.fdInstructions values.instructions history
    let (llcReferences, history) := readIfOpen profiler.fdLlcRefs values.llcRefs history
    let (llcMisses, history) := readIfOpen profiler.fdLlcMisses values.llcMisses history
    let (busCycles, history) := readIfOpen profiler.fdBusCycles values.busCycles history
    ({ valid := true
       cpuCycles, instructions, llcReferences, llcMisses, busCycles
       instructionsPerCycle := if 0 < cpuCycles then (instructions.toNat : ℚ) / cpuCycles.toNat else 0
       llcMissRate := if 0 < llcReferences then (llcMisses.toNat : ℚ) / llcReferences.toNat else 0 }, history)

def stop (values : Counters (Option (BitVec 64))) (profiler : PmuProfiler) (history : History) :
    PmuMetrics × PmuProfiler × History :=
  let (m, history) := readCurrent values profiler history
  let history := ioctlIfOpen profiler.fdCycles .disable history
  let history := ioctlIfOpen profiler.fdInstructions .disable history
  let history := ioctlIfOpen profiler.fdLlcRefs .disable history
  let history := ioctlIfOpen profiler.fdLlcMisses .disable history
  (m, closeFds { profiler with isActive := false } history)

/-! ## Sequences of calls -/

/-- A profiler, until it is destroyed, and what the process did with descriptors for it. -/
structure World where
  profiler : Option PmuProfiler
  history : History

inductive Call where
  | start (answers : Counters Answer)
  | readCurrent (values : Counters (Option (BitVec 64)))
  | stop (values : Counters (Option (BitVec 64)))
  | destroy

inductive Returned where
  | started (active : Bool)
  | metrics (m : PmuMetrics)
  | nothing

def step (world : World) (call : Call) : Option (World × Returned) :=
  world.profiler.bind fun profiler =>
    match call with
    | .start answers =>
        (start answers profiler world.history).map fun (active, profiler, history) =>
          (⟨some profiler, history⟩, .started active)
    | .readCurrent values =>
        let (m, history) := readCurrent values profiler world.history
        some (⟨some profiler, history⟩, .metrics m)
    | .stop values =>
        let (m, profiler, history) := stop values profiler world.history
        some (⟨some profiler, history⟩, .metrics m)
    | .destroy => some (⟨none, (closeFds profiler world.history).2⟩, .nothing)

def machine : Machine World Call Returned where
  step := step

def constructed : World := ⟨some {}, []⟩

/-! ## The descriptors of a profiler -/

def openFds (fields : List Int) : List Nat := (fields.filter (0 ≤ ·)).map Int.toNat

def PmuProfiler.fds (profiler : PmuProfiler) : List Int :=
  [profiler.fdCycles, profiler.fdInstructions, profiler.fdLlcRefs, profiler.fdLlcMisses, profiler.fdBusCycles]

/-- The fields whose counters are reset, enabled and disabled. -/
def PmuProfiler.driven (profiler : PmuProfiler) : List Int :=
  [profiler.fdCycles, profiler.fdInstructions, profiler.fdLlcRefs, profiler.fdLlcMisses]

theorem openFds_append (first second : List Int) : openFds (first ++ second) = openFds first ++ openFds second := by
  rw [openFds, List.filter_append, List.map_append]
  rfl

theorem openFds_single (fd : Int) : openFds [fd] = if 0 ≤ fd then [fd.toNat] else [] := by
  by_cases nonneg : 0 ≤ fd
  · rw [if_pos nonneg, openFds, List.filter_cons_of_pos (by simpa using nonneg)]
    rfl
  · rw [if_neg nonneg, openFds, List.filter_cons_of_neg (by simpa using nonneg)]
    rfl

theorem openFds_cons (fd : Int) (fields : List Int) : openFds (fd :: fields) = openFds [fd] ++ openFds fields :=
  openFds_append [fd] fields

theorem closeIfOpen_eq (fd : Int) (history : History) :
    closeIfOpen fd history = (if 0 ≤ fd then -1 else fd, history ++ (openFds [fd]).map .closed) := by
  unfold closeIfOpen
  rw [openFds_single]
  split <;> simp

theorem ioctlIfOpen_eq (fd : Int) (request : Ioctl) (history : History) :
    ioctlIfOpen fd request history = history ++ (openFds [fd]).map (Use.told · request) := by
  unfold ioctlIfOpen ioctl
  rw [openFds_single]
  split <;> simp

theorem ioctl_eq {fd : Int} (nonneg : 0 ≤ fd) (request : Ioctl) (history : History) :
    ioctl fd request history = history ++ (openFds [fd]).map (Use.told · request) := by
  rw [← ioctlIfOpen_eq, ioctlIfOpen, if_pos nonneg]

theorem readIfOpen_history (fd : Int) (value : Option (BitVec 64)) (history : History) :
    (readIfOpen fd value history).2 = history ++ (openFds [fd]).map .read := by
  unfold readIfOpen
  rw [openFds_single]
  split <;> simp

theorem closeFds_history (profiler : PmuProfiler) (history : History) :
    (closeFds profiler history).2 = history ++ (openFds profiler.fds).map .closed := by
  unfold closeFds PmuProfiler.fds
  simp only [closeIfOpen_eq, openFds_cons _ (_ :: _), List.map_append, List.append_assoc]

theorem readCurrent_history (values : Counters (Option (BitVec 64))) (profiler : PmuProfiler) (history : History) :
    (readCurrent values profiler history).2 =
      history ++ if profiler.isActive then (openFds profiler.fds).map .read else [] := by
  unfold readCurrent PmuProfiler.fds
  cases profiler.isActive with
  | false => simp
  | true =>
    simp only [Bool.not_true, Bool.false_eq_true, ↓reduceIte, readIfOpen_history, openFds_cons _ (_ :: _),
      List.map_append, List.append_assoc]

theorem stop_history (values : Counters (Option (BitVec 64))) (profiler : PmuProfiler) (history : History) :
    (stop values profiler history).2 =
      closeFds { profiler with isActive := false }
        ((readCurrent values profiler history).2 ++ (openFds profiler.driven).map (Use.told · .disable)) := by
  unfold stop PmuProfiler.driven
  simp only [ioctlIfOpen_eq, openFds_cons _ (_ :: _), List.map_append, List.append_assoc]

/-! ## Who owns the open descriptors -/

theorem opened_append (history uses : History) : opened (history ++ uses) = (opened history).run uses :=
  run_append _ history uses

/-- The history is in order, and the descriptors it leaves open are these. -/
structure Holds (fds : List Nat) (history : History) : Prop where
  orderly : Orderly (fun _ => none) history
  owns : ∀ fd, (opened history fd).isSome ↔ fd ∈ fds
  distinct : fds.Nodup

variable {fds : List Nat} {history after : History} {profiler next : PmuProfiler} {answers : Counters Answer}
  {active : Bool}

theorem Holds.closed (holds : Holds fds history) : Holds [] (history ++ fds.map .closed) := by
  have present : ∀ fd ∈ fds, (opened history fd).isSome := fun fd => (holds.owns fd).mpr
  refine ⟨(throughout_append _ _).mpr ⟨holds.orderly, orderly_closed holds.distinct present⟩, ?_, List.nodup_nil⟩
  intro fd
  rw [opened_append, run_closed]
  split
  next member => simp
  next other => exact iff_of_false (mt (holds.owns fd).mp other) List.not_mem_nil

theorem Holds.told (holds : Holds fds history) {driven : List Nat} (some_of : driven.Sublist fds) (command : Ioctl) :
    Holds fds (history ++ driven.map (Use.told · command)) := by
  have present : ∀ fd ∈ driven, (opened history fd).isSome := fun fd member =>
    (holds.owns fd).mpr (some_of.subset member)
  refine ⟨(throughout_append _ _).mpr ⟨holds.orderly, orderly_told command present⟩, ?_, holds.distinct⟩
  intro fd
  rw [opened_append, run_told (holds.distinct.sublist some_of), ← holds.owns fd]
  split <;> simp

theorem Holds.read (holds : Holds fds history) : Holds fds (history ++ fds.map .read) := by
  have present : ∀ fd ∈ fds, (opened history fd).isSome := fun fd => (holds.owns fd).mpr
  refine ⟨(throughout_append _ _).mpr ⟨holds.orderly, throughout_read.mpr present⟩, ?_, holds.distinct⟩
  intro fd
  rw [opened_append, run_read]
  exact holds.owns fd

theorem Holds.opened (holds : Holds [] history) (fresh : Orderly (opened history) (fds.map .opened)) :
    Holds fds (history ++ fds.map .opened) := by
  refine ⟨(throughout_append _ _).mpr ⟨holds.orderly, fresh⟩, ?_, (orderly_opened.mp fresh).1⟩
  intro fd
  rw [opened_append, run_opened]
  split
  next member => exact iff_of_true rfl member
  next other => exact iff_of_false (mt (holds.owns fd).mp List.not_mem_nil) other

theorem Holds.closeFds (holds : Holds (openFds profiler.fds) history) : Holds [] (closeFds profiler history).2 := by
  rw [closeFds_history]
  exact holds.closed

/-! ## What a start can do -/

theorem openPerfCounter_some {answer : Answer} {fd : Int} (opens : openPerfCounter answer history = some (fd, after)) :
    fd = answer.result ∧ after = history ++ (openFds [fd]).map .opened ∧
      Orderly (opened history) ((openFds [fd]).map .opened) := by
  unfold openPerfCounter at opens
  split at opens
  next handed =>
    split at opens
    · contradiction
    · next free =>
      simp only [Option.some.injEq, Prod.mk.injEq] at opens
      obtain ⟨rfl, rfl⟩ := opens
      refine ⟨rfl, rfl, ?_⟩
      simpa [Answer.result, openFds, Throughout, Table.Allows] using free
  next errno =>
    simp only [Option.some.injEq, Prod.mk.injEq] at opens
    obtain ⟨rfl, rfl⟩ := opens
    exact ⟨rfl, (List.append_nil history).symm, trivial⟩

def PmuProfiler.holding (active : Bool) (answers : Counters Answer) : PmuProfiler where
  isActive := active
  fdCycles := answers.cycles.result
  fdInstructions := answers.instructions.result
  fdLlcRefs := answers.llcRefs.result
  fdLlcMisses := answers.llcMisses.result
  fdBusCycles := answers.busCycles.result

def asked (answers : Counters Answer) (profiler : PmuProfiler) (history : History) : History :=
  (closeFds profiler history).2 ++ (openFds (PmuProfiler.holding true answers).fds).map .opened

def driving (profiler : PmuProfiler) (history : History) : History :=
  history ++ (openFds profiler.driven).map (Use.told · .reset) ++ (openFds profiler.driven).map (Use.told · .enable)

/-- A start closes what is open and asks for five counters that are new. It gives all back when one of the
first two is missing, and drives four of them otherwise. -/
theorem start_cases (starts : start answers profiler history = some (active, next, after)) :
    Orderly (opened (closeFds profiler history).2) ((openFds (PmuProfiler.holding true answers).fds).map .opened) ∧
      ((active = false ∧ (answers.cycles.result < 0 ∨ answers.instructions.result < 0) ∧
          (next, after) = closeFds (PmuProfiler.holding false answers) (asked answers profiler history)) ∨
        (active = true ∧ 0 ≤ answers.cycles.result ∧ 0 ≤ answers.instructions.result ∧
          next = PmuProfiler.holding true answers ∧
          after = driving (PmuProfiler.holding true answers) (asked answers profiler history))) := by
  unfold start at starts
  simp only [Option.bind_eq_bind, Option.bind_eq_some_iff, Prod.exists] at starts
  obtain ⟨_, _, cycles, _, _, instructions, _, _, llcRefs, _, _, llcMisses, _, _, busCycles, decided⟩ := starts
  obtain ⟨rfl, rfl, freshCycles⟩ := openPerfCounter_some cycles
  obtain ⟨rfl, rfl, freshInstructions⟩ := openPerfCounter_some instructions
  obtain ⟨rfl, rfl, freshLlcRefs⟩ := openPerfCounter_some llcRefs
  obtain ⟨rfl, rfl, freshLlcMisses⟩ := openPerfCounter_some llcMisses
  obtain ⟨rfl, rfl, freshBusCycles⟩ := openPerfCounter_some busCycles
  have whole : asked answers profiler history = (closeFds profiler history).2 ++
      (openFds [answers.cycles.result]).map .opened ++ (openFds [answers.instructions.result]).map .opened ++
      (openFds [answers.llcRefs.result]).map .opened ++ (openFds [answers.llcMisses.result]).map .opened ++
      (openFds [answers.busCycles.result]).map .opened := by
    unfold asked PmuProfiler.holding PmuProfiler.fds
    simp only [openFds_cons _ (_ :: _), List.map_append, List.append_assoc]
  constructor
  · unfold PmuProfiler.holding PmuProfiler.fds
    simp only [opened_append] at freshInstructions freshLlcRefs freshLlcMisses freshBusCycles
    simp only [openFds_cons _ (_ :: _), List.map_append, throughout_append]
    exact ⟨freshCycles, freshInstructions, freshLlcRefs, freshLlcMisses, freshBusCycles⟩
  · rw [← whole] at decided
    split at decided
    next missing =>
      left
      simp only [Option.some.injEq, Prod.mk.injEq] at decided
      exact ⟨decided.1.symm, missing, decided.2.symm⟩
    next found =>
      right
      simp only [Option.some.injEq, Prod.mk.injEq] at decided
      obtain ⟨rfl, rfl, rfl⟩ := decided
      rw [not_or, not_lt, not_lt] at found
      refine ⟨rfl, found.1, found.2, rfl, ?_⟩
      unfold driving PmuProfiler.driven PmuProfiler.holding
      simp only [ioctl_eq found.1, ioctl_eq found.2, ioctlIfOpen_eq, openFds_cons _ (_ :: _), List.map_append,
        List.append_assoc]

theorem closeFds_profiler (fields : ∀ fd ∈ profiler.fds, fd < 0 → fd = -1) :
    (closeFds profiler history).1 = { isActive := profiler.isActive } := by
  have closed : ∀ fd ∈ profiler.fds, (if 0 ≤ fd then -1 else fd) = -1 := by
    intro fd member
    split
    next nonneg => rfl
    next negative => exact fields fd member (not_le.mp negative)
  simp only [PmuProfiler.fds, List.forall_mem_cons, List.not_mem_nil, false_implies, implies_true, and_true] at closed
  unfold closeFds
  simp only [closeIfOpen_eq, closed]

/-! ## Every sequence of calls -/

/-- What holds of a profiler between two calls. -/
structure Settled (profiler : PmuProfiler) (history : History) : Prop where
  holds : Holds (openFds profiler.fds) history
  missing : ∀ fd ∈ profiler.fds, fd < 0 → fd = -1
  active : profiler.isActive → 0 ≤ profiler.fdCycles ∧ 0 ≤ profiler.fdInstructions
  inactive : profiler.isActive = false → ∀ fd ∈ profiler.fds, fd = -1

def Owned (world : World) : Prop :=
  match world.profiler with
  | some profiler => Settled profiler world.history
  | none => Holds [] world.history

theorem settled_closeFds (profiler : PmuProfiler) (holds : Holds (openFds profiler.fds) history)
    (missing : ∀ fd ∈ profiler.fds, fd < 0 → fd = -1) (inactive : profiler.isActive = false) :
    Settled (closeFds profiler history).1 (closeFds profiler history).2 := by
  have nothing := holds.closeFds
  rw [closeFds_profiler missing, inactive]
  have allClosed : ∀ fd ∈ ({ isActive := false } : PmuProfiler).fds, fd = -1 := by decide
  exact ⟨nothing, fun fd member _ => allClosed fd member, by decide, fun _ => allClosed⟩

theorem Answer.result_missing {answer : Answer} (missing : answer.result < 0) : answer.result = -1 := by
  cases answer with
  | descriptor fd => exact absurd missing (not_lt.mpr (Int.natCast_nonneg fd))
  | error errno => rfl

theorem holding_missing : ∀ fd ∈ (PmuProfiler.holding active answers).fds, fd < 0 → fd = -1 := by
  simp only [PmuProfiler.fds, PmuProfiler.holding, List.forall_mem_cons, List.not_mem_nil, false_implies, implies_true,
    and_true]
  exact ⟨Answer.result_missing, Answer.result_missing, Answer.result_missing, Answer.result_missing,
    Answer.result_missing⟩

theorem openFds_fds (profiler : PmuProfiler) :
    openFds profiler.fds = openFds profiler.driven ++ openFds [profiler.fdBusCycles] := by
  rw [← openFds_append]
  rfl

theorem driven_sublist : (openFds profiler.driven).Sublist (openFds profiler.fds) := by
  rw [openFds_fds]
  exact List.sublist_append_left _ _

theorem Settled.start (settled : Settled profiler history)
    (starts : start answers profiler history = some (active, next, after)) : Settled next after := by
  obtain ⟨fresh, outcome⟩ := start_cases starts
  have holds : Holds (openFds (PmuProfiler.holding true answers).fds) (asked answers profiler history) :=
    settled.holds.closeFds.opened fresh
  rcases outcome with ⟨_, _, closed⟩ | ⟨_, cycles, instructions, rfl, rfl⟩
  · have given := settled_closeFds (PmuProfiler.holding false answers) holds holding_missing rfl
    rwa [← closed] at given
  · have driven := (holds.told driven_sublist .reset).told driven_sublist .enable
    exact ⟨driven, holding_missing, fun _ => ⟨cycles, instructions⟩, nofun⟩

theorem Settled.readCurrent (settled : Settled profiler history) (values : Counters (Option (BitVec 64))) :
    Settled profiler (readCurrent values profiler history).2 := by
  rw [readCurrent_history]
  refine ⟨?_, settled.missing, settled.active, settled.inactive⟩
  split
  next active => exact settled.holds.read
  next inactive => simpa using settled.holds

theorem Settled.stop (settled : Settled profiler history) (values : Counters (Option (BitVec 64))) :
    Settled (stop values profiler history).2.1 (stop values profiler history).2.2 := by
  have held := (settled.readCurrent values).holds.told driven_sublist .disable
  rw [stop_history]
  exact settled_closeFds { profiler with isActive := false } held settled.missing rfl

theorem owned_constructed : Owned constructed := by
  have nothing : openFds (PmuProfiler.fds {}) = [] := rfl
  have allMissing : ∀ fd ∈ PmuProfiler.fds {}, fd = -1 := by decide
  refine ⟨⟨trivial, ?_, List.nodup_nil⟩, fun fd member _ => allMissing fd member, by decide, fun _ => allMissing⟩
  intro fd
  rw [nothing]
  exact iff_of_false Bool.false_ne_true List.not_mem_nil

variable {world later : World} {call : Call} {returned : Returned}

theorem step_cases (taken : machine.step world call = some (later, returned)) :
    ∃ profiler, world.profiler = some profiler ∧
      ((∃ answers active started after, call = .start answers ∧
          start answers profiler world.history = some (active, started, after) ∧ later = ⟨some started, after⟩) ∨
        (∃ values, call = .readCurrent values ∧
          later = ⟨some profiler, (readCurrent values profiler world.history).2⟩) ∨
        (∃ values, call = .stop values ∧
          later = ⟨some (stop values profiler world.history).2.1, (stop values profiler world.history).2.2⟩) ∨
        (call = .destroy ∧ later = ⟨none, (closeFds profiler world.history).2⟩)) := by
  obtain ⟨profiler, present, decided⟩ := Option.bind_eq_some_iff.mp taken
  refine ⟨profiler, present, ?_⟩
  cases call with
  | start answers =>
    simp only [Option.map_eq_some_iff, Prod.exists, Prod.mk.injEq] at decided
    obtain ⟨active, started, after, starts, rfl, _⟩ := decided
    exact .inl ⟨answers, active, started, after, rfl, starts, rfl⟩
  | readCurrent values =>
    simp only [Option.some.injEq, Prod.mk.injEq] at decided
    exact .inr (.inl ⟨values, rfl, decided.1.symm⟩)
  | stop values =>
    simp only [Option.some.injEq, Prod.mk.injEq] at decided
    exact .inr (.inr (.inl ⟨values, rfl, decided.1.symm⟩))
  | destroy =>
    simp only [Option.some.injEq, Prod.mk.injEq] at decided
    exact .inr (.inr (.inr ⟨rfl, decided.1.symm⟩))

theorem Owned.settled (owned : Owned world) (present : world.profiler = some profiler) :
    Settled profiler world.history := by
  unfold Owned at owned
  rwa [present] at owned

theorem step_owned (owned : Owned world) (taken : machine.step world call = some (later, returned)) : Owned later := by
  obtain ⟨profiler, present, outcome⟩ := step_cases taken
  have settled := owned.settled present
  rcases outcome with ⟨answers, active, started, after, _, starts, rfl⟩ | ⟨values, _, rfl⟩ | ⟨values, _, rfl⟩ |
    ⟨_, rfl⟩
  · exact settled.start starts
  · exact settled.readCurrent values
  · exact settled.stop values
  · exact settled.holds.closeFds

/-- After every call of every sequence the open descriptors are the ones in the fields, each once; none was
closed twice, and a profiler that is destroyed leaves none. -/
theorem descriptors_owned {trace : List (Entry World Call Returned)} {final : World}
    (run : Run machine constructed trace final) :
    ∀ entry ∈ trace, Owned entry.after ∧
      (entry.label = .destroy → ∀ fd, opened entry.after.history fd = none) := by
  intro entry member
  obtain ⟨before, taken⟩ := run.entry_invariant (fun _ _ _ _ => step_owned) owned_constructed member
  have owned := step_owned before taken
  refine ⟨owned, ?_⟩
  intro destroyed fd
  have gone : entry.after.profiler = none := by
    rw [destroyed] at taken
    obtain ⟨profiler, _, outcome⟩ := step_cases taken
    rcases outcome with ⟨_, _, _, _, same, _⟩ | ⟨_, same, _⟩ | ⟨_, same, _⟩ | ⟨_, after⟩
    · contradiction
    · contradiction
    · contradiction
    · rw [after]
  unfold Owned at owned
  rw [gone] at owned
  simpa using mt (owned.owns fd).mp List.not_mem_nil

private def sampleCalls : List Call :=
  [.start ⟨.descriptor 3, .descriptor 4, .error 2, .error 2, .descriptor 5⟩,
    .readCurrent ⟨none, none, none, none, none⟩,
    .start ⟨.descriptor 3, .error 24, .descriptor 4, .error 24, .error 24⟩, .destroy]

theorem descriptors_owned_after_restart :
    ∃ trace final, machine.exec constructed sampleCalls = some (trace, final) ∧
      ∀ entry ∈ trace, Owned entry.after ∧
        (entry.label = .destroy → ∀ fd, opened entry.after.history fd = none) := by
  obtain ⟨⟨trace, final⟩, executed⟩ : ∃ result, machine.exec constructed sampleCalls = some result := ⟨_, rfl⟩
  exact ⟨trace, final, executed, descriptors_owned (Machine.exec_run executed)⟩

/-! ## Which counters run -/

/-- The counter was reset and then enabled since it was opened, and not disabled. -/
def Counting (table : Table Ioctl) (fd : Nat) : Prop :=
  ∃ commands, table fd = some commands ∧ [.reset, .enable].Sublist commands ∧ .disable ∉ commands

/-- While the profiler is active, all its counters run. -/
def Running (world : World) : Prop :=
  ∀ profiler, world.profiler = some profiler → profiler.isActive → ∀ fd ∈ openFds profiler.fds,
    Counting (opened world.history) fd

/-- A value is read from a counter that runs. -/
def ReadsCounting (table : Table Ioctl) : Use Ioctl → Prop
  | .read fd => Counting table fd
  | _ => True

def Reported (history : History) : Prop := Throughout ReadsCounting (fun _ => none) history

/-- A start that gets the two obligatory counters gets none for the bus cycles. -/
def NoBusCounter : Call → Prop
  | .start answers =>
      0 ≤ answers.cycles.result → 0 ≤ answers.instructions.result → answers.busCycles.result < 0
  | _ => True

theorem reported_append (history uses : History) :
    Reported (history ++ uses) ↔ Reported history ∧ Throughout ReadsCounting (opened history) uses :=
  throughout_append history uses

theorem reads_nothing (use : Nat → Use Ioctl) (other : ∀ fd table, ReadsCounting table (use fd))
    {table : Table Ioctl} {fds : List Nat} : Throughout ReadsCounting table (fds.map use) := by
  apply throughout_of_all
  intro made member table
  obtain ⟨fd, _, rfl⟩ := List.mem_map.mp member
  exact other fd table

theorem Reported.closeFds (reported : Reported history) : Reported (closeFds profiler history).2 := by
  rw [closeFds_history, reported_append]
  exact ⟨reported, reads_nothing .closed fun _ _ => trivial⟩

theorem Reported.told (reported : Reported history) (fds : List Nat) (command : Ioctl) :
    Reported (history ++ fds.map (Use.told · command)) :=
  (reported_append _ _).mpr ⟨reported, reads_nothing (Use.told · command) fun _ _ => trivial⟩

theorem Reported.asked (reported : Reported history) : Reported (asked answers profiler history) :=
  (reported_append _ _).mpr ⟨reported.closeFds, reads_nothing .opened fun _ _ => trivial⟩

theorem Reported.start (reported : Reported history)
    (starts : start answers profiler history = some (active, next, after)) : Reported after := by
  obtain ⟨_, outcome⟩ := start_cases starts
  rcases outcome with ⟨_, _, closed⟩ | ⟨_, _, _, _, rfl⟩
  · rw [Prod.mk.injEq] at closed
    rw [closed.2]
    exact reported.asked.closeFds
  · exact (reported.asked.told _ .reset).told _ .enable

theorem Reported.readCurrent (reported : Reported history) (values : Counters (Option (BitVec 64)))
    (running : Running ⟨some profiler, history⟩) : Reported (readCurrent values profiler history).2 := by
  rw [readCurrent_history, reported_append]
  refine ⟨reported, ?_⟩
  split
  next active => exact throughout_read.mpr (running profiler rfl active)
  next inactive => exact trivial

theorem Reported.stop (reported : Reported history) (values : Counters (Option (BitVec 64)))
    (running : Running ⟨some profiler, history⟩) : Reported (stop values profiler history).2.2 := by
  rw [stop_history]
  exact ((reported.readCurrent values running).told _ .disable).closeFds

/-! ## What runs after a start -/

theorem opened_driving (holds : Holds [] (closeFds profiler history).2)
    (fresh : Orderly (opened (closeFds profiler history).2)
      ((openFds (PmuProfiler.holding true answers).fds).map .opened))
    (fd : Nat) :
    opened (driving (PmuProfiler.holding true answers) (asked answers profiler history)) fd =
      if fd ∈ openFds (PmuProfiler.holding true answers).driven then some [.reset, .enable]
      else if fd ∈ openFds (PmuProfiler.holding true answers).fds then some [] else none := by
  have distinct : (openFds (PmuProfiler.holding true answers).driven).Nodup :=
    (orderly_opened.mp fresh).1.sublist driven_sublist
  have before : opened (closeFds profiler history).2 fd = none := by
    simpa using mt (holds.owns fd).mp List.not_mem_nil
  unfold driving asked
  rw [opened_append, run_told distinct, opened_append, run_told distinct, opened_append, run_opened, before]
  split
  next driven =>
    rw [if_pos (driven_sublist.subset driven)]
    rfl
  next other => rfl

theorem counting_iff_driven (holds : Holds [] (closeFds profiler history).2)
    (fresh : Orderly (opened (closeFds profiler history).2)
      ((openFds (PmuProfiler.holding true answers).fds).map .opened))
    (fd : Nat) :
    Counting (opened (driving (PmuProfiler.holding true answers) (asked answers profiler history))) fd ↔
      fd ∈ openFds (PmuProfiler.holding true answers).driven := by
  unfold Counting
  rw [opened_driving holds fresh fd]
  split
  next driven => simp [driven]
  next other =>
    split <;> simp [other]

theorem all_driven_iff (distinct : (openFds profiler.fds).Nodup) :
    (∀ fd ∈ openFds profiler.fds, fd ∈ openFds profiler.driven) ↔ profiler.fdBusCycles < 0 := by
  rw [openFds_fds] at distinct ⊢
  constructor
  · intro all
    by_contra present
    have bus : profiler.fdBusCycles.toNat ∈ openFds [profiler.fdBusCycles] := by
      simp [openFds_single, not_lt.mp present]
    exact (List.nodup_append.mp distinct).2.2 _ (all _ (List.mem_append_right _ bus)) _ bus rfl
  · intro missing fd member
    simpa [openFds_single, not_le.mpr missing] using member

theorem running_of_inactive (inactive : profiler.isActive = false) : Running ⟨some profiler, history⟩ := by
  rintro _ ⟨⟩ active
  simp [inactive] at active

theorem running_start_iff (settled : Settled profiler history)
    (starts : start answers profiler history = some (active, next, after)) :
    Running ⟨some next, after⟩ ↔ NoBusCounter (.start answers) := by
  obtain ⟨fresh, outcome⟩ := start_cases starts
  rcases outcome with ⟨_, missing, closed⟩ | ⟨_, cycles, instructions, rfl, rfl⟩
  · rw [Prod.ext_iff] at closed
    have inactive : next.isActive = false := congrArg PmuProfiler.isActive closed.1
    apply iff_of_true (running_of_inactive inactive)
    intro cycles instructions
    omega
  · calc Running ⟨some (PmuProfiler.holding true answers),
          driving (PmuProfiler.holding true answers) (asked answers profiler history)⟩
        ↔ ∀ fd ∈ openFds (PmuProfiler.holding true answers).fds,
            fd ∈ openFds (PmuProfiler.holding true answers).driven := by
          simp only [Running, Option.some.injEq, forall_eq', counting_iff_driven settled.holds.closeFds fresh]
          exact forall_prop_of_true rfl
      _ ↔ answers.busCycles.result < 0 := all_driven_iff (orderly_opened.mp fresh).1
      _ ↔ NoBusCounter (.start answers) := by simp [NoBusCounter, cycles, instructions]

theorem Running.readCurrent (running : Running ⟨some profiler, history⟩) (values : Counters (Option (BitVec 64))) :
    Running ⟨some profiler, (readCurrent values profiler history).2⟩ := by
  rintro _ ⟨⟩ active
  rw [readCurrent_history, if_pos active, opened_append, run_read]
  exact running profiler rfl active

/-- What is wanted after every call: the counters run, and only counters that run were read. -/
def Live (world : World) : Prop := Running world ∧ Reported world.history

theorem step_live_iff (owned : Owned world) (live : Live world)
    (taken : machine.step world call = some (later, returned)) : Live later ↔ NoBusCounter call := by
  obtain ⟨profiler, present, outcome⟩ := step_cases taken
  have settled := owned.settled present
  obtain ⟨running, reported⟩ := live
  have runs : Running ⟨some profiler, world.history⟩ := by
    rw [← present]
    exact running
  rcases outcome with ⟨answers, active, started, after, rfl, starts, rfl⟩ | ⟨values, rfl, rfl⟩ | ⟨values, rfl, rfl⟩ |
    ⟨rfl, rfl⟩
  · rw [← running_start_iff settled starts]
    exact and_iff_left (reported.start starts)
  · exact iff_of_true ⟨runs.readCurrent values, reported.readCurrent values runs⟩ trivial
  · have inactive : (stop values profiler world.history).2.1.isActive = false := rfl
    exact iff_of_true ⟨running_of_inactive inactive, reported.stop values runs⟩ trivial
  · exact iff_of_true ⟨nofun, reported.closeFds⟩ trivial

/-- Over every sequence of calls: all counters of an active profiler run and only such are read, exactly if
no start that succeeds is given a counter for the bus cycles. -/
theorem counters_run_iff {trace : List (Entry World Call Returned)} {final : World}
    (run : Run machine constructed trace final) :
    (∀ entry ∈ trace, Live entry.after) ↔ ∀ entry ∈ trace, NoBusCounter entry.label := by
  let good : World → Prop := fun world => Owned world ∧ Live world
  have base : good constructed := ⟨owned_constructed, running_of_inactive rfl, trivial⟩
  refine @Run.all_iff _ _ _ machine constructed final trace good (fun _ call => NoBusCounter call)
    (fun entry => Live entry.after) ?_ ?_ run base
  · intro world call returned later ⟨owned, live⟩ taken
    exact step_live_iff owned live taken
  · intro world call returned later ⟨owned, _⟩ taken live
    exact ⟨step_owned owned taken, live⟩

private def noBusCalls : List Call :=
  [.start ⟨.descriptor 3, .descriptor 4, .descriptor 5, .error 2, .error 2⟩,
    .readCurrent ⟨some 70, some 90, some 8, none, none⟩, .stop ⟨some 80, some 99, some 9, none, none⟩, .destroy]

theorem counters_run_iff_no_bus :
    ∃ trace final, machine.exec constructed noBusCalls = some (trace, final) ∧ ∀ entry ∈ trace, Live entry.after := by
  obtain ⟨⟨trace, final⟩, executed⟩ : ∃ result, machine.exec constructed noBusCalls = some result := ⟨_, rfl⟩
  refine ⟨trace, final, executed, ?_⟩
  apply (counters_run_iff (Machine.exec_run executed)).mpr
  cases executed
  simp [NoBusCounter, Answer.result]

private def allCounters : Counters Answer :=
  ⟨.descriptor 3, .descriptor 4, .descriptor 5, .descriptor 6, .descriptor 7⟩

/-- A start that succeeds with all five counters leaves the last one as it was opened, disabled. -/
theorem bus_counter_never_enabled :
    ∃ trace final, Run machine constructed trace final ∧ final.profiler = some (PmuProfiler.holding true allCounters) ∧
      ¬Counting (opened final.history) 7 ∧ ¬Live final := by
  let after : History := driving (PmuProfiler.holding true allCounters) (asked allCounters {} [])
  have silent : ¬Counting (opened after) 7 := by
    rintro ⟨commands, told, counting, _⟩
    cases told
    exact absurd (counting.subset List.mem_cons_self) List.not_mem_nil
  have started : machine.step constructed (.start allCounters) =
      some (⟨some (PmuProfiler.holding true allCounters), after⟩, .started true) := rfl
  refine ⟨_, _, Run.single started, rfl, silent, ?_⟩
  intro live
  exact silent (live.1 _ rfl rfl 7 (by decide))

end SentinelLab.PmuCounters
