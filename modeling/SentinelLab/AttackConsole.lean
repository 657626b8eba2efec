import SentinelLab.Library.Transition

/-! The attack console: the calls of its main thread and the worker threads they start. A flag for each
attack is all they share; a worker reads it only at the top of its loop. -/

namespace SentinelLab.AttackConsole
open Library.Transition

inductive Key where
  | portScan
  | modbusSabotage
  | synFlood
  deriving DecidableEq, Repr

def Key.name : Key → String
  | .portScan => "port_scan"
  | .modbusSabotage => "modbus_sabotage"
  | .synFlood => "syn_flood"

def keys : List Key := [.portScan, .modbusSabotage, .synFlood]

/-! ## Workers -/

/-- The flag that a worker reads, and what it runs as long as the flag is set. -/
structure WorkerLoop where
  key : Key
  cmd : String
  deriving DecidableEq, Repr

def targetIp : String := "172.30.0.1"

def workerPortScan : WorkerLoop := ⟨.portScan, "nmap -sS -p 22,80,443,502,8443 " ++ targetIp⟩

def workerModbusSabotage : WorkerLoop :=
  ⟨.modbusSabotage, "sh -c \"echo 'MALICIOUS_UNAUTHORIZED_MODBUS_WRITE' | nc -w 1 " ++ targetIp ++ " 502\""⟩

def workerSynFlood : WorkerLoop := ⟨.synFlood, "hping3 --syn -p 80 --faster -c 1000 " ++ targetIp⟩

def func : Key → WorkerLoop
  | .portScan => workerPortScan
  | .modbusSabotage => workerModbusSabotage
  | .synFlood => workerSynFlood

theorem func_key (key : Key) : (func key).key = key := by
  cases key <;> rfl

def execDocker (container cmd : String) : String := "sudo docker exec " ++ container ++ " " ++ cmd

/-- At the top of the loop, or with its command and the sleep after it. -/
inductive WorkerPc where
  | top
  | busy
  deriving DecidableEq, Repr

structure Worker where
  loop : WorkerLoop
  pc : WorkerPc
  deriving DecidableEq, Repr

/-! ## The console -/

/-- The call under way in the main thread, and how far it is. -/
inductive MainPc where
  | idle
  /-- `toggle_attack` is about to read the flag. -/
  | testing (key : Key)
  | lowering (key : Key)
  | raising (key : Key)
  /-- The flag is set, the thread is about to be started. -/
  | starting (key : Key)
  | stopping (rest : List Key)
  deriving DecidableEq, Repr

structure State where
  attacksActive : Key → Bool
  workers : List Worker
  main : MainPc

def initial : State := ⟨fun _ => false, [], .idle⟩

inductive Label where
  | toggleAttack (key : Key)
  | stopAll
  /-- The main thread goes on with its call. -/
  | main
  /-- An exception ends the call. -/
  | interrupt
  /-- A worker goes on; its command may raise. -/
  | worker (index : Nat) (raises : Bool)
  deriving DecidableEq, Repr

inductive Obs where
  | silent
  | printed (text : String)
  | executed (command : String)
  deriving DecidableEq, Repr

def setFlag (flags : Key → Bool) (key : Key) (value : Bool) : Key → Bool :=
  fun other => if other = key then value else flags other

def stepMain (state : State) : Option (State × Obs) :=
  match state.main with
  | .idle => none
  | .testing key =>
    if state.attacksActive key then some ({ state with main := .lowering key }, .silent)
    else some ({ state with main := .raising key }, .silent)
  | .lowering key =>
    some
      ({ state with attacksActive := setFlag state.attacksActive key false, main := .idle },
        .printed ("\x1b[1;33m[Console] Stopped " ++ key.name ++ "\x1b[0m"))
  | .raising key =>
    some ({ state with attacksActive := setFlag state.attacksActive key true, main := .starting key }, .silent)
  | .starting key =>
    some
      ({ state with workers := state.workers ++ [⟨func key, .top⟩], main := .idle },
        .printed ("\x1b[0;31m[Console] Started " ++ key.name ++ "!\x1b[0m"))
  | .stopping [] => some ({ state with main := .idle }, .printed "\n\x1b[0;32m[Console] All attacks stopped.\x1b[0m")
  | .stopping (key :: rest) =>
    some ({ state with attacksActive := setFlag state.attacksActive key false, main := .stopping rest }, .silent)

def stepWorker (state : State) (index : Nat) (raises : Bool) : Option (State × Obs) :=
  match state.workers[index]? with
  | none => none
  | some ⟨loop, .top⟩ =>
    if state.attacksActive loop.key then
      some
        ({ state with workers := state.workers.set index ⟨loop, .busy⟩ },
          .executed (execDocker "sim-attacker" loop.cmd))
    else some ({ state with workers := state.workers.eraseIdx index }, .silent)
  | some ⟨loop, .busy⟩ =>
    if raises then some ({ state with workers := state.workers.eraseIdx index }, .silent)
    else some ({ state with workers := state.workers.set index ⟨loop, .top⟩ }, .silent)

def step (state : State) : Label → Option (State × Obs)
  | .toggleAttack key => if state.main = .idle then some ({ state with main := .testing key }, .silent) else none
  | .stopAll => if state.main = .idle then some ({ state with main := .stopping keys }, .silent) else none
  | .main => stepMain state
  | .interrupt => if state.main = .idle then none else some ({ state with main := .idle }, .silent)
  | .worker index raises => stepWorker state index raises

def console : Machine State Label Obs := ⟨step⟩

/-! ## Live workers -/

def liveKeys (state : State) : List Key := state.workers.map (·.loop.key)

/-- Each attack has at most one live worker. -/
def AtMostOnce (state : State) : Prop := ∀ key, (liveKeys state).count key ≤ 1

def Starts (state : State) (label : Label) (key : Key) : Prop := label = .main ∧ state.main = .starting key

/-- A thread is started for an attack only when no earlier worker of the attack is left: each of them has
read the lowered flag, or ended with an exception. -/
def StartsAlone (state : State) (label : Label) : Prop := ∀ key, Starts state label key → key ∉ liveKeys state

/-- The step with which a worker of the attack ends: it reads the lowered flag, or its command raises. -/
def Ends (state : State) (label : Label) (key : Key) : Prop :=
  ∃ index raises worker, label = .worker index raises ∧ state.workers[index]? = some worker ∧ worker.loop.key = key ∧
    (worker.pc = .top ∧ state.attacksActive key = false ∨ worker.pc = .busy ∧ raises = true)

theorem liveKeys_eraseIdx {state : State} {index : Nat} {worker : Worker} (found : state.workers[index]? = some worker) :
    (worker.loop.key :: liveKeys { state with workers := state.workers.eraseIdx index }).Perm (liveKeys state) := by
  obtain ⟨inside, rfl⟩ := List.getElem?_eq_some_iff.mp found
  exact (List.getElem_cons_eraseIdx_perm inside).map (·.loop.key)

theorem stepWorker_cases {state next : State} {index : Nat} {raises : Bool} {obs : Obs}
    (taken : stepWorker state index raises = some (next, obs)) :
    liveKeys next = liveKeys state ∨
      ∃ key, Ends state (.worker index raises) key ∧ (key :: liveKeys next).Perm (liveKeys state) := by
  have kept {loop : WorkerLoop} {pc : WorkerPc} (pc' : WorkerPc) (found : state.workers[index]? = some ⟨loop, pc⟩) :
      liveKeys { state with workers := state.workers.set index ⟨loop, pc'⟩ } = liveKeys state := by
    obtain ⟨inside, value⟩ := List.getElem?_eq_some_iff.mp found
    have inside' : index < (state.workers.map (·.loop.key)).length := by rwa [List.length_map]
    have same : (state.workers.map (·.loop.key))[index] = loop.key := by rw [List.getElem_map, value]
    unfold liveKeys
    rw [List.map_set, ← same, List.set_getElem_self]
  unfold stepWorker at taken
  split at taken
  next none => contradiction
  next loop found =>
    split at taken
    next active =>
      cases taken
      exact .inl (kept .busy found)
    next lowered =>
      cases taken
      have flag : state.attacksActive loop.key = false := by simpa using lowered
      exact .inr ⟨loop.key, ⟨index, raises, _, rfl, found, rfl, .inl ⟨rfl, flag⟩⟩, liveKeys_eraseIdx found⟩
  next loop found =>
    split at taken
    next raised =>
      cases taken
      exact .inr ⟨loop.key, ⟨index, raises, _, rfl, found, rfl, .inr ⟨rfl, raised⟩⟩, liveKeys_eraseIdx found⟩
    next slept =>
      cases taken
      exact .inl (kept .top found)

theorem stepMain_keys {state next : State} {obs : Obs} (taken : stepMain state = some (next, obs)) :
    (∀ key, state.main ≠ .starting key) ∧ liveKeys next = liveKeys state ∨
      ∃ key, state.main = .starting key ∧ liveKeys next = liveKeys state ++ [key] := by
  unfold stepMain at taken
  cases call : state.main with
  | starting key =>
    rw [call] at taken
    cases taken
    right
    refine ⟨key, rfl, ?_⟩
    unfold liveKeys
    rw [List.map_append, List.map_singleton, func_key]
  | testing key =>
    rw [call] at taken
    dsimp only at taken
    split at taken
    all_goals
      cases taken
      exact .inl ⟨fun key => nofun, rfl⟩
  | stopping rest =>
    rw [call] at taken
    cases rest
    all_goals
      cases taken
      exact .inl ⟨fun key => nofun, rfl⟩
  | idle =>
    rw [call] at taken
    cases taken
  | lowering | raising =>
    rw [call] at taken
    cases taken
    exact .inl ⟨fun key => nofun, rfl⟩

theorem step_cases {state next : State} {label : Label} {obs : Obs} (taken : step state label = some (next, obs)) :
    (∀ key, ¬Starts state label key) ∧ liveKeys next = liveKeys state ∨
      (∃ key, Starts state label key ∧ liveKeys next = liveKeys state ++ [key]) ∨
      ∃ key, Ends state label key ∧ (key :: liveKeys next).Perm (liveKeys state) := by
  cases label with
  | main =>
    rcases stepMain_keys taken with ⟨elsewhere, same⟩ | ⟨key, starting, more⟩
    · exact .inl ⟨fun key starts => elsewhere key starts.2, same⟩
    · exact .inr (.inl ⟨key, ⟨rfl, starting⟩, more⟩)
  | worker index raises =>
    rcases stepWorker_cases taken with same | ended
    · exact .inl ⟨fun key starts => absurd starts.1 nofun, same⟩
    · exact .inr (.inr ended)
  | toggleAttack key =>
    rw [step, Option.ite_none_right_eq_some] at taken
    cases taken.2
    exact .inl ⟨fun key starts => absurd starts.1 nofun, rfl⟩
  | stopAll =>
    rw [step, Option.ite_none_right_eq_some] at taken
    cases taken.2
    exact .inl ⟨fun key starts => absurd starts.1 nofun, rfl⟩
  | interrupt =>
    rw [step, Option.ite_none_left_eq_some] at taken
    cases taken.2
    exact .inl ⟨fun key starts => absurd starts.1 nofun, rfl⟩

/-- When a worker of an attack is gone, it has read the lowered flag or its command has raised. -/
theorem ends_of_fewer {state next : State} {label : Label} {obs : Obs} (taken : step state label = some (next, obs))
    {key : Key} (fewer : (liveKeys next).count key < (liveKeys state).count key) : Ends state label key := by
  rcases step_cases taken with ⟨_, same⟩ | ⟨started, _, more⟩ | ⟨ended, ends, left⟩
  · rw [same] at fewer
    exact absurd fewer (lt_irrefl _)
  · rw [more, List.count_append] at fewer
    omega
  · by_cases same : ended = key
    · exact same ▸ ends
    · rw [← left.count_eq, List.count_cons_of_ne same] at fewer
      exact absurd fewer (lt_irrefl _)

theorem step_atMostOnce_iff {state next : State} {label : Label} {obs : Obs} (before : AtMostOnce state)
    (taken : step state label = some (next, obs)) : AtMostOnce next ↔ StartsAlone state label := by
  rcases step_cases taken with ⟨nothing, same⟩ | ⟨key, starts, more⟩ | ⟨ended, ⟨index, raises, _, rfl, _⟩, left⟩
  · rw [AtMostOnce, same]
    exact iff_of_true before fun other starts => absurd starts (nothing other)
  · unfold AtMostOnce
    simp only [more, List.count_append]
    constructor
    · intro once other starts'
      obtain rfl : key = other := MainPc.starting.inj (starts.2.symm.trans starts'.2)
      have counted := once key
      rw [List.count_singleton_self] at counted
      exact List.count_eq_zero.mp (by omega)
    · intro alone other
      by_cases same : other = key
      · rw [same, List.count_singleton_self, List.count_eq_zero.mpr (alone key starts)]
      · rw [List.count_singleton, if_neg (by simpa using Ne.symm same)]
        exact before other
  · apply iff_of_true
    · intro other
      have counted := before other
      rw [← left.count_eq, List.count_cons] at counted
      omega
    · intro other starts
      exact absurd starts.1 nofun

/-- In every run from the idle console, each state has at most one worker for each attack exactly if no
thread is started beside an earlier worker of its attack. -/
theorem one_worker_iff {trace : List (Entry State Label Obs)} {final : State}
    (run : Run console initial trace final) :
    (∀ entry ∈ trace, AtMostOnce entry.after) ↔ ∀ entry ∈ trace, StartsAlone entry.before entry.label := by
  apply run.all_iff AtMostOnce
  · intro state label obs next before taken
    exact step_atMostOnce_iff before taken
  · intro state label obs next _ _ after
    exact after
  · exact fun key => Nat.zero_le 1

theorem one_worker_single_start : ∃ trace final, Run console initial trace final ∧
    final.workers = [⟨workerPortScan, .top⟩] ∧ ∀ entry ∈ trace, AtMostOnce entry.after := by
  have executed : ((console.exec initial [.toggleAttack .portScan, .main, .main, .main]).map fun result =>
      (result.1.all fun entry => entry.before.workers.isEmpty, result.2.workers)) =
        some (true, [⟨workerPortScan, .top⟩]) := rfl
  obtain ⟨⟨trace, final⟩, ran, result⟩ := Option.map_eq_some_iff.mp executed
  obtain ⟨unused, workers⟩ := Prod.mk.inj result
  have run := Machine.exec_run ran
  refine ⟨trace, final, run, workers, (one_worker_iff run).mpr ?_⟩
  intro entry member key _ live
  have none := List.isEmpty_iff.mp (List.all_eq_true.mp unused entry member)
  rw [liveKeys, none] at live
  exact absurd live List.not_mem_nil

/-- Start, stop and start again while the first worker sleeps: it misses the stop, and both go on. -/
def restart : List Label :=
  [.toggleAttack .portScan, .main, .main, .main, .worker 0 false, .toggleAttack .portScan, .main, .main,
    .toggleAttack .portScan, .main, .main, .main, .worker 0 false, .worker 0 false, .worker 1 false]

theorem two_workers : ∃ trace final, Run console initial trace final ∧
    final.workers = [⟨workerPortScan, .busy⟩, ⟨workerPortScan, .busy⟩] ∧ ¬AtMostOnce final := by
  have executed : ((console.exec initial restart).map fun result => result.2.workers) =
      some [⟨workerPortScan, .busy⟩, ⟨workerPortScan, .busy⟩] := rfl
  obtain ⟨⟨trace, final⟩, ran, workers⟩ := Option.map_eq_some_iff.mp executed
  refine ⟨trace, final, Machine.exec_run ran, workers, ?_⟩
  intro once
  have counted := once .portScan
  rw [liveKeys, workers] at counted
  exact absurd counted (by decide)

end SentinelLab.AttackConsole
