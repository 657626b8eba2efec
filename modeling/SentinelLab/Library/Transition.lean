import Mathlib

/-! Labelled machines with a partial step. A label carries every choice that the machine
does not make itself: the scheduler's pick, the arguments of a call and the answers of the
environment. Runs keep the states between the steps, so that a property can speak of an
instant inside a run. -/

namespace SentinelLab.Library.Transition

structure Machine (State Label Obs : Type*) where
  step : State → Label → Option (State × Obs)

structure Entry (State Label Obs : Type*) where
  before : State
  label : Label
  obs : Obs
  after : State

variable {State Label Obs : Type*}

inductive Run (machine : Machine State Label Obs) (start : State) :
    List (Entry State Label Obs) → State → Prop where
  | nil : Run machine start [] start
  | snoc {trace : List (Entry State Label Obs)} {before after : State} {label : Label} {obs : Obs}
      (earlier : Run machine start trace before)
      (taken : machine.step before label = some (after, obs)) :
      Run machine start (trace ++ [⟨before, label, obs, after⟩]) after

def Machine.exec (machine : Machine State Label Obs) :
    State → List Label → Option (List (Entry State Label Obs) × State)
  | state, [] => some ([], state)
  | state, label :: labels =>
      (machine.step state label).bind fun (next, obs) =>
        (machine.exec next labels).map fun (trace, last) => (⟨state, label, obs, next⟩ :: trace, last)

variable {machine : Machine State Label Obs} {start final : State}
  {trace : List (Entry State Label Obs)}

theorem Run.trans {middle : State} {later : List (Entry State Label Obs)}
    (first : Run machine start trace middle) (second : Run machine middle later final) :
    Run machine start (trace ++ later) final := by
  induction second with
  | nil => simpa using first
  | snoc earlier taken ih => simpa only [List.append_assoc] using ih.snoc taken

theorem Run.single {label : Label} {obs : Obs} {next : State}
    (taken : machine.step start label = some (next, obs)) :
    Run machine start [⟨start, label, obs, next⟩] next := by
  simpa using Run.nil.snoc taken

theorem Machine.exec_run {labels : List Label} (executed : machine.exec start labels = some (trace, final)) :
    Run machine start trace final := by
  induction labels generalizing start trace with
  | nil =>
    simp only [exec, Option.some.injEq, Prod.mk.injEq] at executed
    obtain ⟨rfl, rfl⟩ := executed
    exact Run.nil
  | cons label labels ih =>
    simp only [exec, Option.bind_eq_some_iff, Option.map_eq_some_iff, Prod.mk.injEq, Prod.exists] at executed
    obtain ⟨next, obs, taken, later, last, rest, rfl, rfl⟩ := executed
    exact (Run.single taken).trans (ih rest)

theorem Run.of_nil (run : Run machine start [] final) : final = start := by
  generalize nothing : ([] : List (Entry State Label Obs)) = entries at run
  cases run with
  | nil => rfl
  | snoc => simp at nothing

theorem Run.of_snoc {entry : Entry State Label Obs} (run : Run machine start (trace ++ [entry]) final) :
    Run machine start trace entry.before ∧
      machine.step entry.before entry.label = some (entry.after, entry.obs) ∧ final = entry.after := by
  generalize whole : trace ++ [entry] = entries at run
  cases run with
  | nil => simp at whole
  | snoc earlier taken =>
    obtain ⟨rfl, last⟩ := List.append_inj' whole rfl
    obtain rfl := List.singleton_inj.mp last
    exact ⟨earlier, taken, rfl⟩

theorem Run.split {first second : List (Entry State Label Obs)}
    (run : Run machine start (first ++ second) final) :
    ∃ middle, Run machine start first middle ∧ Run machine middle second final := by
  induction second using List.reverseRecOn generalizing final with
  | nil => exact ⟨final, by simpa using run, Run.nil⟩
  | append_singleton second entry ih =>
    rw [← List.append_assoc] at run
    obtain ⟨earlier, taken, rfl⟩ := run.of_snoc
    obtain ⟨middle, before, between⟩ := ih earlier
    exact ⟨middle, before, between.snoc taken⟩

theorem Run.at_entry {first second : List (Entry State Label Obs)} {entry : Entry State Label Obs}
    (run : Run machine start (first ++ entry :: second) final) :
    Run machine start first entry.before ∧
      machine.step entry.before entry.label = some (entry.after, entry.obs) ∧
      Run machine entry.after second final := by
  rw [List.append_cons] at run
  obtain ⟨after, upTo, rest⟩ := run.split
  obtain ⟨earlier, taken, rfl⟩ := upTo.of_snoc
  exact ⟨earlier, taken, rest⟩

theorem Run.of_cons {entry : Entry State Label Obs} {later : List (Entry State Label Obs)}
    (run : Run machine start (entry :: later) final) :
    entry.before = start ∧ machine.step start entry.label = some (entry.after, entry.obs) ∧
      Run machine entry.after later final := by
  rw [← List.nil_append (entry :: later)] at run
  obtain ⟨nothing, taken, rest⟩ := run.at_entry
  have same : entry.before = start := nothing.of_nil
  rw [same] at taken
  exact ⟨same, taken, rest⟩

theorem Run.last_after {first second : List (Entry State Label Obs)} {entry : Entry State Label Obs}
    (run : Run machine start (first ++ entry :: second) final) :
    ∃ last ∈ entry :: second, last.after = final := by
  induction second using List.reverseRecOn with
  | nil => exact ⟨entry, by simp, run.at_entry.2.2.of_nil.symm⟩
  | append_singleton second last _ =>
    rw [← List.cons_append, ← List.append_assoc] at run
    exact ⟨last, by simp, run.of_snoc.2.2.symm⟩

/-- The induction rule for safety: what a step preserves, a run preserves. -/
theorem Run.invariant (inv : State → Prop)
    (preserved : ∀ state label obs next, inv state → machine.step state label = some (next, obs) → inv next)
    (run : Run machine start trace final) (base : inv start) : inv final := by
  induction run with
  | nil => exact base
  | snoc _ taken ih => exact preserved _ _ _ _ ih taken

/-- The induction rule for properties of a state together with the steps that led to it. -/
theorem Run.history {inv : List (Entry State Label Obs) → State → Prop}
    (preserved : ∀ trace state label obs next, Run machine start trace state → inv trace state →
      machine.step state label = some (next, obs) → inv (trace ++ [⟨state, label, obs, next⟩]) next)
    (run : Run machine start trace final) (base : inv [] start) : inv trace final := by
  induction run with
  | nil => exact base
  | snoc earlier taken ih => exact preserved _ _ _ _ _ earlier ih taken

theorem Run.entry_invariant {inv : State → Prop}
    (preserved : ∀ state label obs next, inv state → machine.step state label = some (next, obs) → inv next)
    (run : Run machine start trace final) (base : inv start)
    {entry : Entry State Label Obs} (member : entry ∈ trace) :
    inv entry.before ∧ machine.step entry.before entry.label = some (entry.after, entry.obs) := by
  obtain ⟨first, second, rfl⟩ := List.append_of_mem member
  obtain ⟨earlier, taken, _⟩ := run.at_entry
  exact ⟨earlier.invariant _ preserved base, taken⟩

/-- When, from a good state, a step does what is wanted exactly if it meets a condition on the
state before it, a whole run does what is wanted exactly if all its steps meet the condition. -/
theorem Run.all_iff (good : State → Prop) {meets : State → Label → Prop}
    {wanted : Entry State Label Obs → Prop}
    (exact_step : ∀ state label obs next, good state → machine.step state label = some (next, obs) →
      (wanted ⟨state, label, obs, next⟩ ↔ meets state label))
    (stays : ∀ state label obs next, good state → machine.step state label = some (next, obs) →
      wanted ⟨state, label, obs, next⟩ → good next)
    (run : Run machine start trace final) (base : good start) :
    (∀ entry ∈ trace, wanted entry) ↔ ∀ entry ∈ trace, meets entry.before entry.label := by
  suffices both : ((∀ entry ∈ trace, wanted entry) ↔ ∀ entry ∈ trace, meets entry.before entry.label) ∧
      ((∀ entry ∈ trace, wanted entry) → good final) from both.1
  induction run with
  | nil => simp [base]
  | snoc earlier taken ih =>
    simp only [List.mem_append, List.mem_singleton, or_imp, forall_and, forall_eq]
    constructor
    · constructor
      · rintro ⟨before, last⟩
        exact ⟨ih.1.mp before, (exact_step _ _ _ _ (ih.2 before) taken).mp last⟩
      · rintro ⟨before, last⟩
        have reached := ih.2 (ih.1.mpr before)
        exact ⟨ih.1.mpr before, (exact_step _ _ _ _ reached taken).mpr last⟩
    · rintro ⟨before, last⟩
      exact stays _ _ _ _ (ih.2 before) taken last

/-- The rule for bounded response: where a rank never grows and falls with every step of one kind, the
goal is reached by the time as many of these steps are taken as the rank was at the start, unless it
held there. Rank and goal may look at the steps taken so far. -/
theorem Run.bounded_response {good : State → Prop} {goal : List (Entry State Label Obs) → State → Prop}
    (run : Run machine start trace final) (base : good start)
    (rank : List (Entry State Label Obs) → State → Nat) (counts : Label → Bool)
    (stays : ∀ state label obs next, good state → machine.step state label = some (next, obs) → good next)
    (settled : ∀ trace state label obs next, good state → goal trace state →
      machine.step state label = some (next, obs) → goal (trace ++ [⟨state, label, obs, next⟩]) next)
    (falls : ∀ trace state label obs next, good state → ¬goal trace state →
      machine.step state label = some (next, obs) → goal (trace ++ [⟨state, label, obs, next⟩]) next ∨
        rank (trace ++ [⟨state, label, obs, next⟩]) next + (counts label).toNat ≤ rank trace state) :
    goal trace final ∨ ¬goal [] start ∧
      rank trace final + (trace.countP fun entry => counts entry.label) ≤ rank [] start := by
  induction run with
  | nil => exact (em (goal [] start)).imp_right fun unreached => ⟨unreached, le_rfl⟩
  | @snoc trace before after label obs earlier taken ih =>
    have reachable : good before := earlier.invariant good stays base
    by_cases reached : goal trace before
    · exact Or.inl (settled _ _ _ _ _ reachable reached taken)
    · obtain ⟨unreached, paid⟩ := ih.resolve_left reached
      have last : (List.countP (fun entry => counts entry.label)
          [(⟨before, label, obs, after⟩ : Entry State Label Obs)]) = (counts label).toNat := by
        cases spent : counts label <;> simp [spent]
      refine (falls _ _ _ _ _ reachable reached taken).imp_right fun fallen => ⟨unreached, ?_⟩
      rw [List.countP_append, last]
      omega

/-- Observations along a path of a specification that is a relation on abstract states. -/
inductive Path {Abstract Action : Type*} (spec : Abstract → Action → Abstract → Prop) (start : Abstract) :
    List Action → Abstract → Prop where
  | nil : Path spec start [] start
  | snoc {actions : List Action} {before after : Abstract} {action : Action}
      (earlier : Path spec start actions before) (taken : spec before action after) :
      Path spec start (actions ++ [action]) after

/-- Refinement: if every step from a good state is a step of the specification on the abstract
states, then every run is a path of the specification. -/
theorem Run.refines {Abstract Action : Type*} {spec : Abstract → Action → Abstract → Prop}
    {good : State → Prop} (abstraction : State → Abstract) (action : Obs → Action)
    (preserved : ∀ state label obs next, good state → machine.step state label = some (next, obs) → good next)
    (simulated : ∀ state label obs next, good state → machine.step state label = some (next, obs) →
      spec (abstraction state) (action obs) (abstraction next))
    (run : Run machine start trace final) (base : good start) :
    Path spec (abstraction start) (trace.map fun entry => action entry.obs) (abstraction final) := by
  induction run with
  | nil => exact Path.nil
  | snoc earlier taken ih =>
    rw [List.map_append]
    exact ih.snoc (simulated _ _ _ _ (earlier.invariant _ preserved base) taken)

end SentinelLab.Library.Transition
