import SentinelLab.Library.Transition

/-! The bounded first-in first-out queue as a specification: a relation between the contents
before and after each observable action, with refusals allowed only when they are justified. -/

namespace SentinelLab.Library.BoundedFifo
open Transition

inductive Action (Element : Type*) where
  | accepted (element : Element)
  | refused
  | delivered (element : Element)
  | foundEmpty
  | silent

variable {Element : Type*} {bound : Nat}

def Spec (bound : Nat) : List Element → Action Element → List Element → Prop
  | before, .accepted element, after => before.length < bound ∧ after = before ++ [element]
  | before, .refused, after => before.length = bound ∧ after = before
  | before, .delivered element, after => before = element :: after
  | before, .foundEmpty, after => before = [] ∧ after = []
  | before, .silent, after => after = before

def Action.input : Action Element → Option Element
  | .accepted element => some element
  | _ => none

def Action.output : Action Element → Option Element
  | .delivered element => some element
  | _ => none

def accepted (actions : List (Action Element)) : List Element := actions.filterMap Action.input

def delivered (actions : List (Action Element)) : List Element := actions.filterMap Action.output

theorem spec_conserves {before after : List Element} {action : Action Element}
    (step : Spec bound before action after) :
    before ++ action.input.toList = action.output.toList ++ after := by
  cases action <;> simp_all [Spec, Action.input, Action.output]

/-- What went in is what came out followed by what is still there: no loss, no duplication
and no reordering, at every instant of every run. -/
theorem path_conserves {start final : List Element} {actions : List (Action Element)}
    (path : Path (Spec bound) start actions final) :
    start ++ accepted actions = delivered actions ++ final := by
  induction path with
  | nil => simp [accepted, delivered]
  | @snoc actions before after action _ taken ih =>
    have last := spec_conserves taken
    have input : accepted (actions ++ [action]) = accepted actions ++ action.input.toList := by
      cases action <;> simp [accepted, Action.input]
    have output : delivered (actions ++ [action]) = delivered actions ++ action.output.toList := by
      cases action <;> simp [delivered, Action.output]
    rw [input, output, ← List.append_assoc, ih, List.append_assoc, last, List.append_assoc]

end SentinelLab.Library.BoundedFifo
