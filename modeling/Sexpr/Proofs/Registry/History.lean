import Sexpr.Core.Basic

/-! What is done with a registry, one thing after the other, and what all of it keeps: no operation is
lost, no name is bound twice, and each is bound to the last operation registered under it. -/
namespace Sexpr.Registry

inductive Action where
  | register (op : Operation)
  -- A group is registered one operation after the other.
  | registerAll (ops : List Operation)
  -- An operation of its own, taken as a value and never named.
  | define (op : Operation)
  | find (name : String)
  | call (name : String) (args : List Form)
  | apply (f : Lambda) (args : List Form)

/-- To look something up or to call it changes nothing. -/
def step (r : Registry) : Action → Registry
  | .register op => r.register op
  | .registerAll ops => r.registerAll ops
  | .define op => (r.define op).2
  | .find _ | .call _ _ | .apply _ _ => r

def run (r : Registry) (actions : List Action) : Registry := actions.foldl step r

/-- What an action registers, the last at the end. -/
def Action.registered : Action → List Operation
  | register op => [op]
  | registerAll ops => ops
  | define _ | find _ | call _ _ | apply _ _ => []

def registered (actions : List Action) : List Operation := actions.flatMap Action.registered

/-- A registry that can be come to, and the operations registered on the way. -/
inductive Reached : List Operation → Registry → Prop where
  | empty : Reached [] empty
  | core : Reached Core.operations core
  | step {ops : List Operation} {r : Registry} (h : Reached ops r) (action : Action) :
    Reached (ops ++ action.registered) (r.step action)

variable {r s : Registry} {ops : List Operation} {op : Operation} {name : String} {f : Lambda}
  {actions : List Action}

/-- Whatever is done with a registry that can be come to, the outcome can be come to as well. -/
theorem reached_run (h : Reached ops r) (actions : List Action) :
    Reached (ops ++ registered actions) (r.run actions) := by
  induction actions generalizing ops r with
  | nil => rwa [registered, List.flatMap_nil, List.append_nil]
  | cons action actions ih =>
    rw [registered, List.flatMap_cons, ← List.append_assoc]
    exact ih (h.step action)

/-! Induction over all that is done: only single operations have to be looked at. -/

section Induction

variable {P : List Operation → Registry → Prop}
  (hregister : ∀ {ops r} op, P ops r → P (ops ++ [op]) (r.register op))
  (hdefine : ∀ {ops r} op, P ops r → P ops (r.define op).2)

include hregister

/-- A group keeps what each of its operations keeps. -/
theorem registerAll_induction (h : P ops r) (more : List Operation) :
    P (ops ++ more) (r.registerAll more) := by
  induction more generalizing ops r with
  | nil => rwa [List.append_nil]
  | cons op more ih =>
    have hmore := ih (hregister op h)
    rwa [List.append_assoc] at hmore

include hdefine

theorem step_induction (h : P ops r) (action : Action) :
    P (ops ++ action.registered) (r.step action) := by
  cases action with
  | register op => exact hregister op h
  | registerAll more => exact registerAll_induction hregister h more
  | define op =>
    rw [Action.registered, List.append_nil]
    exact hdefine op h
  | find | call | apply => rwa [Action.registered, List.append_nil]

/-- What an empty history has, and registering and defining keep, holds after all that is done. -/
theorem run_induction (h : P [] r) (actions : List Action) :
    P (registered actions) (r.run actions) := by
  have hall : ∀ ops r, P ops r → P (ops ++ registered actions) (r.run actions) := by
    induction actions with
    | nil => simp [registered, run]
    | cons action actions ih =>
      intro ops r h
      rw [registered, List.flatMap_cons, ← List.append_assoc]
      exact ih _ _ (step_induction hregister hdefine h action)
  exact hall [] r h

theorem reached_induction (hempty : P [] empty) (h : Reached ops r) : P ops r := by
  induction h with
  | empty => exact hempty
  | core => exact registerAll_induction hregister hempty Core.operations
  | step _ action ih => exact step_induction hregister hdefine ih action

end Induction

/-! Nothing is lost. -/

/-- Whatever has been defined is still there, under the same id. -/
def Extends (r s : Registry) : Prop :=
  ∀ (id : Nat) (op : Operation), r.operations[id]? = some op → s.operations[id]? = some op

theorem Extends.refl (r : Registry) : Extends r r := fun _ _ h => h

theorem Extends.size_le (h : Extends r s) : r.operations.size ≤ s.operations.size := by
  refine Nat.not_lt.mp fun hid => ?_
  have hfound := h _ _ (Array.getElem?_eq_getElem hid)
  exact absurd (Array.getElem?_eq_some_iff.mp hfound).1 (Nat.lt_irrefl _)

theorem Extends.define (h : Extends r s) (op : Operation) : Extends r (s.define op).2 := by
  intro id known hknown
  have hsome := h id known hknown
  have hne : id ≠ s.operations.size := Nat.ne_of_lt (Array.getElem?_eq_some_iff.mp hsome).1
  rwa [Registry.define, Array.getElem?_push, if_neg hne]

theorem Extends.register (h : Extends r s) (op : Operation) : Extends r (s.register op) :=
  h.define op

/-- Whatever is done, no operation is lost or moved to another id. -/
theorem extends_run (r : Registry) (actions : List Action) : Extends r (r.run actions) :=
  run_induction (P := fun _ s => Extends r s) (fun op h => h.register op) (fun op h => h.define op)
    (Extends.refl r) actions

/-- A value taken from a registry goes on to mean the same operation. -/
theorem Extends.resolve (h : Extends r s) (hf : r.resolve f = .ok op) : s.resolve f = .ok op :=
  resolve_eq_ok_iff.mpr (h f.id op (resolve_eq_ok_iff.mp hf))

end Sexpr.Registry
