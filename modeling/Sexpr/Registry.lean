import Sexpr.Operation

/-!
Operations under names. Whatever has been defined keeps its id for good, so an operation taken as a
value goes on to mean what it meant, whatever is registered later.
-/
namespace Sexpr

structure Registry where
  operations : Array Operation
  bindings : List (String × Lambda)

namespace Registry

def empty : Registry := ⟨#[], []⟩

/-- An operation without a name to call it by. -/
def define (r : Registry) (op : Operation) : Lambda × Registry :=
  (⟨r.operations.size, op.name⟩, { r with operations := r.operations.push op })

/-- The last operation registered under a name is the one it means. -/
def register (r : Registry) (op : Operation) : Registry :=
  let (f, r) := r.define op
  { r with bindings := (op.name, f) :: r.bindings.filter (·.1 != op.name) }

def registerAll (r : Registry) (ops : List Operation) : Registry := ops.foldl register r

/-- Forgets the names and keeps the operations that were taken as values. -/
def clear (r : Registry) : Registry := { r with bindings := [] }

def find (r : Registry) (name : String) : Except Error Lambda :=
  match r.bindings.lookup name with
  | some f => .ok f
  | none => .error (.undefinedOperation name)

/-- What a lambda stands for; one from elsewhere stands for nothing. -/
def resolve (r : Registry) (f : Lambda) : Except Error Operation :=
  match r.operations[f.id]? with
  | some op => .ok op
  | none => .error (.undefinedOperation f.name)

def get (r : Registry) (name : String) : Except Error Operation :=
  match r.find name with
  | .ok f => r.resolve f
  | .error e => .error e

def lambda (r : Registry) (name : String) : Except Error Form := (r.find name).map Form.lambda

def apply (r : Registry) (f : Lambda) (args : List Form) : Except Error Reply :=
  match r.resolve f with
  | .ok op => op.run args
  | .error e => .error e

def call (r : Registry) (name : String) (args : List Form) : Except Error Reply :=
  match r.get name with
  | .ok op => op.run args
  | .error e => .error e

def describe (r : Registry) (name : String) : Except Error String :=
  (r.get name).map Operation.description

def has (r : Registry) (name : String) : Bool := (r.bindings.lookup name).isSome

/-- In ascending order. -/
def names (r : Registry) : List String := (r.bindings.map Prod.fst).mergeSort (· ≤ ·)

def count (r : Registry) : Nat := r.bindings.length

theorem resolve_eq_ok_iff {r : Registry} {f : Lambda} {op : Operation} :
    r.resolve f = .ok op ↔ r.operations[f.id]? = some op := by
  rw [resolve]
  cases r.operations[f.id]? <;> simp

theorem find_register_self (r : Registry) (op : Operation) :
    (r.register op).find op.name = .ok ⟨r.operations.size, op.name⟩ := by
  simp [register, define, find]

theorem lookup_filter_ne {name other : String} (h : name ≠ other) (bs : List (String × Lambda)) :
    (bs.filter (·.1 != other)).lookup name = bs.lookup name := by
  induction bs with
  | nil => rfl
  | cons b bs ih =>
    obtain ⟨key, f⟩ := b
    by_cases hk : key = other
    · have hn : (name == other) = false := by simp [h]
      simp [hk, List.lookup_cons, ih, hn]
    · simp [hk, List.lookup_cons, ih]

theorem find_register_of_ne (r : Registry) {op : Operation} {name : String}
    (h : name ≠ op.name) : (r.register op).find name = r.find name := by
  have hn : (name == op.name) = false := by simp [h]
  simp [register, define, find, List.lookup_cons, lookup_filter_ne h, hn]

theorem resolve_register_self (r : Registry) (op : Operation) :
    (r.register op).resolve ⟨r.operations.size, op.name⟩ = .ok op := by
  simp [register, define, resolve]

end Registry
end Sexpr
