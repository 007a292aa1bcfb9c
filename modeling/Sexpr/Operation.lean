import Sexpr.Form.Basic
import Sexpr.Error

/-! Operations on lists of forms. -/
namespace Sexpr

/-- What an operation gives back, and what it writes out. -/
structure Reply where
  value : Form
  output : String := ""

/-- The arity is what an operation says of itself; its `run` is what holds arguments to it. -/
structure Operation where
  name : String
  description : String
  arity : Option Nat
  run : List Form → Except Error Reply

/-- Refuses any other number of arguments than the one expected. -/
def expectArity (operation : String) (expected : Nat) (args : List Form) : Except Error Unit :=
  if args.length = expected then .ok ()
  else .error (.wrongArity operation (toString expected) args.length)

section

variable {operation : String} {expected : Nat} {args : List Form}

theorem expectArity_of_length_ne (h : args.length ≠ expected) :
    expectArity operation expected args =
      .error (.wrongArity operation (toString expected) args.length) := if_neg h

/-- Past the test the arguments are as many as expected. -/
theorem length_of_expectArity (h : expectArity operation expected args = .ok ()) :
    args.length = expected := by
  unfold expectArity at h
  split at h
  · assumption
  · cases h

end

namespace Operation

/-- An operation on a single argument, which is looked at once it is the only one. -/
def unary (name description : String) (run : Form → Except Error Form) : Operation where
  name := name
  description := description
  arity := some 1
  run args :=
    match h : expectArity name 1 args with
    | .error e => .error e
    | .ok () =>
      have hpos : 0 < args.length := by rw [length_of_expectArity h]; exact Nat.one_pos
      (run (args.get ⟨0, hpos⟩)).map ({ value := · })

variable {name description : String} {run : Form → Except Error Form} {args : List Form}

theorem unary_run_singleton (arg : Form) :
    (unary name description run).run [arg] = (run arg).map ({ value := · }) := rfl

theorem unary_run_of_length_ne (h : args.length ≠ 1) :
    (unary name description run).run args = .error (.wrongArity name "1" args.length) := by
  simp only [unary]
  split
  · rename_i e he
    cases (expectArity_of_length_ne h).symm.trans he
    rfl
  · exact absurd (length_of_expectArity ‹_›) h

end Operation
end Sexpr
