import Sexpr.Operation
import Sexpr.Number.Nearest

/-! Making and counting sequences. -/
namespace Sexpr.Core.Sequence

def list : Operation where
  name := "list"
  description := "Create a list from the arguments"
  arity := none
  run args := .ok { value := .list args }

def count : Operation :=
  .unary "count" "Count elements of a collection or characters of a string" fun arg =>
    match arg.length? with
    | some n => .ok (.number (Number.ofNat n))
    | none => .error (.invalidArgument arg.typeName "count")

def all : List Operation := [list, count]

end Sexpr.Core.Sequence
