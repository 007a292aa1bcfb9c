import Sexpr.Operation

/-! Questions about a single form. -/
namespace Sexpr.Core.Predicate

def isVector : Operation :=
  .unary "vector?" "Check if value is a vector" fun arg =>
    match arg with
    | .array _ => .ok (.boolean true)
    | _ => .ok (.boolean false)

/-- An atom that has no length is not empty, but nothing is said of operations. -/
def isEmpty : Operation :=
  .unary "empty?" "Check if a list, vector, map or string is empty" fun arg =>
    match arg with
    | .nil => .ok (.boolean true)
    | .lambda _ => .error (.invalidArgument arg.typeName "empty?")
    | _ => .ok (.boolean (arg.length? == some 0))

def all : List Operation := [isVector, isEmpty]

end Sexpr.Core.Predicate
