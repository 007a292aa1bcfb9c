import Sexpr.Core.Arithmetic
import Sexpr.Core.Output
import Sexpr.Core.Predicate
import Sexpr.Core.Sequence
import Sexpr.Registry

/-! The core operations, by groups, and the version of the library that has them. -/
namespace Sexpr

def version : String := "0.1.0"

namespace Core

inductive Group where
  | arithmetic
  | output
  | sequence
  | predicate
deriving DecidableEq, Repr

def Group.operations : Group → List Operation
  | arithmetic => Arithmetic.all
  | output => Output.all
  | sequence => Sequence.all
  | predicate => Predicate.all

def operations : List Operation :=
  [Group.arithmetic, .output, .sequence, .predicate].flatMap Group.operations

end Core

/-- The core operations under their own names. -/
def Registry.core : Registry := Registry.empty.registerAll Core.operations

end Sexpr
