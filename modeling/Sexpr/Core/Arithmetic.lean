import Sexpr.Operation
import Sexpr.Number.Nearest

/-! Sums, differences, products and quotients of any number of numbers but none. -/
namespace Sexpr.Core

inductive Arithmetic where
  | add
  | subtract
  | multiply
  | divide
deriving DecidableEq, Repr

namespace Arithmetic

def symbol : Arithmetic → String
  | add => "+"
  | subtract => "-"
  | multiply => "*"
  | divide => "/"

def description : Arithmetic → String
  | add => "Sum of numbers"
  | subtract => "First number minus the rest"
  | multiply => "Product of numbers"
  | divide => "First number divided by the rest"

def combine (op : Arithmetic) (total next : Number) : Except Error Number :=
  match op with
  | add => .ok (total.add next)
  | subtract => .ok (total.sub next)
  | multiply => .ok (total.mul next)
  | divide => if next.isZero then .error (.divisionByZero op.symbol) else .ok (total.div next)

/-- Where the reduction starts, and the numbers it still takes. -/
def start (op : Arithmetic) (first : Number) (rest : List Number) : Number × List Number :=
  match op with
  | add => (Number.zero, first :: rest)
  | multiply => (Number.one, first :: rest)
  | subtract | divide => (first, rest)

/-- A division by zero on the way makes the whole result zero. -/
def reduce (op : Arithmetic) (first : Number) (rest : List Number) : Number :=
  let (seed, numbers) := op.start first rest
  match numbers.foldlM op.combine seed with
  | .ok total => total
  | .error _ => Number.zero

def number (op : Arithmetic) : Form → Except Error Number
  | .number n => .ok n
  | f => .error (.invalidArgument ("non-numeric " ++ f.typeName) op.symbol)

/-- Every argument is looked at before any is worked with. -/
def compute (op : Arithmetic) (args : List Form) : Except Error Form :=
  match args with
  | [] => .error (.wrongArity op.symbol "at least one" 0)
  | first :: rest =>
    match op.number first with
    | .error e => .error e
    | .ok first =>
      match rest.mapM op.number with
      | .error e => .error e
      | .ok rest => .ok (.number (op.reduce first rest))

def operation (op : Arithmetic) : Operation where
  name := op.symbol
  description := op.description
  arity := none
  run args := (op.compute args).map ({ value := · })

def all : List Operation := [add, subtract, multiply, divide].map operation

end Arithmetic
end Sexpr.Core
