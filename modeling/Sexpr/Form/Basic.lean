import Sexpr.Number.Basic

/-! Forms: the trees that texts are read to, and that operations take and give back. -/
namespace Sexpr

/-- An operation as a value. Its id tells it from every other, whatever their names. -/
structure Lambda where
  id : Nat
  name : String
deriving DecidableEq, Repr

inductive Form where
  | symbol (name : String)
  | keyword (name : String)
  | number (value : Number)
  | nil
  | boolean (value : Bool)
  | string (value : String)
  | identifier (name : String)
  | list (items : List Form)
  | array (items : List Form)
  | map (entries : List (Form × Form))
  | lambda (operation : Lambda)

/-- A key and its value. -/
abbrev Entry := Form × Form

namespace Form

def typeName : Form → String
  | symbol _ => "symbol"
  | keyword _ => "keyword"
  | number _ => "number"
  | nil => "nil"
  | boolean _ => "boolean"
  | string _ => "string"
  | identifier _ => "identifier"
  | list _ => "list"
  | array _ => "vector"
  | map _ => "map"
  | lambda _ => "lambda"

/-- How many elements, entries or characters there are. -/
def length? : Form → Option Nat
  | list items | array items => some items.length
  | map entries => some entries.length
  | string value => some value.length
  | _ => none

mutual

/-- Whether a form can be a key. The keys inside a map have passed this test already. -/
def isKeyable : Form → Bool
  | identifier _ | lambda _ => false
  | list items | array items => allKeyable items
  | map entries => valuesKeyable entries
  | _ => true

def allKeyable : List Form → Bool
  | [] => true
  | f :: fs => f.isKeyable && allKeyable fs

def valuesKeyable : List (Form × Form) → Bool
  | [] => true
  | (_, value) :: entries => value.isKeyable && valuesKeyable entries

end

end Form
end Sexpr
