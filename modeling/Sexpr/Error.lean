/-! The causes of failure, the phase each belongs to, and their wording. -/
namespace Sexpr

inductive Error where
  | unexpectedEnd
  | unbalanced
  | invalidMapKey
  | danglingKey (key : String)
  | invalidInput (reason : String)
  | invalidForm (reason : String)
  | nestingTooDeep (limit : Nat)
  | wrongArity (operation expected : String) (found : Nat)
  | invalidArgument (argument operation : String)
  | divisionByZero (operation : String)
  | undefinedOperation (name : String)
  | output (reason : String)
deriving DecidableEq, Repr

/-- Whether a text could not be read, or a form not be worked with. -/
inductive Phase where
  | reading
  | evaluation
deriving DecidableEq, Repr

namespace Error

def phase : Error → Phase
  | unexpectedEnd | unbalanced | invalidMapKey | danglingKey _ | invalidInput _ | invalidForm _
  | nestingTooDeep _ => .reading
  | wrongArity .. | invalidArgument .. | divisionByZero _ | undefinedOperation _ | output _ =>
    .evaluation

def message : Error → String
  | unexpectedEnd => "Unexpected end of input"
  | unbalanced => "Unbalanced parentheses"
  | invalidMapKey => "Invalid map key"
  | danglingKey key => "Map literal has a key without a value: " ++ key
  | invalidInput reason => "Invalid input: " ++ reason
  | invalidForm reason => "Invalid syntax: " ++ reason
  | nestingTooDeep limit => "Nesting too deep: more than " ++ toString limit ++ " levels"
  | wrongArity operation expected found =>
    "Wrong number of arguments in " ++ operation ++ ": expected " ++ expected ++ ", found "
      ++ toString found
  | invalidArgument argument operation => "Invalid argument " ++ argument ++ " in " ++ operation
  | divisionByZero operation => "Division by zero in " ++ operation
  | undefinedOperation name => "Undefined builtin: " ++ name
  | output reason => "I/O error: " ++ reason

def unterminated : Error := invalidInput "Invalid string termination"

def badEscape (c : Char) : Error := invalidInput ("Invalid escape sequence \\" ++ String.singleton c)

def expected (token : String) : Error := invalidForm ("Expected `" ++ token ++ "`")

def unsupported (statement : String) : Error :=
  invalidForm ("`" ++ statement ++ "` statements are not supported")

end Error
end Sexpr
