import Sexpr.Token.Basic

/-! Blocks, and the words in front that keep them for statements. No statement has a form yet. -/
namespace Sexpr

inductive Statement where
  | binding
  | function
  | conditional
  | iteration
  | loop
deriving DecidableEq, Repr

namespace Statement

def all : List Statement := [binding, function, conditional, iteration, loop]

def word : Statement → Token
  | binding => "let"
  | function => "func"
  | conditional => "if"
  | iteration => "for"
  | loop => "while"

def ofToken? (token : Token) : Option Statement := all.find? (·.word == token)

end Statement

inductive BlockKind where
  | expression
  | statement (kind : Statement)
deriving DecidableEq, Repr

namespace BlockKind

/-- The first token of a block tells its kind. -/
def ofToken (token : Token) : BlockKind :=
  match Statement.ofToken? token with
  | some kind => statement kind
  | none => expression

def describe : BlockKind → String
  | expression => "expression"
  | statement kind => "statement " ++ kind.word

end BlockKind
end Sexpr
