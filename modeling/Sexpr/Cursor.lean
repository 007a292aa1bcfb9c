import Sexpr.Reader

/-!
Reading step by step: a cursor is a place in a list of tokens and a depth of nesting. No step changes
a cursor, each gives a new one, so any place can be read from again.
-/
namespace Sexpr

structure Cursor where
  tokens : List Token
  position : Nat
  depth : Nat
deriving DecidableEq, Repr

namespace Cursor

def ofTokens (tokens : List Token) : Cursor := ⟨tokens, 0, 0⟩

/-- The tokens from the place of the cursor on. -/
def rest (c : Cursor) : List Token := c.tokens.drop c.position

def peek? (c : Cursor) : Option Token := c.tokens[c.position]?

def isAtEnd (c : Cursor) : Bool := c.tokens.length ≤ c.position

def advance (c : Cursor) : Cursor := { c with position := c.position + 1 }

def enter (c : Cursor) : Except Error Cursor :=
  if maxDepth ≤ c.depth then .error (.nestingTooDeep maxDepth)
  else .ok { c with depth := c.depth + 1 }

/-- At no depth there is nothing to leave. -/
def leave (c : Cursor) : Cursor := { c with depth := c.depth - 1 }

/-- The reader of the forms inside a form at the cursor. -/
def inner [Visiting] (c : Cursor) : Except Error Reader := Reader.inside (maxDepth - c.depth)

/-- Reads one form, and moves over its tokens. -/
def step (read : Reader) (c : Cursor) : Except Error (Form × Cursor) :=
  match read c.rest with
  | .error e => .error e
  | .ok item =>
    .ok (item.form, { c with position := c.position + (c.rest.length - item.rest.length) })

def readAtom (c : Cursor) : Except Error (Form × Cursor) := c.step Reader.atom

def readSequence [Visiting] (start close : Token) (c : Cursor) : Except Error (Form × Cursor) :=
  c.step (Reader.sequence c.inner start close)

def readMap [Visiting] (c : Cursor) : Except Error (Form × Cursor) := c.step (Reader.map c.inner)

def readExpression [Visiting] (c : Cursor) : Except Error (Form × Cursor) :=
  c.step (Reader.expression c.inner)

def readBlock [Visiting] (c : Cursor) : Except Error (Form × Cursor) := c.step (Reader.block c.inner)

/-- Reads all forms that are left. -/
def readBlocks [Visiting] (c : Cursor) : Except Error (List Form × Cursor) :=
  match Reader.forms (Reader.block c.inner) [] c.rest with
  | .error e => .error e
  | .ok forms => .ok (forms, { c with position := c.position + c.rest.length })

end Cursor
end Sexpr
