import Sexpr.Reader

/-! Reading with a stack of open forms in place of recursion. Each token is looked at once, and what
becomes of it depends on the innermost open form and on how many are open. -/
namespace Sexpr

/-- A form that is still open. The items of a list or an array are in reverse; a map may hold a key
that waits for its value. -/
inductive Frame where
  | list (items : List Form)
  | array (items : List Form)
  | map (entries : List Entry) (key : Option Form)

namespace Frame

def opened? (token : Token) : Option Frame :=
  if token = Token.openParen then some (list [])
  else if token = Token.openBracket then some (array [])
  else if token = Token.openBrace then some (map [] none)
  else none

/-- The token that closes it. -/
def closer : Frame → Token
  | list _ => Token.closeParen
  | array _ => Token.closeBracket
  | map _ _ => Token.closeBrace

/-- The form it has become when its closing token is met. -/
def close [Visiting] : Frame → Except Error Form
  | list items => .ok (.list items.reverse)
  | array items => .ok (.array items.reverse)
  | map entries none => .ok (.map entries)
  | map _ (some key) => .error (.danglingKey key.shown)

def add (f : Form) : Frame → Frame
  | list items => list (f :: items)
  | array items => array (f :: items)
  | map entries none => map entries (some f)
  | map entries (some key) => map (Form.putEntry key f entries) none

end Frame

/-- The open forms, the innermost first, and the whole ones outside of them, the last first. -/
structure Machine where
  frames : List Frame
  found : List Form

namespace Machine

def start : Machine := ⟨[], []⟩

/-- A whole form goes to the innermost open one. -/
def deliver (f : Form) : Machine → Machine
  | ⟨[], found⟩ => ⟨[], f :: found⟩
  | ⟨frame :: frames, found⟩ => ⟨frame.add f :: frames, found⟩

def closes (m : Machine) (token : Token) : Prop := ∃ frame ∈ m.frames.head?, token = frame.closer

/-- Takes a token that does not close the innermost open form. -/
def take (m : Machine) (token : Token) : Except Error Machine :=
  match Statement.ofToken? token with
  | some statement => .error (.unsupported statement.word)
  | none =>
    if Token.isCloser token then .error .unbalanced
    else
      match Frame.opened? token with
      | some frame =>
        if maxDepth ≤ m.frames.length then .error (.nestingTooDeep maxDepth)
        else .ok { m with frames := frame :: m.frames }
      | none =>
        match Form.ofToken token with
        | .error e => .error e
        | .ok form => .ok (m.deliver form)

def step [Visiting] (m : Machine) (token : Token) : Except Error Machine :=
  match m with
  | ⟨[], _⟩ => m.take token
  | ⟨frame :: frames, found⟩ =>
    if token = frame.closer then
      match frame.close with
      | .error e => .error e
      | .ok form => .ok (deliver form ⟨frames, found⟩)
    else m.take token

def run [Visiting] (m : Machine) : List Token → Except Error Machine
  | [] => .ok m
  | token :: tokens =>
    match m.step token with
    | .error e => .error e
    | .ok m => m.run tokens

/-- A form that is still open at the end of the tokens is an error. -/
def result : Machine → Except Error (List Form)
  | ⟨[], found⟩ => .ok found.reverse
  | ⟨_ :: _, _⟩ => .error .unbalanced

def finish [Visiting] (m : Machine) (tokens : List Token) : Except Error (List Form) :=
  match m.run tokens with
  | .error e => .error e
  | .ok m => m.result

def read [Visiting] (tokens : List Token) : Except Error (List Form) := start.finish tokens

end Machine
end Sexpr
