import Sexpr.Block
import Sexpr.Form.Atom
import Sexpr.Form.Key
import Sexpr.Form.Printer
import Sexpr.Token.Scan

/-!
Reading forms off the front of a list of tokens. A reader of lists, arrays and maps is given the
reader of the forms inside, and there is none once too many of them are open, so that nesting is
bounded by construction.
-/
namespace Sexpr

/-- How many lists, arrays and maps may be open at once. -/
def maxDepth : Nat := 256

/-- A form read off the front of some tokens, and the tokens after it. -/
structure Reading (tokens : List Token) where
  form : Form
  rest : List Token
  shorter : rest.length < tokens.length

abbrev Reader := (tokens : List Token) → Except Error (Reading tokens)

namespace Reader

/-- Reads forms up to a closing token, after those that are `found`, the last of which comes first. -/
def items (read : Reader) (close : Token) (found : List Form) (tokens : List Token) :
    Except Error (List Form × List Token) :=
  match tokens with
  | [] => .error .unbalanced
  | token :: rest =>
    if token = close then .ok (found.reverse, rest)
    else
      match read (token :: rest) with
      | .error e => .error e
      | .ok item => items read close (item.form :: found) item.rest
termination_by tokens.length
decreasing_by exact item.shorter

/-- A key is looked at before its value is: one without a value is refused first, and the error shows it
as the run visits it. -/
def entryKey [Visiting] (key : Form) : List Token → Except Error Key
  | [] => .error .unbalanced
  | token :: _ =>
    if token = Token.closeBrace then .error (.danglingKey key.shown) else key.key?

/-- Reads entries up to a closing brace into those that are `found`. -/
def entries [Visiting] (read : Reader) (found : List Entry) (tokens : List Token) :
    Except Error (List Entry × List Token) :=
  match tokens with
  | [] => .error .unbalanced
  | token :: rest =>
    if token = Token.closeBrace then .ok (found, rest)
    else
      match read (token :: rest) with
      | .error e => .error e
      | .ok item =>
        match entryKey item.form item.rest with
        | .error e => .error e
        | .ok key =>
          match read item.rest with
          | .error e => .error e
          | .ok value => entries read (Form.insertEntry key value.form found) value.rest
termination_by tokens.length
decreasing_by exact Nat.lt_trans value.shorter item.shorter

theorem items_shorter {read : Reader} {close : Token} {found fs : List Form}
    {tokens rest : List Token} (h : items read close found tokens = .ok (fs, rest)) :
    rest.length < tokens.length := by
  fun_induction items read close found tokens with
  | case1 => cases h
  | case2 => cases h; simp
  | case3 => cases h
  | case4 _ _ _ _ item _ ih => exact Nat.lt_trans (ih h) item.shorter

theorem entries_shorter [Visiting] {read : Reader} {found es : List Entry} {tokens rest : List Token}
    (h : entries read found tokens = .ok (es, rest)) : rest.length < tokens.length := by
  fun_induction entries read found tokens with
  | case1 => cases h
  | case2 => cases h; simp
  | case3 => cases h
  | case4 => cases h
  | case5 => cases h
  | case6 _ _ _ _ item _ _ _ value _ ih =>
    exact Nat.lt_trans (ih h) (Nat.lt_trans value.shorter item.shorter)

def atom : Reader
  | [] => .error .unexpectedEnd
  | token :: rest =>
    match Form.ofToken token with
    | .error e => .error e
    | .ok form => .ok ⟨form, rest, Nat.lt_succ_self _⟩

/-- Reads what stands between two tokens: a list after an opening parenthesis, else an array. -/
def sequence (inner : Except Error Reader) (start close : Token) : Reader
  | [] => .error (.expected start)
  | token :: rest =>
    if token = start then
      match inner with
      | .error e => .error e
      | .ok read =>
        match h : items read close [] rest with
        | .error e => .error e
        | .ok (fs, after) =>
          .ok ⟨if start = Token.openParen then .list fs else .array fs, after,
            Nat.lt_succ_of_lt (items_shorter h)⟩
    else .error (.expected start)

def map [Visiting] (inner : Except Error Reader) : Reader
  | [] => .error (.expected Token.openBrace)
  | token :: rest =>
    if token = Token.openBrace then
      match inner with
      | .error e => .error e
      | .ok read =>
        match h : entries read [] rest with
        | .error e => .error e
        | .ok (es, after) => .ok ⟨.map es, after, Nat.lt_succ_of_lt (entries_shorter h)⟩
    else .error (.expected Token.openBrace)

def expression [Visiting] (inner : Except Error Reader) : Reader
  | [] => .error .unexpectedEnd
  | token :: rest =>
    if token = Token.openParen then
      sequence inner Token.openParen Token.closeParen (token :: rest)
    else if token = Token.openBracket then
      sequence inner Token.openBracket Token.closeBracket (token :: rest)
    else if token = Token.openBrace then map inner (token :: rest)
    else if Token.isCloser token then .error .unbalanced
    else atom (token :: rest)

/-- Reads an expression, unless the first token belongs to statements. -/
def block [Visiting] (inner : Except Error Reader) : Reader
  | [] => .error .unexpectedEnd
  | token :: rest =>
    match BlockKind.ofToken token with
    | .statement kind => .error (.unsupported kind.word)
    | .expression => expression inner (token :: rest)

/-- The reader of forms inside another one, where that many more may be opened. -/
def inside [Visiting] : Nat → Except Error Reader
  | 0 => .error (.nestingTooDeep maxDepth)
  | levels + 1 => .ok (block (inside levels))

/-- Reads all forms, after those that are `found`, the last of which comes first. -/
def forms (read : Reader) (found : List Form) (tokens : List Token) : Except Error (List Form) :=
  match tokens with
  | [] => .ok found.reverse
  | token :: rest =>
    match read (token :: rest) with
    | .error e => .error e
    | .ok item => forms read (item.form :: found) item.rest
termination_by tokens.length
decreasing_by exact item.shorter

end Reader

/-- All forms of a list of tokens. -/
def readTokens [Visiting] (tokens : List Token) : Except Error (List Form) :=
  Reader.forms (Reader.block (Reader.inside maxDepth)) [] tokens

/-- All forms of a text, or the first error in it. -/
def read [Visiting] (text : String) : Except Error (List Form) := readTokens (tokenize text)

/-- All forms of a text, and none if there is an error in it. -/
def readOrNone [Visiting] (text : String) : List Form :=
  match read text with
  | .ok forms => forms
  | .error _ => []

end Sexpr
