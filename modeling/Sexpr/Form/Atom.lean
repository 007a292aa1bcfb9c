import Sexpr.Form.Basic
import Sexpr.Number.Decimal
import Sexpr.Text.Quoted

/-! The form that a token stands for by itself. What is neither number, keyword, constant nor string
is a symbol, a number too large to be one included. -/
namespace Sexpr.Form

/-- The string that a token in quotes stands for. -/
def ofQuoted (token : Token) : Except Error Form :=
  match Text.Quoted.read token.toList with
  | .ok value => .ok (string (String.ofList value))
  | .error e => .error e

/-- The form of a token that is no number. -/
def ofWord (token : Token) : Except Error Form :=
  match token.toList with
  | ':' :: name => .ok (keyword (String.ofList name))
  | '"' :: _ => ofQuoted token
  | _ =>
    .ok (if token = "nil" then nil
      else if token = "true" then boolean true
      else if token = "false" then boolean false
      else symbol token)

def ofToken (token : Token) : Except Error Form :=
  match Number.ofLiteral? token.toList with
  | some value => .ok (number value)
  | none => ofWord token

end Sexpr.Form
