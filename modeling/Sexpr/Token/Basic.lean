import Sexpr.Text.Blank
import Sexpr.Text.Word

/-! Tokens, and the classes of characters that decide where one starts and ends. -/
namespace Sexpr

/-- A delimiter, a number, a name, or a string still in its quotes and with its escapes. -/
abbrev Token := String

namespace Token

def openParen : Token := "("

def closeParen : Token := ")"

def openBracket : Token := "["

def closeBracket : Token := "]"

def openBrace : Token := "\x7b"

def closeBrace : Token := "\x7d"

def isCloser (t : Token) : Bool := t == closeParen || t == closeBracket || t == closeBrace

def isBracket (c : Char) : Bool := c == '[' || c == ']'

def isParen (c : Char) : Bool := c == '(' || c == ')'

def isBrace (c : Char) : Bool := c == '\x7b' || c == '\x7d'

def isDelimiter (c : Char) : Bool := isBracket c || isParen c || isBrace c

def isSign (c : Char) : Bool := c == '+' || c == '-'

def isExponentMark (c : Char) : Bool := c == 'e' || c == 'E'

/-- The signs that a name may hold beside word characters. -/
def nameSigns : List Char :=
  ['-', '+', '*', '/', '!', '?', '<', '>', '=', '%', '&', '.', ':']

def isNameChar (c : Char) : Bool := Text.isWordChar c || nameSigns.contains c

end Token
end Sexpr
