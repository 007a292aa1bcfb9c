import Sexpr.Token.Basic
import Sexpr.Token.Pattern

/-!
The lexical grammar as a table of rules in order of priority: at each place the first rule that
matches wins, even where a later one would match more, and a character that no rule matches is
skipped.
-/
namespace Sexpr.Lexicon

structure Rule where
  name : String
  pattern : Pattern

def digits : Pattern := .plus (.char Char.isDigit)

/-- A backslash takes the next character along, whatever it is, but never a line feed. -/
def string : Pattern :=
  let plain := Pattern.star (.char fun c => c != '"' && c != '\\')
  .sequence [.text ['"'], plain,
    .star (.sequence [.text ['\\'], .char (· != '\n'), plain]), .text ['"']]

def number : Pattern :=
  .sequence [digits, .optional (.sequence [.text ['.'], digits]),
    .optional (.sequence [.char Token.isExponentMark, .optional (.char Token.isSign), digits])]

/-- The last rule never gets its turn, since every text it matches starts a word. -/
def rules : List Rule :=
  [⟨"string", string⟩,
   ⟨"number", number⟩,
   ⟨"bracket", .char Token.isBracket⟩,
   ⟨"paren", .char Token.isParen⟩,
   ⟨"brace", .char Token.isBrace⟩,
   ⟨"word", .plus (.char Token.isNameChar)⟩,
   ⟨"comment", .sequence [.text [';'], .star (.char (· != '\n'))]⟩,
   ⟨"whitespace", .plus (.char Text.isBlank)⟩,
   ⟨"comma", .text [',']⟩,
   ⟨"boolean", .either (.text ['t', 'r', 'u', 'e']) (.text ['f', 'a', 'l', 's', 'e'])⟩]

/-- The match of the first rule that has one. -/
def lexeme? (s : List Char) : Option (List Char × List Char) :=
  rules.findSome? (·.pattern.match? s)

/-- All matches from left to right, none overlapping another. -/
def lexemes : List Char → List (List Char)
  | [] => []
  | c :: s =>
    match lexeme? (c :: s) with
    | some (lexeme, rest) =>
      if rest.length ≤ s.length then lexeme :: lexemes rest else lexemes s
    | none => lexemes s
termination_by s => s.length

/-- Blanks, commas and comments are no tokens. -/
def isKept (lexeme : List Char) : Bool :=
  !lexeme.isEmpty && lexeme.head? != some ';' && lexeme != [',']

def tokens (s : List Char) : List Token :=
  (((lexemes s).map Text.trim).filter isKept).map String.ofList

end Sexpr.Lexicon
