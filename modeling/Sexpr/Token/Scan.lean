import Sexpr.Token.Basic

/-!
The tokens of a text in one pass. The first character settles which kind of token may start here, so
nothing is tried twice.
-/
namespace Sexpr.Token

/-- Counts on from `n` to the quote that closes a string, that quote included, in what follows the
opening quote. A backslash takes the next character along but never a line feed. -/
def closing (n : Nat) : List Char → Option Nat
  | [] => none
  | c :: s =>
    if c = '"' then some (n + 1)
    else if c = '\\' then
      match s with
      | [] => none
      | d :: s => if d = '\n' then none else closing (n + 2) s
    else closing (n + 1) s

/-- A point and digits, if a digit follows the point. -/
def fraction : List Char → List Char
  | [] => []
  | c :: s =>
    let digits := s.takeWhile Char.isDigit
    if c = '.' ∧ digits ≠ [] then c :: digits else []

/-- A mark, a sign or none, and digits, if there are digits. -/
def exponent : List Char → List Char
  | [] => []
  | c :: s =>
    let sign := (s.take 1).filter isSign
    let digits := (s.drop sign.length).takeWhile Char.isDigit
    if isExponentMark c ∧ digits ≠ [] then c :: sign ++ digits else []

def number (s : List Char) : List Char :=
  let whole := s.takeWhile Char.isDigit
  let point := fraction (s.drop whole.length)
  whole ++ point ++ exponent (s.drop (whole.length + point.length))

/-- The token that starts with `c` where `s` follows. A quote that is never closed starts none. -/
def lexeme? (c : Char) (s : List Char) : Option (List Char) :=
  if c = '"' then (closing 0 s).map fun n => c :: s.take n
  else if c.isDigit then some (number (c :: s))
  else if isDelimiter c then some [c]
  else if isNameChar c then some (c :: s.takeWhile isNameChar)
  else none

/-- Adds the tokens of a text to those found before it, the last of which comes first. -/
def scan (found : List Token) : List Char → List Token
  | [] => found.reverse
  | c :: s =>
    match lexeme? c s with
    | some lexeme => scan (String.ofList lexeme :: found) (s.drop (lexeme.length - 1))
    | none => if c = ';' then scan found (s.dropWhile (· ≠ '\n')) else scan found s
termination_by s => s.length
decreasing_by
  · simp only [List.length_drop, List.length_cons]; omega
  · exact Nat.lt_succ_of_le (List.dropWhile_sublist _).length_le
  · exact Nat.lt_succ_self _

theorem scan_eq_append (found : List Token) (s : List Char) :
    scan found s = found.reverse ++ scan [] s := by
  induction hn : s.length using Nat.strongRecOn generalizing found s with
  | _ n ih =>
    subst hn
    cases s with
    | nil => simp [scan]
    | cons c s =>
      have drop_lt (k : Nat) : (s.drop k).length < (c :: s).length := by
        simp only [List.length_drop, List.length_cons]; omega
      have line_lt : (s.dropWhile (· ≠ '\n')).length < (c :: s).length :=
        Nat.lt_succ_of_le (List.dropWhile_sublist _).length_le
      rw [scan, scan]
      split
      · rw [ih _ (drop_lt _) _ _ rfl, ih _ (drop_lt _) [_] _ rfl]
        simp
      · split
        · rw [ih _ line_lt _ _ rfl]
        · rw [ih _ (Nat.lt_succ_self _) _ _ rfl]

end Sexpr.Token

namespace Sexpr

/-- Splits a text into its tokens; blanks, commas, comments and stray characters fall away. -/
def tokenize (text : String) : List Token := Token.scan [] text.toList

end Sexpr
