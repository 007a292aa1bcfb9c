import Sexpr.Number.Nearest
import Sexpr.Token.Basic

/-!
Decimal literals: a sign or none, digits with at most one point among or beside them, and an exponent
or none. Each stands for the number nearest to its value.
-/
namespace Sexpr

/-- The value `coefficient * 10 ^ exponent`, below zero if `negative`. -/
structure Decimal where
  negative : Bool
  coefficient : Nat
  exponent : Int
deriving DecidableEq

namespace Decimal

def digit (c : Char) : Nat := c.toNat - '0'.toNat

def digitsValue (ds : List Char) : Nat := ds.foldl (fun n c => 10 * n + digit c) 0

/-- An exponent that has reached `2 ^ 16` takes no more digits. -/
def exponentValue (ds : List Char) : Nat :=
  ds.foldl (fun n c => if n < 2 ^ 16 then 10 * n + digit c else n) 0

/-- Whether a minus stands in front, and what follows the sign. -/
def splitSign : List Char → Bool × List Char
  | [] => (false, [])
  | c :: s => if Token.isSign c then (c == '-', s) else (false, c :: s)

/-- The digits after a point, and what follows them. -/
def splitFraction : List Char → List Char × List Char
  | [] => ([], [])
  | c :: s =>
    if c = '.' then (s.takeWhile Char.isDigit, s.dropWhile Char.isDigit) else ([], c :: s)

/-- The exponent that a whole text spells; none is zero. -/
def exponent? : List Char → Option Int
  | [] => some 0
  | c :: s =>
    let (negative, digits) := splitSign s
    if Token.isExponentMark c ∧ digits ≠ [] ∧ digits.all Char.isDigit then
      some (if negative then -(exponentValue digits : Int) else exponentValue digits)
    else none

def parse? (s : List Char) : Option Decimal :=
  let (negative, s) := splitSign s
  let whole := s.takeWhile Char.isDigit
  let (fraction, s) := splitFraction (s.dropWhile Char.isDigit)
  if whole = [] ∧ fraction = [] then none
  else (exponent? s).map fun exponent =>
    ⟨negative, digitsValue (whole ++ fraction), exponent - fraction.length⟩

def toNumber (d : Decimal) : Number :=
  Number.nearest d.negative (d.coefficient * 10 ^ d.exponent.toNat) (10 ^ (-d.exponent).toNat)

end Decimal

/-- The finite number that a literal stands for; one too large for that stands for none. -/
def Number.ofLiteral? (s : List Char) : Option Number :=
  ((Decimal.parse? s).map Decimal.toNumber).filter Number.isFinite

end Sexpr
