import Sexpr.Number.Nearest

/-!
The text of a number: the fewest digits that read back as that number, of those the nearest to it, and
of two equally near the larger; never an exponent.
-/
namespace Sexpr.Number

/-- The value of a magnitude in units of the last decimal place. -/
@[irreducible] def decimalUnits (magnitude : Nat) : Nat :=
  units magnitude * 2 ^ scale magnitude * 5 ^ places

/-- Whether `n` units of the last place read back as a magnitude. -/
def readsBack (magnitude n : Nat) : Bool := nearestMagnitude n (10 ^ places) == magnitude

/-- The whole numbers of steps on both sides of a value, the nearer one first. -/
def neighbours (value step : Nat) : List Nat :=
  let below := value / step
  if value - below * step < (below + 1) * step - value then [below, below + 1]
  else [below + 1, below]

/-- The nearest number of steps that reads back, if one of the two beside the value does. -/
def steps? (magnitude step : Nat) : Option Nat :=
  (neighbours (decimalUnits magnitude) step).find? fun count => readsBack magnitude (count * step)

/-- The grids to try, coarse ones first. The first is coarser than the value, since 0.30103 is more
than the decimal logarithm of two. -/
def powers (magnitude : Nat) : List Nat :=
  (List.range (((decimalUnits magnitude).log2 + 1) * 30103 / 100000 + 2)).reverse

/-- A coefficient and the power of ten to multiply it by; if nothing shorter does, the value itself. -/
def shortest (magnitude : Nat) : Nat × Nat :=
  ((powers magnitude).findSome? fun power =>
    (steps? magnitude (10 ^ power)).map (·, power)).getD (decimalUnits magnitude, 0)

def pad (width : Nat) (digits : List Char) : List Char :=
  List.replicate (width - digits.length) '0' ++ digits

/-- The digits of `n`, with a point before the last `width` of them. -/
def positional (n width : Nat) : List Char :=
  let whole := Nat.toDigits 10 (n / 10 ^ width)
  if width = 0 then whole else whole ++ '.' :: pad width (Nat.toDigits 10 (n % 10 ^ width))

def magnitudeText (magnitude : Nat) : List Char :=
  if magnitude = 0 then ['0']
  else if infinite ≤ magnitude then ['i', 'n', 'f']
  else
    let (coefficient, power) := shortest magnitude
    positional (coefficient * 10 ^ (power - places)) (places - power)

def text (x : Number) : List Char :=
  if x.isNaN then ['N', 'a', 'N']
  else if x.negative then '-' :: magnitudeText x.magnitude
  else magnitudeText x.magnitude

end Sexpr.Number
