import Sexpr.Number.Basic

/-! The number nearest to a quotient of whole numbers. -/
namespace Sexpr.Number

/-- The whole number nearest to a quotient; of two, the even one. -/
def roundHalfEven (n d : Nat) : Nat :=
  let rest := 2 * (n % d)
  if rest < d ∨ rest = d ∧ n / d % 2 = 0 then n / d else n / d + 1

/-- The magnitude nearest to `n / d` if one holds `u` least units. It keeps 53 bits of their count, and
a carry out of them lands on the next doubling. -/
def nearestOn (u n d : Nat) : Nat :=
  let least := n * u
  let scale := (least / d).log2 - 52
  scale * 2 ^ 52 + roundHalfEven least (d * 2 ^ scale)

@[irreducible] def nearestMagnitude (n d : Nat) : Nat := nearestOn (2 ^ places) n d

/-- Too large a quotient gives infinity. -/
def nearest (negative : Bool) (n d : Nat) : Number :=
  ofMagnitude negative (min infinite (nearestMagnitude n d))

def ofNat (n : Nat) : Number := nearest false n 1

end Sexpr.Number
