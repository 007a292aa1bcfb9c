/-!
Numbers of 64 bits, as a sign and a magnitude. Magnitudes are in the order of the numbers they stand
for; those below `2 ^ 53` count units of the least positive number, and from there on each further
`2 ^ 52` doubles the unit.
-/
namespace Sexpr

/-- Powers are those of the core library, whichever others are in scope. -/
@[default_instance 20000]
instance (priority := high) corePow : Pow Nat Nat := instPowNat

structure Number where
  bits : UInt64
deriving DecidableEq

namespace Number

/-- The least positive number is two to the power of minus this, and has that many decimal places. -/
def places : Nat := 1074

/-- The magnitude of infinity; those above it are no numbers at all. -/
def infinite : Nat := 0x7FF * 2 ^ 52

def negative (x : Number) : Bool := 2 ^ 63 ≤ x.bits.toNat

def magnitude (x : Number) : Nat := x.bits.toNat % 2 ^ 63

def ofMagnitude (negative : Bool) (magnitude : Nat) : Number :=
  ⟨UInt64.ofNat ((if negative then 2 ^ 63 else 0) + magnitude)⟩

def zero : Number := ofMagnitude false 0

def one : Number := ofMagnitude false (0x3FF * 2 ^ 52)

def isNaN (x : Number) : Bool := infinite < x.magnitude

def isFinite (x : Number) : Bool := x.magnitude < infinite

def isZero (x : Number) : Bool := x.magnitude == 0

/-- The doublings of the unit, and how many such units a magnitude counts. -/
def scale (magnitude : Nat) : Nat := magnitude / 2 ^ 52 - 1

def units (magnitude : Nat) : Nat := magnitude - scale magnitude * 2 ^ 52

/-- Both zeros are equal, and what is not a number equals nothing. -/
def equal (x y : Number) : Bool :=
  !x.isNaN && !y.isNaN && (x.bits == y.bits || x.isZero && y.isZero)

/-- One number for both zeros, and one for all that is not a number. -/
def canonical (x : Number) : Number :=
  if x.isZero then zero else if x.isNaN then ofMagnitude false (infinite + 2 ^ 51) else x

def toFloat (x : Number) : Float := Float.ofBits x.bits

def ofFloat (x : Float) : Number := ⟨x.toBits⟩

def add (x y : Number) : Number := ofFloat (x.toFloat + y.toFloat)

def sub (x y : Number) : Number := ofFloat (x.toFloat - y.toFloat)

def mul (x y : Number) : Number := ofFloat (x.toFloat * y.toFloat)

def div (x y : Number) : Number := ofFloat (x.toFloat / y.toFloat)

end Number
end Sexpr
