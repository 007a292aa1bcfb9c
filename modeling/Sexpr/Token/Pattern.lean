/-!
Patterns over characters, matched at the head of a text by ordered choice: an earlier alternative is
preferred to a later one, and a longer repetition to a shorter one.
-/
namespace Sexpr

inductive Pattern where
  | char (accepts : Char → Bool)
  | empty
  | seq (first second : Pattern)
  | either (first second : Pattern)
  | star (body : Pattern)

namespace Pattern

/-- The rests after at most `n` runs of a step, longer runs first. A run that covers nothing adds
nothing, so it is left out. -/
def repeated (step : List Char → List (List Char)) : Nat → List Char → List (List Char)
  | 0, s => [s]
  | n + 1, s => ((step s).filter (·.length < s.length)).flatMap (repeated step n) ++ [s]

/-- What each way to match leaves of the text, the preferred one first. -/
def rests : Pattern → List Char → List (List Char)
  | char _, [] => []
  | char accepts, c :: s => if accepts c then [s] else []
  | empty, s => [s]
  | seq p q, s => (p.rests s).flatMap q.rests
  | either p q, s => p.rests s ++ q.rests s
  | star p, s => repeated p.rests s.length s

def plus (p : Pattern) : Pattern := seq p (star p)

def optional (p : Pattern) : Pattern := either p empty

def sequence (ps : List Pattern) : Pattern := ps.foldr seq empty

/-- The literal text `cs`. -/
def text (cs : List Char) : Pattern := sequence (cs.map fun c => char (· == c))

/-- What the preferred match covers, and what it leaves. -/
def match? (p : Pattern) (s : List Char) : Option (List Char × List Char) :=
  (p.rests s).head?.map fun rest => (s.take (s.length - rest.length), rest)

end Pattern
end Sexpr
