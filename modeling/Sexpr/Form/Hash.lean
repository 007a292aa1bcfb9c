import Sexpr.Form.Basic

/-!
What a form writes into a hasher. Numbers that are the same as keys are written alike, and a map writes
the digests of its entries in ascending order, so that their own order does not show.
-/
namespace Sexpr

/-- One write into a hasher. -/
inductive HashWrite where
  | variant (index : Nat)
  | text (value : String)
  | word (bits : UInt64)
  | flag (value : Bool)
  | size (count : Nat)
deriving DecidableEq, Repr

/-- What a hasher gives for all that has been written into it. -/
abbrev Digest := List HashWrite → UInt64

namespace Form

/-- The place of a kind of form among all kinds. -/
def variant : Form → Nat
  | symbol _ => 0
  | keyword _ => 1
  | number _ => 2
  | nil => 3
  | boolean _ => 4
  | string _ => 5
  | identifier _ => 6
  | list _ => 7
  | array _ => 8
  | map _ => 9
  | lambda _ => 10

mutual

/-- The writes of a form. Each entry of a map has a hasher to itself. -/
def hashWrites (digest : Digest) (f : Form) : List HashWrite :=
  .variant f.variant ::
    match f with
    | symbol text | keyword text | string text | identifier text => [.text text]
    | number value => [.word value.canonical.bits]
    | boolean value => [.flag value]
    | nil => []
    | list items | array items => .size items.length :: itemWrites digest items
    | map entries =>
      .size entries.length :: ((entryDigests digest entries).mergeSort (· ≤ ·)).map .word
    | lambda operation => [.text operation.name]

def itemWrites (digest : Digest) : List Form → List HashWrite
  | [] => []
  | f :: fs => f.hashWrites digest ++ itemWrites digest fs

def entryDigests (digest : Digest) : List (Form × Form) → List UInt64
  | [] => []
  | (key, value) :: entries =>
    digest (key.hashWrites digest ++ value.hashWrites digest) :: entryDigests digest entries

end

end Form
end Sexpr
