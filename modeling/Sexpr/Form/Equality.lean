import Sexpr.Form.Key

/-!
Equality of forms: that of numbers for numbers, identity for operations, and for maps sameness of the
keys with equality of the values.
-/
namespace Sexpr.Form

mutual

def equal : Form → Form → Bool
  | symbol a, symbol b | keyword a, keyword b | string a, string b | identifier a, identifier b =>
    a == b
  | number a, number b => a.equal b
  | nil, nil => true
  | boolean a, boolean b => a == b
  | list as, list bs | array as, array bs => allEqual as bs
  | map as, map bs => as.length == bs.length && entriesEqual as bs
  | lambda a, lambda b => a.id == b.id
  | _, _ => false

def allEqual : List Form → List Form → Bool
  | [], [] => true
  | a :: as, b :: bs => equal a b && allEqual as bs
  | _, _ => false

/-- Whether each entry on the left is found on the right, with an equal value. -/
def entriesEqual : List (Form × Form) → List (Form × Form) → Bool
  | [], _ => true
  | (key, value) :: entries, others =>
    (match lookup? key others with
      | some other => equal value other.2
      | none => false) && entriesEqual entries others

end

instance : BEq Form := ⟨equal⟩

end Sexpr.Form
