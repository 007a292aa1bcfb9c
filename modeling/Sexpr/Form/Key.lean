import Sexpr.Form.Basic
import Sexpr.Error

/-!
Forms as keys of maps: which keys are the same, how an entry is found, and how maps are built. A key
that is put in again keeps its first spelling and takes the last value.
-/
namespace Sexpr.Form

mutual

/-- Sameness as keys. Unlike equality it takes what is not a number for one and the same, so every
key is the same as itself; the entries of maps may come in any order. -/
def sameKey : Form → Form → Bool
  | symbol a, symbol b | keyword a, keyword b | string a, string b | identifier a, identifier b =>
    a == b
  | number a, number b => a.canonical == b.canonical
  | nil, nil => true
  | boolean a, boolean b => a == b
  | list as, list bs | array as, array bs => sameKeys as bs
  | map as, map bs => as.length == bs.length && entriesWithin as bs
  | lambda a, lambda b => a.id == b.id
  | _, _ => false

def sameKeys : List Form → List Form → Bool
  | [], [] => true
  | a :: as, b :: bs => sameKey a b && sameKeys as bs
  | _, _ => false

/-- Whether each entry on the left is found on the right, with the same value. -/
def entriesWithin : List (Form × Form) → List (Form × Form) → Bool
  | [], _ => true
  | (key, value) :: entries, others =>
    (match others.find? (fun other => sameKey key other.1) with
      | some other => sameKey value other.2
      | none => false) && entriesWithin entries others

end

end Sexpr.Form

namespace Sexpr

/-- A form that may be a key. -/
structure Key where
  form : Form
  keyable : form.isKeyable = true

namespace Form

def key? (f : Form) : Except Error Key :=
  if h : f.isKeyable then .ok ⟨f, h⟩ else .error .invalidMapKey

/-- The entry under a key. -/
def lookup? (key : Form) (entries : List Entry) : Option Entry :=
  entries.find? fun entry => sameKey key entry.1

/-- Puts a value under a key, whether or not the form may be one. -/
def putEntry (key value : Form) : List Entry → List Entry
  | [] => [(key, value)]
  | entry :: entries =>
    if sameKey key entry.1 then (entry.1, value) :: entries
    else entry :: putEntry key value entries

def insertEntry (key : Key) (value : Form) (entries : List Entry) : List Entry :=
  putEntry key.form value entries

/-- Puts in one entry after the other, up to the first key that cannot be one. -/
def insertAll (entries : List Entry) : List Entry → Except Error (List Entry)
  | [] => .ok entries
  | (key, value) :: more =>
    match key? key with
    | .ok key => insertAll (insertEntry key value entries) more
    | .error e => .error e

def ofEntries? (entries : List Entry) : Except Error Form :=
  match insertAll [] entries with
  | .ok entries => .ok (map entries)
  | .error e => .error e

/-- The value under a key of a map; other forms hold nothing. -/
def get? : Form → Form → Option Form
  | map entries, key =>
    if key.isKeyable then (lookup? key entries).map Prod.snd else none
  | _, _ => none

end Form
end Sexpr
