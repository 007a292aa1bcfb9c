import Sexpr.Form.Basic
import Sexpr.Number.Shortest
import Sexpr.Text.Literal
import Sexpr.Text.Quoted

/-!
The text of a form. In the readable style the text of a string reads back as that string. A text shows
the entries of a map as they are stored; a run that goes through them in an order of its own shows the
form as it visits it.
-/
namespace Sexpr.Form

inductive Style where
  | plain
  | readable
deriving DecidableEq, Repr

/-- A string between quotes, in the plain style just as it is. -/
def quoted (style : Style) (value : String) : String :=
  match style with
  | .plain => "\"" ++ value ++ "\""
  | .readable => "\"" ++ String.ofList (Text.Quoted.encode value.toList) ++ "\""

def spaced (texts : List String) : String := " ".intercalate texts

mutual

def print (style : Style) : Form → String
  | symbol name | identifier name => name
  | keyword name => ":" ++ name
  | number value => String.ofList value.text
  | nil => "nil"
  | boolean value => if value then "true" else "false"
  | string value => quoted style value
  | list items => "(" ++ spaced (texts style items) ++ ")"
  | array items => "[" ++ spaced (texts style items) ++ "]"
  | map entries => "\x7b" ++ spaced (entryTexts style entries) ++ "\x7d"
  | lambda _ => "#<lambda>"

def texts (style : Style) : List Form → List String
  | [] => []
  | f :: fs => f.print style :: texts style fs

def entryTexts (style : Style) : List (Form × Form) → List String
  | [] => []
  | (key, value) :: entries => key.print style :: value.print style :: entryTexts style entries

end

/-- The line that shows some forms, in the plain style. -/
def line (fs : List Form) : String := spaced (texts .plain fs)

end Sexpr.Form

namespace Sexpr

/-- The order in which a run goes through the entries of the maps in a form. A path leads to each of
them, and no two need agree; no two runs need agree either. -/
class Visiting where
  visit (path : List Nat) (entries : List Entry) : List Entry
  perm (path : List Nat) (entries : List Entry) : (visit path entries).Perm entries

namespace Visiting

/-- Without an order of its own a run takes entries as they are stored. -/
instance stored : Visiting := ⟨fun _ entries => entries, fun _ entries => .refl entries⟩

/-- The order for the forms at one position inside a form. -/
@[reducible]
def inside (v : Visiting) (position : Nat) : Visiting :=
  ⟨fun path => v.visit (position :: path), fun path => v.perm (position :: path)⟩

end Visiting

namespace Form

mutual

/-- A form with its entries as a run goes through them. -/
def visited (v : Visiting) : Form → Form
  | list items => list (itemsVisited v items)
  | array items => array (itemsVisited v items)
  | map entries => map (v.visit [] (entriesVisited v entries))
  | f => f

def itemsVisited (v : Visiting) : List Form → List Form
  | [] => []
  | f :: fs => f.visited (v.inside fs.length) :: itemsVisited v fs

def entriesVisited (v : Visiting) : List (Form × Form) → List (Form × Form)
  | [] => []
  | (key, value) :: entries =>
    (key.visited (v.inside (2 * entries.length)), value.visited (v.inside (2 * entries.length + 1)))
      :: entriesVisited v entries

end

/-- The text of a form in a run, in the plain style. -/
def shown [v : Visiting] (f : Form) : String := (f.visited v).print .plain

end Form
end Sexpr

namespace Sexpr.Lambda

/-- Shows the name, which the text of a form leaves out. -/
def debug (f : Lambda) : String := "Lambda(" ++ Text.Literal.literal f.name ++ ")"

end Sexpr.Lambda
