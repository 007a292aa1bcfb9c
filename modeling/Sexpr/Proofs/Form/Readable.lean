import Sexpr.Block
import Sexpr.Number.Decimal
import Sexpr.Proofs.Form.Sameness
import Sexpr.Reader

/-! The forms whose text can be read again. -/
namespace Sexpr

namespace Token

/-- The tokens that open and close lists, arrays and maps. -/
def delimiters : List Token :=
  [openParen, closeParen, openBracket, closeBracket, openBrace, closeBrace]

/-- The words that stand for something else than symbols. -/
def reserved : List Token := Statement.all.map Statement.word ++ ["nil", "true", "false"]

/-- A token that is read as a symbol. -/
structure IsName (w : Token) : Prop where
  whole : tokenize w = [w]
  delimiter : w ∉ delimiters
  head : ∀ c ∈ w.toList.head?, c ≠ ':' ∧ c ≠ '"'
  reserved : w ∉ reserved
  number : Number.ofLiteral? w.toList = none

end Token

namespace Form

/-- What an atom has to be for its text to be read again; other forms only hold atoms. -/
def Legible : Form → Prop
  | symbol name => Token.IsName name
  | keyword name => ∀ c ∈ name.toList, Token.isNameChar c = true
  | number value => value.isFinite = true
  | identifier _ | lambda _ => False
  | _ => True

/-- No string with a quote or a backslash in it. -/
def Verbatim : Form → Prop
  | string value => '"' ∉ value.toList ∧ '\\' ∉ value.toList
  | _ => True

instance : DecidablePred Verbatim
  | string value => inferInstanceAs (Decidable ('"' ∉ value.toList ∧ '\\' ∉ value.toList))
  | symbol _ | keyword _ | number _ | nil | boolean _ | identifier _ | list _ | array _ | map _
  | lambda _ => isTrue trivial

/-- What the strings of a style have to be for their text to be read again: the plain style has no
escapes. -/
def Style.Keeps : Style → Form → Prop
  | .plain => Verbatim
  | .readable => fun _ => True

/-- A form whose text can be read again. -/
structure Readable (f : Form) : Prop where
  legible : Everywhere Legible f
  depth : f.depth ≤ maxDepth

/-- A form that may stand where so many more levels of nesting are allowed. -/
structure Fits (levels : Nat) (f : Form) : Prop where
  legible : Everywhere Legible f
  wellFormed : f.WellFormed
  depth : f.depth ≤ levels

variable {f g : Form} {items : List Form} {entries : List Entry} {levels : Nat}

/-- What stands for all atoms that are the same is legible if one of them is. -/
theorem legible_canonical (f : Form) : f.canonical.Legible ↔ f.Legible := by
  cases f with
  | number x =>
    change x.canonical.isFinite = true ↔ x.isFinite = true
    rw [Number.isFinite_canonical]
  | _ => exact Iff.rfl

theorem legible_of_canonical_eq (h : f.canonical = g.canonical) (hf : f.Legible) : g.Legible := by
  rw [← legible_canonical, ← h, legible_canonical]
  exact hf

theorem legible_of_isAtom_eq_false (h : f.isAtom = false) : f.Legible := by
  cases f <;> trivial

/-- Another order of entries is as legible. -/
theorem everywhere_legible_of_same (h : Same f g) (hf : Everywhere Legible f) :
    Everywhere Legible g :=
  h.everywhere (fun _ => legible_of_isAtom_eq_false) (fun _ _ _ => legible_of_canonical_eq) hf

/-- NaN is not legible: its text is read as a symbol. -/
theorem notNaN_of_legible (h : f.Legible) : f.NotNaN := by
  cases f with
  | number value => exact Number.isNaN_of_isFinite h
  | _ => trivial

theorem everywhere_notNaN (hf : Everywhere Legible f) : Everywhere NotNaN f :=
  hf.mono fun _ => notNaN_of_legible

theorem plain_of_legible (h : f.Legible) : f.Plain := by
  cases f <;> trivial

/-- What can be read again may be a key, since it has no identifier and no operation inside. -/
theorem isKeyable_of_legible (hf : Everywhere Legible f) : f.isKeyable = true :=
  isKeyable_of_plain (hf.mono fun _ => plain_of_legible)

theorem Readable.fits (hf : f.Readable) (hw : f.WellFormed) : f.Fits maxDepth :=
  ⟨hf.legible, hw, hf.depth⟩

theorem Fits.readable (hf : f.Fits maxDepth) : f.Readable := ⟨hf.legible, hf.depth⟩

/-- What fits somewhere fits there in every order of its entries. -/
theorem fits_of_same (h : Same f g) (hf : f.Fits levels) : g.Fits levels :=
  ⟨everywhere_legible_of_same h hf.legible, wellFormed_of_same h hf.wellFormed,
    h.depth_le levels hf.depth⟩

theorem fits_atom (hatom : f.isAtom = true) (hf : f.Legible) : f.Fits levels := by
  refine ⟨(everywhere_atom hatom).mpr hf, wellFormed_atom hatom, ?_⟩
  rw [depth_atom hatom]
  exact Nat.zero_le levels

/-- A list takes up one level of nesting, and its items have to fit into those that are left. -/
theorem fits_list : (list items).Fits (levels + 1) ↔ ∀ f ∈ items, f.Fits levels := by
  constructor
  · intro h f hf
    exact ⟨(everywhere_list.mp h.legible).2 f hf, wellFormed_list.mp h.wellFormed f hf,
      depth_list_le.mp h.depth f hf⟩
  · intro h
    exact ⟨everywhere_list.mpr ⟨trivial, fun f hf => (h f hf).legible⟩,
      wellFormed_list.mpr fun f hf => (h f hf).wellFormed,
      depth_list_le.mpr fun f hf => (h f hf).depth⟩

theorem fits_array : (array items).Fits (levels + 1) ↔ ∀ f ∈ items, f.Fits levels := by
  constructor
  · intro h f hf
    exact ⟨(everywhere_array.mp h.legible).2 f hf, wellFormed_array.mp h.wellFormed f hf,
      depth_array_le.mp h.depth f hf⟩
  · intro h
    exact ⟨everywhere_array.mpr ⟨trivial, fun f hf => (h f hf).legible⟩,
      wellFormed_array.mpr fun f hf => (h f hf).wellFormed,
      depth_array_le.mpr fun f hf => (h f hf).depth⟩

/-- Legible keys may be keys. -/
theorem fits_map : (map entries).Fits (levels + 1) ↔
    (entries.Pairwise fun a b => sameKey a.1 b.1 = false) ∧
      ∀ e ∈ entries, e.1.Fits levels ∧ e.2.Fits levels := by
  constructor
  · intro h
    obtain ⟨⟨-, hdistinct⟩, hinner⟩ := wellFormed_map.mp h.wellFormed
    refine ⟨hdistinct, fun e he => ?_⟩
    obtain ⟨hkey, hvalue⟩ := (everywhere_map.mp h.legible).2 e he
    obtain ⟨hkeydepth, hvaluedepth⟩ := depth_map_le.mp h.depth e he
    exact ⟨⟨hkey, (hinner e he).1, hkeydepth⟩, ⟨hvalue, (hinner e he).2, hvaluedepth⟩⟩
  · rintro ⟨hdistinct, h⟩
    refine ⟨everywhere_map.mpr ⟨trivial, fun e he => ?_⟩,
      wellFormed_map.mpr ⟨⟨fun e he => ?_, hdistinct⟩, fun e he => ?_⟩,
      depth_map_le.mpr fun e he => ?_⟩
    · exact ⟨(h e he).1.legible, (h e he).2.legible⟩
    · exact isKeyable_of_legible (h e he).1.legible
    · exact ⟨(h e he).1.wellFormed, (h e he).2.wellFormed⟩
    · exact ⟨(h e he).1.depth, (h e he).2.depth⟩

end Form
end Sexpr
