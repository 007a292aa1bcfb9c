import Mathlib.Tactic.SplitIfs
import Sexpr.Form.Atom
import Sexpr.Form.Printer
import Sexpr.Proofs.Form.Subforms

/-! Which atoms tokens are read to, and the tokens that keywords and strings are printed as. -/
namespace Sexpr

namespace Decimal

variable {c : Char} {s : List Char}

/-- No number starts with anything but a digit, a sign or a point. -/
theorem ofLiteral?_eq_none (hd : c.isDigit = false) (hs : Token.isSign c = false) (hp : c ≠ '.') :
    Number.ofLiteral? (c :: s) = none := by
  have hparse : parse? (c :: s) = none := by
    simp [parse?, splitSign, hs, hd, splitFraction, hp]
  rw [Number.ofLiteral?, hparse]
  rfl

end Decimal

namespace Form

variable {t : Token} {f : Form} {c : Char} {s : List Char}

/-- The kinds of tokens that are read to atoms. -/
theorem ofToken_cases (h : ofToken t = .ok f) :
    (∃ x, Number.ofLiteral? t.toList = some x ∧ f = number x) ∨
      (∃ name, t.toList = ':' :: name ∧ f = keyword (String.ofList name)) ∨
      (∃ s value, t.toList = '"' :: s ∧ f = string value) ∨ f = nil ∨ (∃ b, f = boolean b) ∨
      (Number.ofLiteral? t.toList = none ∧ (∀ c ∈ t.toList.head?, c ≠ ':' ∧ c ≠ '"') ∧
        t ≠ "nil" ∧ t ≠ "true" ∧ t ≠ "false" ∧ f = symbol t) := by
  rw [ofToken] at h
  cases hx : Number.ofLiteral? t.toList with
  | some x =>
    rw [hx] at h
    cases h
    exact .inl ⟨x, rfl, rfl⟩
  | none =>
    rw [hx] at h
    change ofWord t = .ok f at h
    unfold ofWord at h
    split at h
    · rename_i name hs
      cases h
      exact .inr (.inl ⟨name, hs, rfl⟩)
    · rename_i s hs
      unfold ofQuoted at h
      split at h
      · cases h
        exact .inr (.inr (.inl ⟨s, _, hs, rfl⟩))
      · cases h
    · rename_i hcolon hquote
      have hhead : ∀ c ∈ t.toList.head?, c ≠ ':' ∧ c ≠ '"' := by
        intro c hc
        obtain ⟨s, hs⟩ := List.head?_eq_some_iff.mp hc
        refine ⟨?_, ?_⟩
        · rintro rfl
          exact hcolon s hs
        · rintro rfl
          exact hquote s hs
      cases h
      split_ifs with hn ht hf
      · exact .inr (.inr (.inr (.inl rfl)))
      · exact .inr (.inr (.inr (.inr (.inl ⟨_, rfl⟩))))
      · exact .inr (.inr (.inr (.inr (.inl ⟨_, rfl⟩))))
      · exact .inr (.inr (.inr (.inr (.inr ⟨rfl, hhead, hn, ht, hf, rfl⟩))))

theorem isAtom_ofToken (h : ofToken t = .ok f) : f.isAtom = true := by
  rcases ofToken_cases h with ⟨x, -, rfl⟩ | ⟨name, -, rfl⟩ | ⟨s, value, -, rfl⟩ | rfl |
    ⟨b, rfl⟩ | ⟨-, -, -, -, -, rfl⟩ <;> rfl

theorem isKeyable_ofToken (h : ofToken t = .ok f) : f.isKeyable = true := by
  rcases ofToken_cases h with ⟨x, -, rfl⟩ | ⟨name, -, rfl⟩ | ⟨s, value, -, rfl⟩ | rfl |
    ⟨b, rfl⟩ | ⟨-, -, -, -, -, rfl⟩ <;> rfl

theorem toList_print_keyword (style : Style) (name : String) :
    ((keyword name).print style).toList = ':' :: name.toList := by
  rw [print, String.toList_append]
  rfl

/-- What a style writes between the quotes. -/
def Style.body : Style → List Char → List Char
  | .plain => id
  | .readable => Text.Quoted.encode

theorem toList_print_string (style : Style) (value : String) :
    ((string value).print style).toList = '"' :: (style.body value.toList ++ ['"']) := by
  cases style <;> simp only [print, quoted, String.toList_append, String.toList_ofList] <;> rfl

theorem ofToken_eq_ofWord (ht : t.toList = c :: s) (hd : c.isDigit = false)
    (hs : Token.isSign c = false) (hp : c ≠ '.') : ofToken t = ofWord t := by
  rw [ofToken, ht, Decimal.ofLiteral?_eq_none hd hs hp]

theorem ofToken_keyword (ht : t.toList = ':' :: s) :
    ofToken t = .ok (keyword (String.ofList s)) := by
  rw [ofToken_eq_ofWord ht rfl rfl (by decide)]
  simp only [ofWord, ht]

theorem ofQuoted_eq_decode {body : List Char} (ht : t.toList = '"' :: (body ++ ['"'])) :
    ofQuoted t = (Text.Quoted.decode body).map fun value => string (String.ofList value) := by
  have hbody : Text.Quoted.body? t.toList = some body := by
    rw [ht, Text.Quoted.body?, List.getLast?_concat, if_pos ⟨rfl, rfl⟩, List.dropLast_concat]
  have hread : Text.Quoted.read t.toList = Text.Quoted.decode body := by
    rw [Text.Quoted.read, hbody]
  rw [ofQuoted, hread]
  cases Text.Quoted.decode body <;> rfl

theorem ofToken_eq_decode {body : List Char} (ht : t.toList = '"' :: (body ++ ['"'])) :
    ofToken t = (Text.Quoted.decode body).map fun value => string (String.ofList value) := by
  rw [ofToken_eq_ofWord ht rfl rfl (by decide), ofWord, ← ofQuoted_eq_decode ht]
  simp only [ht]

/-- A token in quotes is read to the string that stands between them. -/
theorem ofToken_quoted {body : List Char} (ht : t.toList = '"' :: (body ++ ['"'])) :
    ofToken t = .ok f ↔
      ∃ value, Text.Quoted.decode body = .ok value ∧ f = string (String.ofList value) := by
  rw [ofToken_eq_decode ht]
  cases Text.Quoted.decode body <;> simp [Except.map, eq_comm]

theorem ofToken_string (ht : t.toList = '"' :: (Text.Quoted.encode s ++ ['"'])) :
    ofToken t = .ok (string (String.ofList s)) := by
  exact (ofToken_quoted ht).mpr ⟨s, Text.Quoted.decode_encode s, rfl⟩

end Form
end Sexpr
