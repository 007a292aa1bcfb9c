import Mathlib.Tactic.SplitIfs
import Sexpr.Proofs.Form.Atoms
import Sexpr.Proofs.Form.Readable
import Sexpr.Proofs.Number.ReadBack
import Sexpr.Proofs.Reader.Machine
import Sexpr.Proofs.Token.Whole

/-! Which tokens stand for which atoms: those atoms are legible, and the text of a legible atom is a
token that stands for it. -/
namespace Sexpr

/-- A token that is read to an atom wherever it stands. -/
structure Token.Denotes (t : Token) (f : Form) : Prop where
  delimiter : t ∉ Token.delimiters
  statement : Statement.ofToken? t = none
  form : Form.ofToken t = .ok f

/-- A delimiter closes something or opens something. -/
theorem Token.notMem_delimiters_iff {t : Token} :
    t ∉ Token.delimiters ↔ Token.isCloser t = false ∧ Frame.opened? t = none := by
  constructor
  · intro h
    simp only [Token.delimiters, List.mem_cons, List.not_mem_nil, or_false, not_or] at h
    obtain ⟨ho, hc, hob, hcb, hom, hcm⟩ := h
    simp [Token.isCloser, Frame.opened?, ho, hc, hob, hcb, hom, hcm]
  · rintro ⟨hc, ho⟩ ht
    simp only [Token.delimiters, List.mem_cons, List.not_mem_nil, or_false] at ht
    rcases ht with rfl | rfl | rfl | rfl | rfl | rfl <;>
      first | exact absurd hc (by decide) | exact absurd ho (by decide)

namespace Form

variable {t : Token} {f : Form} {c : Char} {s : List Char}

theorem isAtom_of_denotes (h : t.Denotes f) : f.isAtom = true := isAtom_ofToken h.form

/-- What is read from a whole token is legible. -/
theorem legible_of_denotes (h : t.Denotes f) (hw : Token.Whole t) : f.Legible := by
  rcases ofToken_cases h.form with ⟨x, hx, rfl⟩ | ⟨name, hname, rfl⟩ | ⟨s, value, -, rfl⟩ | rfl |
    ⟨b, rfl⟩ | ⟨hnumber, hhead, hn, ht, hf, rfl⟩
  · exact (Option.filter_eq_some_iff.mp hx).2
  · intro c hc
    rw [String.toList_ofList] at hc
    rcases Token.whole_shape hw with ⟨body, -, hbody⟩ | ⟨d, hd, hdelimiter⟩ | hall
    · cases hname.symm.trans hbody
    · cases hname.symm.trans hdelimiter
      cases hd
    · rw [hname] at hall
      exact hall c (List.mem_cons_of_mem _ hc)
  · trivial
  · trivial
  · trivial
  · refine ⟨hw, h.delimiter, hhead, ?_, hnumber⟩
    rw [Token.reserved, List.mem_append]
    rintro (hmem | hmem)
    · obtain ⟨kind, hkind, rfl⟩ := List.mem_map.mp hmem
      have hnone := List.find?_eq_none.mp h.statement kind hkind
      exact hnone (beq_self_eq_true _)
    · simp [hn, ht, hf] at hmem

theorem notMem_delimiters (hc : c ∈ t.toList.head?) (h : Token.isDelimiter c = false) :
    t ∉ Token.delimiters := by
  intro ht
  simp only [Token.delimiters, List.mem_cons, List.not_mem_nil, or_false] at ht
  rcases ht with rfl | rfl | rfl | rfl | rfl | rfl <;> cases hc <;> cases h

theorem ofToken?_eq_none (hc : c ∈ t.toList.head?) (h : c ∉ ['l', 'f', 'i', 'w']) :
    Statement.ofToken? t = none := by
  refine List.find?_eq_none.mpr fun kind _ heq => h ?_
  rw [← eq_of_beq heq] at hc
  cases kind <;> cases hc <;> decide

end Form

namespace Token

variable {t : Token} {c : Char} {v : List Char}

theorem whole_of_isNameChar (ht : t.toList = c :: v) (hd : c.isDigit = false)
    (hall : ∀ x ∈ c :: v, isNameChar x = true) : Whole t := by
  have hc := hall c List.mem_cons_self
  have hq : c ≠ '"' := by
    rintro rfl
    revert hc
    decide
  have hl : isDelimiter c = false := by
    cases hl : isDelimiter c with
    | false => rfl
    | true =>
      rw [isNameChar_of_isDelimiter hl] at hc
      cases hc
  have htake : v.takeWhile isNameChar = v :=
    List.takeWhile_eq_self_iff.mpr fun x hx => hall x (List.mem_cons_of_mem _ hx)
  refine whole_iff.mpr ⟨c, v, ht, ?_⟩
  rw [lexeme?, if_neg hq, if_neg (by simp [hd]), if_neg (by simp [hl]), if_pos hc, htake]

theorem whole_of_number (ht : t.toList = c :: v) (hd : c.isDigit = true)
    (hnumber : number (c :: v) = c :: v) : Whole t := by
  refine whole_iff.mpr ⟨c, v, ht, ?_⟩
  rw [lexeme?_of_isDigit hd, hnumber]

theorem number_of_digits {whole digits : List Char} (hwhole : ∀ c ∈ whole, c.isDigit = true)
    (hdigits : ∀ c ∈ digits, c.isDigit = true) :
    number (whole ++ if digits = [] then [] else '.' :: digits) =
      whole ++ if digits = [] then [] else '.' :: digits := by
  have hpoint : fraction (if digits = [] then [] else '.' :: digits) =
      if digits = [] then [] else '.' :: digits := by
    split
    · rfl
    · exact fraction_point ‹_› hdigits
  have hpower : exponent [] = [] := rfl
  have hnumber := number_of_parts hwhole hpoint hpower stops_nil
  simpa only [List.append_nil] using hnumber

/-- Whatever a string is, what is written for it has no quote that would close it early. -/
theorem stringBody_encode (s : List Char) : StringBody (Text.Quoted.encode s) := by
  induction s with
  | nil => exact .nil
  | cons c s ih =>
    rw [Text.Quoted.encode, List.flatMap_cons, ← Text.Quoted.encode, Text.Quoted.encodeChar]
    split_ifs with hq hb hn
    · exact .escape (by decide) ih
    · exact .escape (by decide) ih
    · exact .escape (by decide) ih
    · exact .plain hq hb ih

/-- Without escapes, that takes a string with neither a quote nor a backslash in it. -/
theorem stringBody_of_notMem {s : List Char} (hq : '"' ∉ s) (hb : '\\' ∉ s) : StringBody s := by
  induction s with
  | nil => exact .nil
  | cons c s ih =>
    rw [List.mem_cons, not_or] at hq hb
    exact .plain (Ne.symm hq.1) (Ne.symm hb.1) (ih hq.2 hb.2)

end Token

namespace Form

variable {style : Style} {f : Form} {x : Number}

theorem stringBody_body {value : String} (h : style.Keeps (string value)) :
    Token.StringBody (style.body value.toList) := by
  cases style with
  | plain => exact Token.stringBody_of_notMem h.1 h.2
  | readable => exact Token.stringBody_encode value.toList

theorem decode_body {value : String} (h : style.Keeps (string value)) :
    Text.Quoted.decode (style.body value.toList) = .ok value.toList := by
  cases style with
  | plain => exact Text.Quoted.decode_eq_self h.2
  | readable => exact Text.Quoted.decode_encode value.toList

theorem whole_print_number (h : x.isFinite = true) :
    Token.Whole ((number x).print style) := by
  obtain ⟨n, width, htext, -⟩ := Number.text_eq h
  obtain ⟨whole, digits, hne, hwhole, hdigits, -, -, hpositional⟩ :=
    Decimal.positional_cases n width
  have hprint : ((number x).print style).toList =
      (if x.negative then ['-'] else []) ++ Number.positional n width := by
    rw [print, String.toList_ofList, htext]
  have hnumber := Token.number_of_digits hwhole hdigits
  rw [← hpositional] at hnumber
  cases hneg : x.negative with
  | true =>
    rw [hneg, if_pos rfl, List.singleton_append] at hprint
    refine Token.whole_of_isNameChar hprint rfl fun c hc => ?_
    rcases List.mem_cons.mp hc with rfl | hc
    · decide
    · rw [← hnumber] at hc
      exact Token.isNameChar_of_mem_number hc
  | false =>
    obtain ⟨c, v, rfl⟩ := List.exists_cons_of_ne_nil hne
    have hc := hwhole c List.mem_cons_self
    rw [hpositional, List.cons_append] at hnumber
    rw [hneg, if_neg Bool.false_ne_true, List.nil_append, hpositional, List.cons_append] at hprint
    exact Token.whole_of_number hprint hc hnumber

/-- The text of a legible atom is one token, and nothing of it is skipped. -/
theorem whole_print (hatom : f.isAtom = true) (hf : f.Legible) (hkeeps : style.Keeps f) :
    Token.Whole (f.print style) := by
  cases f with
  | symbol name => exact hf.whole
  | keyword name =>
    refine Token.whole_of_isNameChar (toList_print_keyword style name) rfl fun c hc => ?_
    rcases List.mem_cons.mp hc with rfl | hc
    · decide
    · exact hf c hc
  | number x => exact whole_print_number hf
  | nil =>
    rw [print]
    exact Token.whole_iff.mpr ⟨'n', ['i', 'l'], rfl, by decide⟩
  | boolean b =>
    rw [print]
    cases b
    · exact Token.whole_iff.mpr ⟨'f', ['a', 'l', 's', 'e'], rfl, by decide⟩
    · exact Token.whole_iff.mpr ⟨'t', ['r', 'u', 'e'], rfl, by decide⟩
  | string value =>
    refine Token.whole_iff.mpr ⟨'"', _, toList_print_string style value, ?_⟩
    exact Token.lexeme?_string (stringBody_body hkeeps) []
  | identifier name | lambda operation => exact hf.elim
  | list items | array items | map entries => cases hatom

variable {t : Token} {c : Char} {s : List Char}

theorem ofToken_symbol {w : Token} (h : w.IsName) : ofToken w = .ok (symbol w) := by
  have hne (v : Token) (hv : v ∈ Token.reserved) : w ≠ v := by
    rintro rfl
    exact h.reserved hv
  have hhead := h.head
  rw [ofToken, h.number]
  change ofWord w = .ok (symbol w)
  unfold ofWord
  split
  · rename_i hs
    rw [hs] at hhead
    exact absurd rfl (hhead ':' rfl).1
  · rename_i hs
    rw [hs] at hhead
    exact absurd rfl (hhead '"' rfl).2
  · rw [if_neg (hne "nil" (by decide)), if_neg (hne "true" (by decide)),
      if_neg (hne "false" (by decide))]

theorem denotes_of_head (ht : t.toList = c :: s) (hl : Token.isDelimiter c = false)
    (hc : c ∉ ['l', 'f', 'i', 'w']) (hform : ofToken t = .ok f) : Token.Denotes t f := by
  have hhead : c ∈ t.toList.head? := by
    rw [ht]
    rfl
  exact ⟨notMem_delimiters hhead hl, ofToken?_eq_none hhead hc, hform⟩

/-- A token that starts like a number is no delimiter and opens no statement. -/
theorem denotes_of_numeral_head (ht : t.toList = c :: s)
    (hc : c.isDigit = true ∨ Token.isSign c = true ∨ c = '.') (hform : ofToken t = .ok f) :
    Token.Denotes t f := by
  refine denotes_of_head ht ?_ ?_ hform
  · cases hl : Token.isDelimiter c with
    | false => rfl
    | true =>
      rcases Token.isDelimiter_cases hl with rfl | rfl | rfl | rfl | rfl | rfl <;>
        revert hc <;> decide
  · intro hmem
    simp only [List.mem_cons, List.not_mem_nil, or_false] at hmem
    rcases hmem with rfl | rfl | rfl | rfl <;> revert hc <;> decide

theorem denotes_of_literal (h : Number.ofLiteral? t.toList = some x) :
    Token.Denotes t (number x) := by
  have hform : ofToken t = .ok (number x) := by rw [ofToken, h]
  cases ht : t.toList with
  | nil =>
    rw [ht] at h
    cases h
  | cons c s =>
    refine denotes_of_numeral_head ht ?_ hform
    by_contra hne
    simp only [not_or, Bool.not_eq_true] at hne
    rw [ht, Decimal.ofLiteral?_eq_none hne.1 hne.2.1 hne.2.2] at h
    cases h

theorem denotes_print_number (h : x.isFinite = true) :
    Token.Denotes ((number x).print style) (number x) := by
  refine denotes_of_literal ?_
  rw [print, String.toList_ofList, Number.ofLiteral?_text h]

/-- The text of a legible atom is read to that atom. -/
theorem denotes_print (hatom : f.isAtom = true) (hf : f.Legible) (hkeeps : style.Keeps f) :
    Token.Denotes (f.print style) f := by
  cases f with
  | symbol name =>
    refine ⟨hf.delimiter, List.find?_eq_none.mpr fun kind hkind heq => ?_, ofToken_symbol hf⟩
    have hword : kind.word ∈ Token.reserved := List.mem_append_left _ (List.mem_map_of_mem hkind)
    rw [eq_of_beq heq] at hword
    exact hf.reserved hword
  | keyword name =>
    have hform := ofToken_keyword (toList_print_keyword style name)
    rw [String.ofList_toList] at hform
    exact denotes_of_head (toList_print_keyword style name) rfl (by decide) hform
  | number x => exact denotes_print_number hf
  | nil =>
    rw [print]
    exact ⟨by decide, by decide, ofToken_eq_ofWord (c := 'n') rfl rfl rfl (by decide)⟩
  | boolean b =>
    rw [print]
    cases b
    · exact ⟨by decide, by decide, ofToken_eq_ofWord (c := 'f') rfl rfl rfl (by decide)⟩
    · exact ⟨by decide, by decide, ofToken_eq_ofWord (c := 't') rfl rfl rfl (by decide)⟩
  | string value =>
    have hform := (ofToken_quoted (toList_print_string style value)).mpr
      ⟨_, decode_body hkeeps, rfl⟩
    rw [String.ofList_toList] at hform
    exact denotes_of_head (toList_print_string style value) rfl (by decide) hform
  | identifier name | lambda operation => exact hf.elim
  | list items | array items | map entries => cases hatom

end Form
end Sexpr
