import Sexpr.Proofs.Number.Grammar
import Sexpr.Proofs.Reader.Extension
import Sexpr.Proofs.Reader.Failure

/-! Texts that are literals. Each is read as its number, though tokens follow a grammar of their own:
only digits and a point with no digit behind it are cut in two, and a sign in front prevents that. -/
namespace Sexpr

namespace Decimal

open Token

/-- Digits and a point that no digit follows, and then an exponent or none. -/
structure EndsInPoint (s whole power : List Char) : Prop where
  split : s = whole ++ '.' :: power
  isWhole : ∀ c ∈ whole, c.isDigit = true
  ne : whole ≠ []
  isPower : OptionalPower power

variable {s sign whole power : List Char}

theorem OptionalSign.isNameChar (h : OptionalSign sign) : ∀ c ∈ sign, isNameChar c = true := by
  rcases h with rfl | ⟨x, hx, rfl⟩
  · exact List.forall_mem_nil _
  · exact List.forall_mem_singleton.mpr (isNameChar_of_isSign hx)

theorem OptionalPower.isNameChar (h : OptionalPower power) :
    ∀ c ∈ power, isNameChar c = true := by
  cases h with
  | none => exact List.forall_mem_nil _
  | some hmark hsign _ hdigits =>
    exact List.forall_mem_cons.mpr ⟨isNameChar_of_isExponentMark hmark,
      List.forall_mem_append.mpr ⟨hsign.isNameChar, fun c hc => isNameChar_of_isDigit (hdigits c hc)⟩⟩

theorem OptionalPower.exponent_eq (h : OptionalPower power) : Token.exponent power = power := by
  cases h with
  | none => rfl
  | some hmark hsign hne hdigits =>
    have hself := exponent_mark_append hmark hsign hne hdigits stops_nil.isDigit
    rwa [List.append_nil] at hself

/-- The point and what follows it go on with no number. -/
theorem EndsInPoint.number_eq (h : EndsInPoint s whole power) :
    number (whole ++ '.' :: power) = whole := by
  have hstop : ∀ c ∈ ('.' :: power).head?, c.isDigit = false := by
    intro c hc
    cases hc
    rfl
  have hdigits : power.takeWhile Char.isDigit = [] := by
    have hhead : ∀ c ∈ power.head?, c.isDigit = false := fun c hc => (h.isPower.head c hc).1
    exact Text.takeWhile_append_of_stop (List.forall_mem_nil _) hhead
  have hfraction : fraction ('.' :: power) = [] := by simp [fraction, hdigits]
  have hexponent : Token.exponent ('.' :: power) = [] := by
    have hmark : isExponentMark '.' = false := rfl
    simp [Token.exponent, hmark]
  rw [number, Text.takeWhile_append_of_stop h.isWhole hstop]
  rw [List.drop_left, hfraction, List.length_nil, Nat.add_zero, List.drop_left, hexponent,
    List.append_nil, List.append_nil]

namespace Numeral

variable (n : Numeral)

theorem isNameChar_spelling : ∀ c ∈ n.spelling, isNameChar c = true := by
  have hpoint : ∀ c ∈ n.point, isNameChar c = true := by
    rcases n.isPoint with hpoint | ⟨digits, hdigits, hpoint⟩
    · rw [hpoint]
      exact List.forall_mem_nil _
    · rw [hpoint]
      exact List.forall_mem_cons.mpr ⟨by decide, fun c hc => isNameChar_of_isDigit (hdigits c hc)⟩
  simp only [spelling, List.forall_mem_append]
  exact ⟨n.isSign.isNameChar, fun c hc => isNameChar_of_isDigit (n.isWhole c hc), hpoint,
    n.isPower.isNameChar⟩

/-- A number goes on to the end of a literal, if a digit follows the point or there is none. -/
theorem number_eq (h : n.point ≠ ['.']) :
    number (n.whole ++ (n.point ++ n.power)) = n.whole ++ (n.point ++ n.power) := by
  have hfraction : fraction n.point = n.point := by
    rcases n.isPoint with hpoint | ⟨digits, hdigits, hpoint⟩
    · rw [hpoint]
      rfl
    · have hne : digits ≠ [] := by
        rintro rfl
        exact h hpoint
      rw [hpoint]
      exact fraction_point hne hdigits
  have hnumber := number_of_parts n.isWhole hfraction n.isPower.exponent_eq stops_nil
  rwa [List.append_nil] at hnumber

/-- A literal is one token, as a number or as a name, unless no digit follows its point. -/
theorem whole_or_endsInPoint {t : Token} (ht : n.spelling = t.toList) :
    Whole t ∨ EndsInPoint t.toList n.whole n.power := by
  obtain ⟨c, s, hs, hc⟩ := n.head_unsigned
  have hall := n.isNameChar_spelling
  rcases n.isSign with hsign | ⟨x, hx, hsign⟩
  · rw [spelling, hsign, List.nil_append] at ht hall
    rcases hc with hc | rfl
    · by_cases hpoint : n.point = ['.']
      · refine .inr ⟨?_, n.isWhole, ?_, n.isPower⟩
        · rw [← ht, hpoint]
          rfl
        · intro hwhole
          rw [hwhole, hpoint] at hs
          cases hs
          cases hc
      · have hnumber := n.number_eq hpoint
        rw [hs] at hnumber
        exact .inl (whole_of_number (ht.symm.trans hs) hc hnumber)
    · rw [hs] at hall
      exact .inl (whole_of_isNameChar (ht.symm.trans hs) rfl hall)
  -- No number starts with a sign, so the whole literal is scanned as a name.
  · rw [spelling, hsign] at ht hall
    exact .inl (whole_of_isNameChar ht.symm (isDigit_of_isSign hx) hall)

end Numeral

/-- A point with no digit on either side starts no literal. -/
theorem ofLiteral?_point (h : OptionalPower power) : Number.ofLiteral? ('.' :: power) = none := by
  have hsplit := splitFraction_append (List.forall_mem_nil _) h
  have hparse : parse? ('.' :: power) = none := by
    rw [List.nil_append] at hsplit
    simp [parse?, splitSign, isSign, hsplit]
  rw [Number.ofLiteral?, hparse]
  rfl

/-- A point and an exponent or none are a name. -/
theorem isName_point (h : OptionalPower power) : IsName (String.ofList ('.' :: power)) := by
  have ht : (String.ofList ('.' :: power)).toList = '.' :: power := String.toList_ofList
  have hhead : '.' ∈ (String.ofList ('.' :: power)).toList.head? := by
    rw [ht]
    rfl
  refine ⟨?_, Form.notMem_delimiters hhead rfl, ?_, ?_, ?_⟩
  · exact whole_of_isNameChar ht rfl (List.forall_mem_cons.mpr ⟨by decide, h.isNameChar⟩)
  · rw [ht]
    intro c hc
    cases hc
    decide
  · have hreserved : ∀ w ∈ reserved, '.' ∉ w.toList.head? := by decide
    exact fun hmem => hreserved _ hmem hhead
  · rw [ht]
    exact ofLiteral?_point h

end Decimal

namespace Form

variable {c : Char} {s : List Char}

/-- Whatever number they spell, or if they spell none, digits stand for some form. -/
theorem exists_denotes_of_isDigit (hc : c.isDigit = true) :
    ∃ f, Token.Denotes (String.ofList (c :: s)) f := by
  have ht : (String.ofList (c :: s)).toList = c :: s := String.toList_ofList
  cases hf : ofToken (String.ofList (c :: s)) with
  | ok f => exact ⟨f, denotes_of_numeral_head ht (.inl hc) hf⟩
  | error e =>
    obtain ⟨body, hbody⟩ := exists_quote_of_error hf
    cases ht.symm.trans hbody
    cases hc

end Form

open Decimal

variable {t : String} {x : Number} {whole power : List Char}

theorem tokenize_of_endsInPoint (h : EndsInPoint t.toList whole power) :
    Token.Whole (String.ofList whole) ∧
      tokenize t = [String.ofList whole, String.ofList ('.' :: power)] := by
  obtain ⟨c, s, rfl⟩ := List.exists_cons_of_ne_nil h.ne
  have hc := h.isWhole c List.mem_cons_self
  have hlexeme : Token.lexeme? c (s ++ '.' :: power) = some (c :: s) := by
    rw [Token.lexeme?_of_isDigit hc, ← List.cons_append, h.number_eq]
  have hwhole : Token.Whole (String.ofList (c :: s)) := by
    have hnumber := Token.number_of_digits h.isWhole (List.forall_mem_nil _)
    rw [if_pos rfl, List.append_nil] at hnumber
    exact Token.whole_of_number String.toList_ofList hc hnumber
  have hrest : tokenize (String.ofList ('.' :: power)) = [String.ofList ('.' :: power)] :=
    (isName_point h.isPower).whole
  rw [tokenize, String.toList_ofList] at hrest
  refine ⟨hwhole, ?_⟩
  rw [tokenize, h.split, List.cons_append, Token.scan_of_lexeme? hlexeme, hrest]

/-- What the digits are read as comes first, and the point starts a symbol. -/
theorem read_of_endsInPoint [Visiting] (h : EndsInPoint t.toList whole power) :
    ∃ f, read (String.ofList whole) = .ok [f] ∧
      read t = .ok [f, .symbol (String.ofList ('.' :: power))] := by
  obtain ⟨c, s, rfl⟩ := List.exists_cons_of_ne_nil h.ne
  obtain ⟨hwhole, htokens⟩ := tokenize_of_endsInPoint h
  obtain ⟨f, hf⟩ := Form.exists_denotes_of_isDigit (s := s) (h.isWhole c List.mem_cons_self)
  have hsymbol : Token.Denotes (String.ofList ('.' :: power))
      (.symbol (String.ofList ('.' :: power))) :=
    Form.denotes_of_numeral_head String.toList_ofList (.inr (.inr rfl))
      (Form.ofToken_symbol (isName_point h.isPower))
  refine ⟨f, read_whole hwhole hf, ?_⟩
  have happend := readTokens_append (readTokens_singleton hf) [String.ofList ('.' :: power)]
  rw [readTokens_singleton hsymbol] at happend
  rw [read, htokens]
  exact happend

/-- A literal is read as the number it stands for just if it is not digits and a point that no digit
follows. If it is, the digits are read as if they stood alone, and the rest is a symbol. -/
theorem read_literal [Visiting] (h : Number.ofLiteral? t.toList = some x) :
    (read t = .ok [.number x] ↔ ¬ ∃ whole power, EndsInPoint t.toList whole power) ∧
      ∀ whole power, EndsInPoint t.toList whole power →
        ∃ f, read (String.ofList whole) = .ok [f] ∧
          read t = .ok [f, .symbol (String.ofList ('.' :: power))] := by
  have hparse : (parse? t.toList).isSome = true := by
    obtain ⟨hsome, -⟩ := Option.filter_eq_some_iff.mp h
    obtain ⟨d, hd, -⟩ := Option.map_eq_some_iff.mp hsome
    rw [hd]
    rfl
  obtain ⟨n, hn⟩ := parse?_isSome_iff.mp hparse
  refine ⟨⟨?_, fun hnone => ?_⟩, fun _ _ hends => read_of_endsInPoint hends⟩
  · rintro hread ⟨whole, power, hends⟩
    obtain ⟨f, -, htwo⟩ := read_of_endsInPoint hends
    cases hread.symm.trans htwo
  · rcases n.whole_or_endsInPoint hn with hwhole | hends
    · exact read_whole hwhole (Form.denotes_of_literal h)
    · exact absurd ⟨_, _, hends⟩ hnone

/-- An exponent right behind the point, and a point at the end behind a sign. -/
theorem read_literal_signed :
    read "1.e5" = .ok [.number .one, .symbol ".e5"] ∧
      read "-5." = .ok [.number (.ofMagnitude true 0x4014000000000000)] := by
  have hone : Number.ofLiteral? "1".toList = some .one := by decide +kernel
  have hpower : Number.ofLiteral? "1.e5".toList = some (.ofMagnitude false 0x40F86A0000000000) := by
    decide +kernel
  have hsigned : Number.ofLiteral? "-5.".toList = some (.ofMagnitude true 0x4014000000000000) := by
    decide +kernel
  have hends : EndsInPoint "1.e5".toList ['1'] ['e', '5'] :=
    ⟨rfl, List.forall_mem_singleton.mpr rfl, by decide, exponent?_isSome_iff.mp (by decide)⟩
  have hdigit : read "1" = .ok [.number .one] := by
    refine (read_literal hone).1.mpr ?_
    rintro ⟨whole, power, hends⟩
    have hmem : '.' ∈ "1".toList := hends.split ▸ by simp
    revert hmem
    decide
  constructor
  · obtain ⟨f, hf, htwo⟩ := (read_literal hpower).2 _ _ hends
    cases hdigit.symm.trans hf
    exact htwo
  · refine (read_literal hsigned).1.mpr ?_
    rintro ⟨whole, power, hends⟩
    obtain ⟨c, s, rfl⟩ := List.exists_cons_of_ne_nil hends.ne
    have hc := hends.isWhole c List.mem_cons_self
    have hhead : some '-' = some c := congrArg List.head? hends.split
    cases hhead
    cases hc

end Sexpr
