import Sexpr.Token.Basic

/-! The classes of characters that tell tokens apart do not meet. -/
namespace Sexpr

variable {c : Char}

/-- What holds of the first code points holds of every character among them. -/
theorem of_ascii (p : Char → Bool) (h : (List.range 0x80).all (fun n => p (Char.ofNat n)) = true)
    (hc : c.toNat < 0x80) : p c = true := by
  have := List.all_eq_true.mp h c.toNat (List.mem_range.mpr hc)
  rwa [Char.ofNat_toNat] at this

namespace Text

/-- A run of one class ends where a character outside of the class follows. -/
theorem takeWhile_append_of_stop {p : Char → Bool} {w rest : List Char}
    (hw : ∀ c ∈ w, p c = true) (hr : ∀ c ∈ rest.head?, p c = false) :
    (w ++ rest).takeWhile p = w := by
  rw [List.takeWhile_append_of_pos hw]
  cases rest with
  | nil => simp
  | cons c rest => simp [hr c rfl]

/-- What is left of such a run is what follows it. -/
theorem dropWhile_append_of_stop {p : Char → Bool} {w rest : List Char}
    (hw : ∀ c ∈ w, p c = true) (hr : ∀ c ∈ rest.head?, p c = false) :
    (w ++ rest).dropWhile p = rest := by
  rw [List.dropWhile_append_of_pos hw]
  cases rest with
  | nil => rfl
  | cons c rest => simp [hr c rfl]

/-- No range of letters meets a range of blanks. The tables are compared range by range, since the
characters in them are too many to be gone through. -/
theorem wide_not_blank :
    wideWordRanges.all (fun w => blankRanges.all fun b => w.2 < b.1 || b.2 < w.1) = true := by
  decide +kernel

/-- No character of a word is blank: the first ones one by one, the others by the tables. -/
theorem isBlank_of_isWordChar (h : isWordChar c = true) : isBlank c = false := by
  by_cases hc : c.toNat < 0x80
  · have := of_ascii (fun c => !(isWordChar c && isBlank c)) (by decide +kernel) hc
    simpa [h] using this
  · rw [isWordChar, if_neg hc] at h
    simp only [List.any_eq_true, Bool.and_eq_true, decide_eq_true_eq] at h
    obtain ⟨w, hw, hl, hr⟩ := h
    have hall := List.all_eq_true.mp wide_not_blank w hw
    simp only [List.all_eq_true, Bool.or_eq_true, decide_eq_true_eq] at hall
    simp only [isBlank, List.any_eq_false, Bool.and_eq_true, decide_eq_true_eq]
    intro b hb
    have := hall b hb
    omega

end Text

namespace Token

theorem isBlank_of_isNameChar (h : isNameChar c = true) : Text.isBlank c = false := by
  rw [isNameChar, Bool.or_eq_true] at h
  rcases h with h | h
  · exact Text.isBlank_of_isWordChar h
  · have hsigns : nameSigns.all (fun c => !Text.isBlank c) = true := by decide
    simpa using List.all_eq_true.mp hsigns c (by simpa using h)

/-- Digits may stand in names, so only what follows tells where a number ends. -/
theorem isNameChar_of_isDigit (h : c.isDigit = true) : isNameChar c = true := by
  have hc : c.toNat < 0x80 := by
    simp only [Char.isDigit, Bool.and_eq_true, decide_eq_true_eq, ge_iff_le] at h
    exact Nat.lt_of_le_of_lt (UInt32.le_iff_toNat_le.mp h.2) (by decide)
  simp [isNameChar, Text.isWordChar, hc, Char.isAlphanum, h]

/-- The six delimiters. -/
theorem isDelimiter_cases (h : isDelimiter c = true) :
    c = '[' ∨ c = ']' ∨ c = '(' ∨ c = ')' ∨ c = '\x7b' ∨ c = '\x7d' := by
  simpa [isDelimiter, isBracket, isParen, isBrace, or_assoc] using h

/-- No name goes on past a delimiter. -/
theorem isNameChar_of_isDelimiter (h : isDelimiter c = true) : isNameChar c = false := by
  rcases isDelimiter_cases h with rfl | rfl | rfl | rfl | rfl | rfl <;> decide

theorem isBlank_of_isDelimiter (h : isDelimiter c = true) : Text.isBlank c = false := by
  rcases isDelimiter_cases h with rfl | rfl | rfl | rfl | rfl | rfl <;> decide

theorem isNameChar_of_isBlank (h : Text.isBlank c = true) : isNameChar c = false := by
  cases hn : isNameChar c with
  | false => rfl
  | true => rw [isBlank_of_isNameChar hn] at h; cases h

theorem isDelimiter_of_isBlank (h : Text.isBlank c = true) : isDelimiter c = false := by
  cases hd : isDelimiter c with
  | false => rfl
  | true => rw [isBlank_of_isDelimiter hd] at h; cases h

theorem isDigit_of_not_isNameChar (h : isNameChar c = false) : c.isDigit = false := by
  cases hd : c.isDigit with
  | false => rfl
  | true => rw [isNameChar_of_isDigit hd] at h; cases h

theorem ne_quote_of_isDigit (h : c.isDigit = true) : c ≠ '"' := by
  rintro rfl
  cases h

theorem ne_quote_of_isDelimiter (h : isDelimiter c = true) : c ≠ '"' := by
  rintro rfl
  cases h

theorem isNameChar_of_isSign (h : isSign c = true) : isNameChar c = true := by
  rw [isSign, Bool.or_eq_true, beq_iff_eq, beq_iff_eq] at h
  rcases h with rfl | rfl <;> decide

theorem isNameChar_of_isExponentMark (h : isExponentMark c = true) : isNameChar c = true := by
  rw [isExponentMark, Bool.or_eq_true, beq_iff_eq, beq_iff_eq] at h
  rcases h with rfl | rfl <;> decide

theorem isDigit_of_isExponentMark (h : isExponentMark c = true) : c.isDigit = false := by
  rw [isExponentMark, Bool.or_eq_true, beq_iff_eq, beq_iff_eq] at h
  rcases h with rfl | rfl <;> rfl

theorem isSign_of_isDigit (h : c.isDigit = true) : isSign c = false := by
  cases hs : isSign c with
  | false => rfl
  | true =>
    rw [isSign, Bool.or_eq_true, beq_iff_eq, beq_iff_eq] at hs
    rcases hs with rfl | rfl <;> cases h

theorem isDigit_of_isSign (h : isSign c = true) : c.isDigit = false := by
  rw [isSign, Bool.or_eq_true, beq_iff_eq, beq_iff_eq] at h
  rcases h with rfl | rfl <;> rfl

end Token
end Sexpr
