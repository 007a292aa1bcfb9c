import Mathlib.Data.List.TakeWhile
import Mathlib.Tactic.SplitIfs
import Sexpr.Proofs.Token.Classes
import Sexpr.Proofs.Token.Matching
import Sexpr.Token.Lexicon
import Sexpr.Token.Scan

/-! What the rules of the table match at the head of a text, in terms of the one-pass scanner. -/
namespace Sexpr

namespace Token

variable {c : Char} {s : List Char} {n k : Nat}

/-- What may stand between the quotes of a string. -/
inductive StringBody : List Char → Prop where
  | nil : StringBody []
  | plain {c : Char} {s : List Char} : c ≠ '"' → c ≠ '\\' → StringBody s → StringBody (c :: s)
  | escape {d : Char} {s : List Char} : d ≠ '\n' → StringBody s → StringBody ('\\' :: d :: s)

theorem closing_quote : closing n ('"' :: s) = some (n + 1) := by rw [closing.eq_def]; rfl

theorem closing_plain (hq : c ≠ '"') (hb : c ≠ '\\') : closing n (c :: s) = closing (n + 1) s := by
  rw [closing.eq_def]
  simp [hq, hb]

theorem closing_escape {d : Char} (hd : d ≠ '\n') :
    closing n ('\\' :: d :: s) = closing (n + 2) s := by
  rw [closing.eq_def]
  simp [hd]

/-- The scanner finds the quote that closes a string, past all escapes. -/
theorem closing_append {body : List Char} (h : StringBody body) (n : Nat) (rest : List Char) :
    closing n (body ++ '"' :: rest) = some (n + body.length + 1) := by
  induction h generalizing n with
  | nil => exact closing_quote
  | plain hq hb _ ih =>
    rw [List.cons_append, closing_plain hq hb, ih]
    simp only [List.length_cons]
    congr 1
    omega
  | escape hd _ ih =>
    rw [List.cons_append, List.cons_append, closing_escape hd, ih]
    simp only [List.length_cons]
    congr 1
    omega

theorem closing_eq_some (h : closing n s = some k) :
    ∃ body rest, StringBody body ∧ s = body ++ '"' :: rest ∧ k = n + body.length + 1 := by
  fun_induction closing n s with
  | case1 => cases h
  | case2 n s => cases h; exact ⟨[], s, .nil, rfl, rfl⟩
  | case3 => cases h
  | case4 => cases h
  | case5 n d s hd _ ih =>
    obtain ⟨body, rest, hb, rfl, rfl⟩ := ih h
    exact ⟨'\\' :: d :: body, rest, .escape hd hb, rfl, by simp only [List.length_cons]; omega⟩
  | case6 n c s hq hb ih =>
    obtain ⟨body, rest, hbody, rfl, rfl⟩ := ih h
    exact ⟨c :: body, rest, .plain hq hb hbody, rfl, by simp only [List.length_cons]; omega⟩

theorem fraction_isPrefix (s : List Char) : fraction s <+: s := by
  cases s with
  | nil => exact List.prefix_refl _
  | cons c s =>
    rw [fraction]
    split
    · exact List.cons_prefix_cons.mpr ⟨rfl, List.takeWhile_prefix _⟩
    · exact List.nil_prefix

theorem sign_isPrefix (s : List Char) : (s.take 1).filter isSign <+: s := by
  cases s with
  | nil => exact List.prefix_refl _
  | cons c s => by_cases hc : isSign c = true <;> simp [hc]

/-- A prefix and a prefix of what follows it make a prefix. -/
theorem append_isPrefix {w v s : List Char} (hw : w <+: s) (hv : v <+: s.drop w.length) :
    w ++ v <+: s := by
  obtain ⟨rest, rfl⟩ := hw
  rw [List.drop_left] at hv
  exact (List.prefix_append_right_inj w).mpr hv

theorem exponent_isPrefix (s : List Char) : exponent s <+: s := by
  cases s with
  | nil => exact List.prefix_refl _
  | cons c s =>
    rw [exponent]
    split
    · rw [List.cons_append]
      exact List.cons_prefix_cons.mpr
        ⟨rfl, append_isPrefix (sign_isPrefix s) (List.takeWhile_prefix _)⟩
    · exact List.nil_prefix

/-- What is taken for a number stands at the head of the text. -/
theorem number_isPrefix (s : List Char) : number s <+: s := by
  have hwhole := List.takeWhile_prefix (l := s) Char.isDigit
  have hpoint := append_isPrefix hwhole (fraction_isPrefix _)
  apply append_isPrefix hpoint
  rw [List.length_append]
  exact exponent_isPrefix _

theorem fraction_cases (s : List Char) : fraction s = [] ∨
    ∃ digits, digits ≠ [] ∧ (∀ c ∈ digits, c.isDigit = true) ∧ fraction s = '.' :: digits := by
  cases s with
  | nil => exact Or.inl rfl
  | cons c s =>
    rw [fraction]
    split
    · rename_i h
      refine Or.inr ⟨_, h.2, fun x hx => List.mem_takeWhile_imp hx, ?_⟩
      rw [h.1]
    · exact Or.inl rfl

theorem sign_cases (s : List Char) : (s.take 1).filter isSign = [] ∨
    ∃ x, isSign x = true ∧ (s.take 1).filter isSign = [x] := by
  cases s with
  | nil => exact Or.inl rfl
  | cons c s =>
    by_cases hc : isSign c = true
    · exact Or.inr ⟨c, hc, by simp [hc]⟩
    · exact Or.inl (by simp [hc])

theorem exponent_cases (s : List Char) : exponent s = [] ∨
    ∃ mark sign digits, isExponentMark mark = true ∧
      (sign = [] ∨ ∃ x, isSign x = true ∧ sign = [x]) ∧ digits ≠ [] ∧
      (∀ c ∈ digits, c.isDigit = true) ∧ exponent s = mark :: sign ++ digits := by
  cases s with
  | nil => exact Or.inl rfl
  | cons c s =>
    rw [exponent]
    split
    · rename_i h
      exact Or.inr ⟨c, _, _, h.1, sign_cases s, h.2, fun x hx => List.mem_takeWhile_imp hx, rfl⟩
    · exact Or.inl rfl

/-- The four kinds of tokens by their first character. -/
theorem lexeme?_cases {w : List Char} (h : lexeme? c s = some w) :
    (∃ body rest, StringBody body ∧ c = '"' ∧ s = body ++ '"' :: rest ∧ w = '"' :: body ++ ['"']) ∨
      (c.isDigit = true ∧ w = number (c :: s)) ∨
      (isDelimiter c = true ∧ w = [c]) ∨
      (c ≠ '"' ∧ c.isDigit = false ∧ isDelimiter c = false ∧ isNameChar c = true ∧
        w = c :: s.takeWhile isNameChar) := by
  unfold lexeme? at h
  split_ifs at h with hq hd hl hn
  · obtain ⟨n, hn, rfl⟩ := Option.map_eq_some_iff.mp h
    obtain ⟨body, rest, hbody, rfl, rfl⟩ := closing_eq_some hn
    refine Or.inl ⟨body, rest, hbody, hq, rfl, ?_⟩
    simp [hq, List.take_append, List.take_of_length_le]
  · cases h
    exact Or.inr (Or.inl ⟨hd, rfl⟩)
  · cases h
    exact Or.inr (Or.inr (Or.inl ⟨hl, rfl⟩))
  · cases h
    exact Or.inr (Or.inr (Or.inr ⟨hq, by simpa using hd, by simpa using hl, hn, rfl⟩))

theorem lexeme?_eq_none (h : lexeme? c s = none) :
    (c ≠ '"' ∨ c = '"' ∧ closing 0 s = none) ∧ isDelimiter c = false ∧ isNameChar c = false := by
  unfold lexeme? at h
  split_ifs at h with hq hd hl hn
  · subst hq
    exact ⟨Or.inr ⟨rfl, Option.map_eq_none_iff.mp h⟩, by decide, by decide⟩
  · exact ⟨Or.inl hq, by simpa using hl, by simpa using hn⟩

end Token

namespace Lexicon

open Pattern Token

variable {c : Char} {s : List Char}

def plain : Pattern := .star (.char fun c => c != '"' && c != '\\')

def escapes : Pattern := .star (.sequence [.text ['\\'], .char (· != '\n'), plain])

/-- What is left after the first run of plain characters of a string. -/
def ending (s : List Char) : List (List Char) :=
  (escapes.rests s).flatMap (seq (text ['"']) empty).rests

theorem rests_string : string.rests ('"' :: s) = (plain.rests s).flatMap ending := by
  change (seq (text ['"']) (seq plain (seq escapes (seq (text ['"']) empty)))).rests _ = _
  rw [rests_seq, rests_text_singleton, if_pos rfl, List.flatMap_singleton, rests_seq]
  rfl

theorem rests_string_of_ne (h : c ≠ '"') : string.rests (c :: s) = [] := by
  change (seq (text ['"']) (seq plain (seq escapes (seq (text ['"']) empty)))).rests _ = _
  rw [rests_seq, rests_text_singleton, if_neg h, List.flatMap_nil]

theorem rests_escapes_of_ne (hb : c ≠ '\\') : escapes.rests (c :: s) = [c :: s] := by
  have : (sequence [text ['\\'], .char (· != '\n'), plain]).rests (c :: s) = [] := by
    change (seq (text ['\\']) _).rests _ = _
    rw [rests_seq, rests_text_singleton, if_neg hb, List.flatMap_nil]
  rw [escapes, rests_star, this]
  rfl

theorem rests_quote : (seq (text ['"']) empty).rests (c :: s) = if c = '"' then [s] else [] := by
  rw [rests_seq, rests_text_singleton]
  split <;> rfl

theorem ending_plain (hq : c ≠ '"') (hb : c ≠ '\\') : ending (c :: s) = [] := by
  rw [ending, rests_escapes_of_ne hb, List.flatMap_singleton, rests_quote, if_neg hq]

theorem ending_quote : ending ('"' :: s) = [s] := by
  rw [ending, rests_escapes_of_ne (by decide), List.flatMap_singleton, rests_quote, if_pos rfl]

/-- What is left after a string whose opening quote is gone. -/
def bodyRests (s : List Char) : List (List Char) := (plain.rests s).flatMap ending

/-- Plain characters can be gone over at once: in none of the ways to match does a string end there. -/
theorem bodyRests_eq : bodyRests s = ending (s.dropWhile fun c => c != '"' && c != '\\') := by
  apply flatMap_rests_star_char
  intro c s hc
  simp only [Bool.and_eq_true, bne_iff_ne] at hc
  exact ending_plain hc.1 hc.2

theorem bodyRests_plain (hq : c ≠ '"') (hb : c ≠ '\\') : bodyRests (c :: s) = bodyRests s := by
  rw [bodyRests_eq, bodyRests_eq, List.dropWhile_cons, if_pos (by simp [hq, hb])]

theorem bodyRests_quote : bodyRests ('"' :: s) = [s] := by
  rw [bodyRests_eq]
  exact ending_quote

theorem rests_escape {d : Char} :
    (sequence [text ['\\'], .char (· != '\n'), plain]).rests ('\\' :: d :: s) =
      if d = '\n' then [] else plain.rests s := by
  change (seq (text ['\\']) (seq (.char (· != '\n')) (seq plain empty))).rests _ = _
  rw [rests_seq, rests_text_singleton, if_pos rfl, List.flatMap_singleton, rests_seq,
    rests_char_cons]
  by_cases hd : d = '\n'
  · simp [hd]
  · have : (seq plain empty).rests s = plain.rests s := List.flatMap_singleton' _
    simp [hd, this]

/-- A backslash and the character after it, and then plain characters as before. -/
theorem bodyRests_escape {d : Char} :
    bodyRests ('\\' :: d :: s) = if d = '\n' then [] else bodyRests s := by
  have hrounds : (escapes.rests ('\\' :: d :: s)) =
      (if d = '\n' then [] else plain.rests s).flatMap escapes.rests ++ ['\\' :: d :: s] := by
    rw [escapes, rests_star, rests_escape]
    congr 2
    apply List.filter_eq_self.mpr
    intro t ht
    split at ht
    · cases ht
    · have := length_le_of_mem_rests_star_char ht
      simp only [List.length_cons, decide_eq_true_eq]
      omega
  have hquote : (seq (text ['"']) empty).rests ('\\' :: d :: s) = [] := rests_quote
  rw [bodyRests_eq]
  change ending ('\\' :: d :: s) = _
  rw [ending, hrounds, List.flatMap_append, List.flatMap_singleton, hquote, List.append_nil,
    List.flatMap_assoc]
  split <;> rfl

/-- The string rule matches in no way but up to the quote that closes the string. -/
theorem bodyRests_append {body : List Char} (h : StringBody body) (rest : List Char) :
    bodyRests (body ++ '"' :: rest) = [rest] := by
  induction h with
  | nil => exact bodyRests_quote
  | plain hq hb _ ih => rw [List.cons_append, bodyRests_plain hq hb, ih]
  | escape hd _ ih => rw [List.cons_append, List.cons_append, bodyRests_escape, if_neg hd, ih]

/-- A string that is never closed is matched in no way. -/
theorem bodyRests_of_closing_eq_none {n : Nat} (h : closing n s = none) : bodyRests s = [] := by
  fun_induction closing n s with
  | case1 => rfl
  | case2 => cases h
  | case3 => rfl
  | case4 => rw [bodyRests_escape, if_pos rfl]
  | case5 n d s hd _ ih => rw [bodyRests_escape, if_neg hd, ih h]
  | case6 n c s hq hb ih => rw [bodyRests_plain hq hb, ih h]

theorem rests_seq_empty (p : Pattern) : (seq p empty).rests s = p.rests s :=
  List.flatMap_singleton' _

theorem head?_rests_digits :
    (digits.rests s).head? =
      if s.takeWhile Char.isDigit = [] then none else some (s.dropWhile Char.isDigit) := by
  cases s with
  | nil => rfl
  | cons c s =>
    rw [digits, rests_plus, rests_char_cons]
    by_cases hc : c.isDigit = true
    · simp [hc, head?_rests_star_char]
    · simp [hc]

theorem rests_digits_of_not_isDigit (h : c.isDigit = false) : digits.rests (c :: s) = [] := by
  rw [digits, rests_plus, rests_char_cons]
  simp [h]

theorem drop_length_takeWhile (accepts : Char → Bool) (s : List Char) :
    s.drop (s.takeWhile accepts).length = s.dropWhile accepts := by
  induction s with
  | nil => rfl
  | cons c s ih =>
    rw [List.takeWhile_cons, List.dropWhile_cons]
    split
    · exact ih
    · rfl

/-- A fraction is taken if there is one, since that is tried first. -/
theorem head?_rests_fraction :
    ((optional (.sequence [.text ['.'], digits])).rests s).head? =
      some (s.drop (fraction s).length) := by
  rw [rests_optional, List.head?_append]
  cases s with
  | nil => rfl
  | cons c s =>
    change ((seq (.text ['.']) (seq digits empty)).rests _).head?.or _ = _
    rw [rests_seq, rests_text_singleton]
    by_cases hc : c = '.'
    · rw [if_pos hc, List.flatMap_singleton, rests_seq_empty, head?_rests_digits]
      by_cases hd : s.takeWhile Char.isDigit = []
      · simp [fraction, hd]
      · simp [fraction, hc, hd, drop_length_takeWhile]
    · simp [fraction, hc]

/-- A sign is taken along if there is one; without it no digit could follow. -/
theorem head?_rests_signed :
    ((seq (.optional (.char isSign)) digits).rests s).head? =
      (digits.rests (s.drop ((s.take 1).filter isSign).length)).head? := by
  rw [rests_seq, rests_optional]
  cases s with
  | nil => rfl
  | cons c s =>
    by_cases hc : isSign c = true
    · have hd : c.isDigit = false := by
        simp only [isSign, Bool.or_eq_true, beq_iff_eq] at hc
        rcases hc with rfl | rfl <;> rfl
      simp [rests_char_cons, hc, rests_digits_of_not_isDigit hd]
    · simp [rests_char_cons, hc]

theorem head?_rests_exponent :
    ((optional (.sequence [.char isExponentMark, .optional (.char isSign), digits])).rests s).head? =
      some (s.drop (exponent s).length) := by
  rw [rests_optional, List.head?_append]
  cases s with
  | nil => rfl
  | cons c s =>
    have hsigned : (sequence [.optional (.char isSign), digits]).rests s =
        (seq (.optional (.char isSign)) digits).rests s := by
      change (seq (.optional (.char isSign)) (seq digits empty)).rests _ = _
      rw [rests_seq, rests_seq]
      congr 1
      funext t
      exact rests_seq_empty digits
    change ((seq (.char isExponentMark) (sequence [.optional (.char isSign), digits])).rests
      _).head?.or _ = _
    rw [rests_seq, rests_char_cons]
    by_cases hc : isExponentMark c = true
    · rw [if_pos hc, List.flatMap_singleton, hsigned, head?_rests_signed, head?_rests_digits]
      by_cases hd : (s.drop ((s.take 1).filter isSign).length).takeWhile Char.isDigit = []
      · simp [exponent, hd]
      · simp [exponent, hc, hd, drop_length_takeWhile, ← List.drop_drop]
    · simp [exponent, hc]

/-- The number rule takes the digits, the fraction and the exponent that the scanner takes. -/
theorem head?_rests_number (hc : c.isDigit = true) :
    (number.rests (c :: s)).head? = some ((c :: s).drop (Token.number (c :: s)).length) := by
  let fractional : Pattern := .optional (.sequence [.text ['.'], digits])
  let exponential : Pattern :=
    .optional (.sequence [.char isExponentMark, .optional (.char isSign), digits])
  have hwhole : (digits.rests (c :: s)).head? =
      some ((c :: s).drop ((c :: s).takeWhile Char.isDigit).length) := by
    rw [head?_rests_digits, drop_length_takeWhile]
    simp [hc]
  have hexp (t : List Char) : ((seq exponential empty).rests t).head? =
      some (t.drop (exponent t).length) := by
    rw [rests_seq_empty]
    exact head?_rests_exponent
  have hfrac (t : List Char) : ((seq fractional (seq exponential empty)).rests t).head? =
      some ((t.drop (fraction t).length).drop (exponent (t.drop (fraction t).length)).length) := by
    rw [rests_seq, head?_flatMap_of_head? head?_rests_fraction, hexp]
    intro h
    have := hexp (t.drop (fraction t).length)
    simp [h] at this
  change ((seq digits (seq fractional (seq exponential empty))).rests _).head? = _
  rw [rests_seq, head?_flatMap_of_head? hwhole, hfrac]
  · simp [Token.number, List.drop_drop, Nat.add_assoc]
  · intro h
    have := hfrac ((c :: s).drop ((c :: s).takeWhile Char.isDigit).length)
    simp [h] at this

theorem match?_string_of_ne (h : c ≠ '"') : string.match? (c :: s) = none :=
  match?_eq_none (rests_string_of_ne h)

theorem match?_string_of_closing_eq_none (h : closing 0 s = none) :
    string.match? ('"' :: s) = none := by
  apply match?_eq_none
  rw [rests_string]
  exact bodyRests_of_closing_eq_none h

theorem match?_string_append {body : List Char} (h : StringBody body) (rest : List Char) :
    string.match? ('"' :: body ++ '"' :: rest) = some ('"' :: body ++ ['"'], rest) := by
  have hrests : string.rests ('"' :: (body ++ '"' :: rest)) = [rest] :=
    rests_string.trans (bodyRests_append h rest)
  exact match?_eq_some (congrArg List.head? hrests) (by simp)

theorem match?_number_of_isDigit (h : c.isDigit = true) :
    number.match? (c :: s) =
      some (Token.number (c :: s), (c :: s).drop (Token.number (c :: s)).length) :=
  match?_eq_some (head?_rests_number h) (List.prefix_iff_eq_append.mp (number_isPrefix _)).symm

theorem match?_number_of_not_isDigit (h : c.isDigit = false) : number.match? (c :: s) = none := by
  apply match?_eq_none
  change (seq digits _).rests _ = _
  rw [rests_seq, rests_digits_of_not_isDigit h, List.flatMap_nil]

theorem match?_char (accepts : Char → Bool) :
    (char accepts).match? (c :: s) = if accepts c then some ([c], s) else none := by
  rw [match?, rests_char_cons]
  split <;> simp

theorem match?_plus_char (accepts : Char → Bool) :
    (plus (char accepts)).match? (c :: s) =
      if accepts c then some (c :: s.takeWhile accepts, s.dropWhile accepts) else none := by
  by_cases hc : accepts c = true
  · rw [if_pos hc]
    apply match?_eq_some
    · rw [rests_plus, rests_char_cons, if_pos hc, List.flatMap_singleton, head?_rests_star_char]
    · rw [List.cons_append, List.takeWhile_append_dropWhile]
  · rw [if_neg hc]
    apply match?_eq_none
    rw [rests_plus, rests_char_cons, if_neg hc, List.flatMap_nil]

theorem match?_comment : (sequence [.text [';'], .star (.char (· != '\n'))]).match? (c :: s) =
    if c = ';' then some (c :: s.takeWhile (· != '\n'), s.dropWhile (· != '\n')) else none := by
  change (seq (.text [';']) (seq (.star (.char (· != '\n'))) empty)).match? _ = _
  by_cases hc : c = ';'
  · rw [if_pos hc]
    apply match?_eq_some
    · rw [rests_seq, rests_text_singleton, if_pos hc, List.flatMap_singleton, rests_seq_empty,
        head?_rests_star_char]
    · rw [List.cons_append, List.takeWhile_append_dropWhile]
  · rw [if_neg hc]
    apply match?_eq_none
    rw [rests_seq, rests_text_singleton, if_neg hc, List.flatMap_nil]

theorem match?_comma : (text [',']).match? (c :: s) = if c = ',' then some ([c], s) else none := by
  rw [match?, rests_text_singleton]
  split <;> simp

theorem match?_boolean_of_not_isNameChar (h : isNameChar c = false) :
    (either (text ['t', 'r', 'u', 'e']) (text ['f', 'a', 'l', 's', 'e'])).match? (c :: s) =
      none := by
  have ht : c ≠ 't' := by rintro rfl; exact absurd h (by decide)
  have hf : c ≠ 'f' := by rintro rfl; exact absurd h (by decide)
  apply match?_eq_none
  simp [rests, text, Pattern.sequence, ht, hf]

theorem lexeme?_eq :
    lexeme? s = (string.match? s).or ((number.match? s).or
      (((char isBracket).match? s).or (((char isParen).match? s).or (((char isBrace).match? s).or
      (((plus (char isNameChar)).match? s).or
      (((sequence [.text [';'], .star (.char (· != '\n'))]).match? s).or
      (((plus (char Text.isBlank)).match? s).or (((text [',']).match? s).or
      ((either (text ['t', 'r', 'u', 'e']) (text ['f', 'a', 'l', 's', 'e'])).match? s))))))))) := by
  have hcons (rule : Rule) (rules : List Rule) :
      (rule :: rules).findSome? (·.pattern.match? s) =
        (rule.pattern.match? s).or (rules.findSome? (·.pattern.match? s)) := by
    rw [List.findSome?_cons]
    cases rule.pattern.match? s <;> rfl
  simp only [lexeme?, rules, hcons, List.findSome?_nil, Option.or_none]

/-- Where the scanner finds a token, that is what the table matches. -/
theorem lexeme?_of_some {w : List Char} (h : Token.lexeme? c s = some w) :
    lexeme? (c :: s) = some (w, (c :: s).drop w.length) := by
  rw [lexeme?_eq]
  rcases lexeme?_cases h with ⟨body, rest, hbody, rfl, rfl, rfl⟩ | ⟨hd, rfl⟩ | ⟨hl, rfl⟩ |
    ⟨hq, hd, hl, hn, rfl⟩
  · rw [← List.cons_append, match?_string_append hbody rest]
    simp
  · rw [match?_string_of_ne (ne_quote_of_isDigit hd), match?_number_of_isDigit hd]
    rfl
  · have hn := isNameChar_of_isDelimiter hl
    rw [match?_string_of_ne (ne_quote_of_isDelimiter hl),
      match?_number_of_not_isDigit (isDigit_of_not_isNameChar hn), match?_char, match?_char,
      match?_char]
    simp only [isDelimiter, Bool.or_eq_true] at hl
    rcases hl with (hl | hl) | hl
    · simp [hl]
    · cases hb : isBracket c <;> simp [hl]
    · cases hb : isBracket c <;> cases hp : isParen c <;> simp [hl]
  · simp only [isDelimiter, Bool.or_eq_false_iff] at hl
    rw [match?_string_of_ne hq, match?_number_of_not_isDigit hd, match?_char, match?_char,
      match?_char, match?_plus_char, List.length_cons, List.drop_succ_cons, drop_length_takeWhile]
    simp [hl, hn]

/-- Where it finds none, the table matches what the scanner drops, if anything. -/
theorem lexeme?_of_none (h : Token.lexeme? c s = none) :
    lexeme? (c :: s) =
      if c = ';' then some (c :: s.takeWhile (· != '\n'), s.dropWhile (· != '\n'))
      else if Text.isBlank c then some (c :: s.takeWhile Text.isBlank, s.dropWhile Text.isBlank)
      else if c = ',' then some ([c], s)
      else none := by
  obtain ⟨hq, hl, hn⟩ := lexeme?_eq_none h
  have hs : string.match? (c :: s) = none := by
    rcases hq with hq | ⟨rfl, hq⟩
    · exact match?_string_of_ne hq
    · exact match?_string_of_closing_eq_none hq
  simp only [isDelimiter, Bool.or_eq_false_iff] at hl
  rw [lexeme?_eq, hs, match?_number_of_not_isDigit (isDigit_of_not_isNameChar hn), match?_char,
    match?_char, match?_char, match?_plus_char, match?_comment, match?_plus_char, match?_comma,
    match?_boolean_of_not_isNameChar hn]
  simp only [hl, hn, Bool.false_eq_true, if_false, Option.none_or, Option.or_none]
  split_ifs <;> rfl

end Lexicon
end Sexpr
