import Sexpr.Proofs.Token.OnePass

/-! Tokens by themselves: a token stays whole when it is cut out of its text, and when something
follows it that cannot continue a name. -/
namespace Sexpr

namespace Token

variable {c : Char} {s v rest : List Char}

/-- A text that cannot continue a name or a number. -/
def Stops (rest : List Char) : Prop := ∀ c ∈ rest.head?, isNameChar c = false

theorem stops_nil : Stops [] := by
  intro c hc
  cases hc

theorem stops_cons (h : isNameChar c = false) : Stops (c :: s) := by
  intro d hd
  cases hd
  exact h

theorem Stops.isDigit (h : Stops rest) : ∀ c ∈ rest.head?, c.isDigit = false :=
  fun c hc => isDigit_of_not_isNameChar (h c hc)

theorem exponent_of_stops (h : Stops rest) : exponent rest = [] := by
  cases rest with
  | nil => rfl
  | cons c rest =>
    have hmark : isExponentMark c = false := by
      cases hm : isExponentMark c with
      | false => rfl
      | true =>
        have hn := h c rfl
        rw [isNameChar_of_isExponentMark hm] at hn
        cases hn
    simp [exponent, hmark]

/-- An exponent ends where its digits do. -/
theorem exponent_mark_append {mark : Char} {sign digits : List Char}
    (hmark : isExponentMark mark = true)
    (hsign : sign = [] ∨ ∃ x, isSign x = true ∧ sign = [x]) (hne : digits ≠ [])
    (hdigits : ∀ c ∈ digits, c.isDigit = true) (hrest : ∀ c ∈ rest.head?, c.isDigit = false) :
    exponent (mark :: (sign ++ (digits ++ rest))) = mark :: (sign ++ digits) := by
  have htake : (digits ++ rest).takeWhile Char.isDigit = digits :=
    Text.takeWhile_append_of_stop hdigits hrest
  have hfilter : ((sign ++ (digits ++ rest)).take 1).filter isSign = sign := by
    rcases hsign with rfl | ⟨x, hx, rfl⟩
    · cases digits with
      | nil => exact absurd rfl hne
      | cons d digits => simp [isSign_of_isDigit (hdigits d List.mem_cons_self)]
    · simp [hx]
  rw [exponent]
  rw [hfilter, List.drop_left, htake, if_pos ⟨hmark, hne⟩, List.cons_append]

theorem exponent_append (h : Stops rest) (s : List Char) :
    exponent (exponent s ++ rest) = exponent s := by
  rcases exponent_cases s with hs | ⟨mark, sign, digits, hmark, hsign, hne, hdigits, hs⟩
  · rw [hs]
    exact exponent_of_stops h
  · rw [hs, List.cons_append, List.cons_append, List.append_assoc]
    exact exponent_mark_append hmark hsign hne hdigits h.isDigit

/-- An exponent does not start like a fraction. -/
theorem head?_exponent_append (h : Stops rest) (s : List Char) :
    ∀ c ∈ (exponent s ++ rest).head?, c ≠ '.' ∧ c.isDigit = false := by
  intro c hc
  rcases exponent_cases s with hs | ⟨mark, sign, digits, hmark, -, -, -, hs⟩
  · rw [hs] at hc
    refine ⟨?_, h.isDigit c hc⟩
    rintro rfl
    have hdot := h '.' hc
    revert hdot
    decide
  · rw [hs] at hc
    cases hc
    refine ⟨?_, isDigit_of_isExponentMark hmark⟩
    rintro rfl
    revert hmark
    decide

theorem fraction_point {digits : List Char} (hne : digits ≠ [])
    (hdigits : ∀ c ∈ digits, c.isDigit = true) : fraction ('.' :: digits) = '.' :: digits := by
  have htake : digits.takeWhile Char.isDigit = digits := List.takeWhile_eq_self_iff.mpr hdigits
  rw [fraction, htake, if_pos ⟨rfl, hne⟩]

theorem fraction_append {t : List Char} (ht : ∀ c ∈ t.head?, c ≠ '.' ∧ c.isDigit = false)
    (s : List Char) : fraction (fraction s ++ t) = fraction s := by
  rcases fraction_cases s with hs | ⟨digits, hne, hdigits, hs⟩
  · rw [hs]
    cases t with
    | nil => rfl
    | cons c t => simp [fraction, (ht c rfl).1]
  · have htake : (digits ++ t).takeWhile Char.isDigit = digits :=
      Text.takeWhile_append_of_stop hdigits fun c hc => (ht c hc).2
    rw [hs, List.cons_append, fraction]
    rw [htake, if_pos ⟨rfl, hne⟩]

/-- Digits, a fraction and an exponent, each of which may be missing, are a number. -/
theorem number_of_parts {whole point power : List Char} (hwhole : ∀ c ∈ whole, c.isDigit = true)
    (hpoint : fraction point = point) (hpower : exponent power = power) (h : Stops rest) :
    number (whole ++ (point ++ (power ++ rest))) = whole ++ (point ++ power) := by
  have hhead := head?_exponent_append h power
  have hexponent := exponent_append h power
  rw [hpower] at hhead hexponent
  have hfraction := fraction_append hhead point
  rw [hpoint] at hfraction
  have hstop : ∀ c ∈ (point ++ (power ++ rest)).head?, c.isDigit = false := by
    intro c hc
    rcases fraction_cases point with hs | ⟨digits, -, -, hs⟩
    · rw [hpoint.symm.trans hs] at hc
      exact (hhead c hc).2
    · rw [hpoint.symm.trans hs] at hc
      cases hc
      rfl
  rw [number, Text.takeWhile_append_of_stop hwhole hstop]
  rw [List.drop_left, hfraction, ← List.append_assoc whole, ← List.length_append, List.drop_left,
    hexponent, List.append_assoc]

theorem number_append (h : Stops rest) (s : List Char) : number (number s ++ rest) = number s := by
  let whole := s.takeWhile Char.isDigit
  let point := fraction (s.drop whole.length)
  let power := exponent (s.drop (whole.length + point.length))
  have hwhole : ∀ c ∈ whole, c.isDigit = true := fun c hc => List.mem_takeWhile_imp hc
  have hpoint : fraction point = point := by
    have hself := fraction_append (t := []) (by simp) (s.drop whole.length)
    rwa [List.append_nil] at hself
  have hpower : exponent power = power := by
    have hself := exponent_append stops_nil (s.drop (whole.length + point.length))
    rwa [List.append_nil] at hself
  have hnumber : number s = whole ++ (point ++ power) := List.append_assoc _ _ _
  rw [hnumber, List.append_assoc, List.append_assoc]
  exact number_of_parts hwhole hpoint hpower h

theorem lexeme?_of_isDigit (h : c.isDigit = true) (s : List Char) :
    lexeme? c s = some (number (c :: s)) := by
  rw [lexeme?, if_neg (ne_quote_of_isDigit h), if_pos h]

theorem lexeme?_string {body : List Char} (h : StringBody body) (rest : List Char) :
    lexeme? '"' (body ++ '"' :: rest) = some ('"' :: (body ++ ['"'])) := by
  rw [lexeme?, if_pos rfl, closing_append h]
  simp [List.take_append, List.take_of_length_le]

/-- A token is found again before anything that does not continue it. -/
theorem lexeme?_append (h : lexeme? c s = some (c :: v)) (hrest : Stops rest) :
    lexeme? c (v ++ rest) = some (c :: v) := by
  rcases lexeme?_cases h with ⟨body, after, hbody, rfl, rfl, hv⟩ | ⟨hd, hv⟩ | ⟨hl, hv⟩ |
    ⟨hq, hd, hl, hn, hv⟩
  · obtain rfl : v = body ++ ['"'] := (List.cons.inj hv).2
    rw [List.append_assoc]
    exact lexeme?_string hbody rest
  · have hnumber := number_append hrest (c :: s)
    rw [← hv, List.cons_append] at hnumber
    rw [lexeme?_of_isDigit hd, hnumber]
  · cases hv
    have hn := isNameChar_of_isDelimiter hl
    rw [lexeme?, if_neg (ne_quote_of_isDelimiter hl), if_neg (by simp [isDigit_of_not_isNameChar hn]),
      if_pos hl]
  · rw [List.cons.injEq] at hv
    obtain ⟨-, rfl⟩ := hv
    have htake := Text.takeWhile_append_of_stop
      (fun x (hx : x ∈ s.takeWhile isNameChar) => List.mem_takeWhile_imp hx) hrest
    rw [lexeme?, if_neg hq, if_neg (by simp [hd]), if_neg (by simp [hl]), if_pos hn, htake]

/-- The texts that are one token from end to end. -/
def Whole (t : Token) : Prop := tokenize t = [t]

theorem length_le_of_covered {ts : List Token} {t : Token} (h : Covered s ts) (ht : t ∈ ts) :
    t.toList.length ≤ s.length := by
  induction h with
  | nil => cases ht
  | token _ _ ih =>
    rw [List.length_append]
    rcases List.mem_cons.mp ht with rfl | ht
    · rw [String.toList_ofList]
      exact Nat.le_add_right _ _
    · exact Nat.le_add_left_of_le (ih ht)
  | blank _ _ ih | comma _ ih | unmatched _ _ ih => exact Nat.le_succ_of_le (ih ht)
  | comment _ _ _ ih =>
    rw [List.length_append]
    exact Nat.le_add_left_of_le (ih ht)

theorem whole_iff {t : Token} : Whole t ↔ ∃ c v, t.toList = c :: v ∧ lexeme? c v = some (c :: v) := by
  rw [Whole, tokenize]
  constructor
  · intro h
    cases hs : t.toList with
    | nil =>
      rw [hs, scan] at h
      cases h
    | cons c s =>
      rw [hs] at h
      refine ⟨c, s, rfl, ?_⟩
      have hlength (r : List Char) (hr : scan [] r = [t]) : s.length < r.length := by
        have hcovered := covered_scan r
        rw [hr] at hcovered
        have hle := length_le_of_covered hcovered List.mem_cons_self
        rw [hs] at hle
        exact hle
      cases hw : lexeme? c s with
      | some w =>
        obtain ⟨v, rest, rfl, rfl⟩ := lexeme?_eq_cons hw
        rw [scan_of_lexeme? hw, List.cons.injEq, ← String.toList_inj, String.toList_ofList, hs] at h
        rw [← h.1]
      | none =>
        rw [scan, hw] at h
        dsimp only at h
        split at h
        · have hlt := hlength _ h
          have hle := (List.dropWhile_sublist (l := s) (fun x => decide (x ≠ '\n'))).length_le
          omega
        · exact absurd (hlength s h) (Nat.lt_irrefl _)
  · rintro ⟨c, v, ht, h⟩
    have hend : lexeme? c (v ++ []) = some (c :: v) := by rwa [List.append_nil]
    have hscan := scan_of_lexeme? hend
    rw [List.append_nil, ← ht, String.ofList_toList] at hscan
    rw [hscan, scan]
    rfl

/-- A whole token is a string between its quotes, a delimiter, or all name characters. -/
theorem whole_shape {t : Token} (h : Whole t) :
    (∃ body, StringBody body ∧ t.toList = '"' :: (body ++ ['"'])) ∨
      (∃ d, isDelimiter d = true ∧ t.toList = [d]) ∨ ∀ x ∈ t.toList, isNameChar x = true := by
  obtain ⟨c, v, ht, hv⟩ := whole_iff.mp h
  rw [ht]
  rcases lexeme?_shape hv with hstring | hdelimiter | ⟨-, hall⟩
  · exact .inl hstring
  · exact .inr (.inl hdelimiter)
  · exact .inr (.inr hall)

theorem Whole.scan_append {t : Token} (ht : Whole t) (hrest : Stops rest) :
    scan [] (t.toList ++ rest) = t :: scan [] rest := by
  obtain ⟨c, v, hs, h⟩ := whole_iff.mp ht
  have hscan := scan_of_lexeme? (lexeme?_append h hrest)
  rw [← List.cons_append, ← hs, String.ofList_toList] at hscan
  exact hscan

theorem whole_of_mem_scan {t : Token} (ht : t ∈ scan [] s) : Whole t := by
  induction hn : s.length using Nat.strongRecOn generalizing s with
  | _ n ih =>
    subst hn
    cases s with
    | nil =>
      rw [scan] at ht
      cases ht
    | cons c s =>
      cases hw : lexeme? c s with
      | some w =>
        obtain ⟨v, rest, rfl, rfl⟩ := lexeme?_eq_cons hw
        rw [scan_of_lexeme? hw] at ht
        rcases List.mem_cons.mp ht with rfl | ht
        · have hv := lexeme?_append hw stops_nil
          rw [List.append_nil] at hv
          exact whole_iff.mpr ⟨c, v, String.toList_ofList, hv⟩
        · have hlt : rest.length < (c :: (v ++ rest)).length := by
            rw [List.length_cons, List.length_append]
            omega
          exact ih rest.length hlt ht rfl
      | none =>
        rw [scan, hw] at ht
        dsimp only at ht
        split at ht
        · have hle := (List.dropWhile_sublist (l := s) (fun x => decide (x ≠ '\n'))).length_le
          exact ih _ (Nat.lt_succ_of_le hle) ht rfl
        · exact ih _ (Nat.lt_succ_self _) ht rfl

/-- Every token of a text is one by itself. -/
theorem whole_of_mem_tokenize {t : Token} {text : String} (h : t ∈ tokenize text) : Whole t :=
  whole_of_mem_scan h

end Token
end Sexpr
