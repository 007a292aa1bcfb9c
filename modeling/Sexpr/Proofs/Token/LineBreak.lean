import Sexpr.Proofs.Token.Whole

/-! Tokens across a line break. No token but a string goes past the end of its line, and what comes after
a line break changes nothing before it, unless it closes a string that was left open. -/
namespace Sexpr

namespace Text

variable {p : Char → Bool} {rest : List Char}

/-- A run is not made longer by what follows, if that starts outside of the class. -/
theorem takeWhile_append_of_head (h : ∀ c ∈ rest.head?, p c = false) (s : List Char) :
    (s ++ rest).takeWhile p = s.takeWhile p := by
  have hsplit : s ++ rest = s.takeWhile p ++ (s.dropWhile p ++ rest) := by
    rw [← List.append_assoc, List.takeWhile_append_dropWhile]
  rw [hsplit]
  refine takeWhile_append_of_stop (fun c hc => List.mem_takeWhile_imp hc) fun c hc => ?_
  cases hdrop : s.dropWhile p with
  | nil =>
    rw [hdrop] at hc
    exact h c hc
  | cons d t =>
    rw [hdrop] at hc
    cases hc
    have hnot := List.head?_dropWhile_not p s
    rw [hdrop] at hnot
    simpa using hnot

end Text

namespace Token

variable {c : Char} {s w rest : List Char}

/-- The characters that a scan goes past one by one: where no token and no comment starts. -/
def skipped : List Char → List Char
  | [] => []
  | c :: s =>
    match lexeme? c s with
    | some lexeme => skipped (s.drop (lexeme.length - 1))
    | none => if c = ';' then skipped (s.dropWhile (· != '\n')) else c :: skipped s
termination_by s => s.length
decreasing_by
  · simp only [List.length_drop, List.length_cons]; omega
  · exact Nat.lt_succ_of_le (List.dropWhile_sublist _).length_le
  · exact Nat.lt_succ_self _

theorem skipped_of_lexeme? {v rest : List Char} (h : lexeme? c (v ++ rest) = some (c :: v)) :
    skipped (c :: (v ++ rest)) = skipped rest := by
  rw [skipped, h]
  simp

theorem skipped_comment (s : List Char) :
    skipped (';' :: s) = skipped (s.dropWhile (· != '\n')) := by
  rw [skipped, show lexeme? ';' s = none from rfl]
  rfl

theorem skipped_cons (h : lexeme? c s = none) (hc : c ≠ ';') : skipped (c :: s) = c :: skipped s := by
  rw [skipped, h]
  simp [hc]

theorem head_ne_of_stops (h : Stops rest) : ∀ c ∈ rest.head?, c ≠ '.' ∧ c.isDigit = false := by
  intro c hc
  refine ⟨?_, h.isDigit c hc⟩
  rintro rfl
  have hdot := h '.' hc
  revert hdot
  decide

theorem fraction_append_of_stops (h : Stops rest) (s : List Char) :
    fraction (s ++ rest) = fraction s := by
  cases s with
  | nil => exact fraction_append (head_ne_of_stops h) []
  | cons c s =>
    rw [List.cons_append, fraction, fraction, Text.takeWhile_append_of_head h.isDigit]

theorem sign_append_of_stops (h : Stops rest) (s : List Char) :
    ((s ++ rest).take 1).filter isSign = (s.take 1).filter isSign := by
  cases s with
  | cons c s => rfl
  | nil =>
    cases rest with
    | nil => rfl
    | cons c rest =>
      have hsign : isSign c = false := by
        cases hs : isSign c with
        | false => rfl
        | true =>
          have hname := h c rfl
          rw [isNameChar_of_isSign hs] at hname
          cases hname
      simp [hsign]

theorem exponent_append_of_stops (h : Stops rest) (s : List Char) :
    exponent (s ++ rest) = exponent s := by
  cases s with
  | nil => exact exponent_of_stops h
  | cons c s =>
    have hle : ((s.take 1).filter isSign).length ≤ s.length := (sign_isPrefix s).length_le
    have hdigits := Text.takeWhile_append_of_head h.isDigit (s.drop ((s.take 1).filter isSign).length)
    rw [List.cons_append, exponent, exponent, sign_append_of_stops h,
      List.drop_append_of_le_length hle, hdigits]

/-- A number is not made longer by what cannot continue a name or a number. -/
theorem number_append_of_stops (h : Stops rest) (s : List Char) :
    number (s ++ rest) = number s := by
  have hwhole := List.takeWhile_prefix (l := s) Char.isDigit
  have hpoint := append_isPrefix hwhole (fraction_isPrefix _)
  have hpointle := hpoint.length_le
  rw [List.length_append] at hpointle
  rw [number, number, Text.takeWhile_append_of_head h.isDigit]
  rw [List.drop_append_of_le_length hwhole.length_le, fraction_append_of_stops h,
    List.drop_append_of_le_length hpointle, exponent_append_of_stops h]

/-- A quote that is closed, or any other character, starts the same token or none when a text follows
that continues neither names nor numbers. -/
theorem lexeme?_append_of_stops (hc : c = '"' → lexeme? c s ≠ none) (h : Stops rest) :
    lexeme? c (s ++ rest) = lexeme? c s := by
  by_cases hquote : c = '"'
  · obtain ⟨w, hw⟩ := Option.ne_none_iff_exists'.mp (hc hquote)
    rcases lexeme?_cases hw with ⟨body, after, hbody, rfl, rfl, -⟩ | ⟨hd, -⟩ | ⟨hl, -⟩ | ⟨hne, -⟩
    · rw [List.append_assoc, List.cons_append, lexeme?_string hbody, lexeme?_string hbody]
    · exact absurd hquote (ne_quote_of_isDigit hd)
    · exact absurd hquote (ne_quote_of_isDelimiter hl)
    · exact absurd hquote hne
  · have hnumber := number_append_of_stops h (c :: s)
    rw [List.cons_append] at hnumber
    rw [lexeme?, lexeme?, if_neg hquote, if_neg hquote, hnumber, Text.takeWhile_append_of_head h]

theorem stops_line (s : List Char) : Stops ('\n' :: s) := stops_cons (by decide)

theorem dropWhile_append_line (s rest : List Char) :
    (s ++ '\n' :: rest).dropWhile (· != '\n') = s.dropWhile (· != '\n') ++ '\n' :: rest := by
  rw [List.dropWhile_append]
  split
  · rename_i h
    rw [List.isEmpty_iff.mp h]
    rfl
  · rfl

/-- A scan that goes past no quote before a line break starts anew behind it. -/
theorem scan_append_line (h : '"' ∉ skipped s) (rest : List Char) :
    scan [] (s ++ '\n' :: rest) = scan [] s ++ scan [] rest := by
  induction hn : s.length using Nat.strongRecOn generalizing s with
  | _ n ih =>
    subst hn
    cases s with
    | nil =>
      have hbreak := scan_skip (s := rest) (lexeme?_blank (c := '\n') (by decide)) (by decide)
      rw [List.nil_append, hbreak, scan]
      rfl
    | cons c s =>
      cases hw : lexeme? c s with
      | some w =>
        obtain ⟨v, after, rfl, rfl⟩ := lexeme?_eq_cons hw
        have hlong : lexeme? c (v ++ (after ++ '\n' :: rest)) = some (c :: v) := by
          rw [← List.append_assoc, lexeme?_append_of_stops (by simp [hw]) (stops_line rest), hw]
        have hafter : '"' ∉ skipped after := by
          rwa [skipped_of_lexeme? hw] at h
        have hlt : after.length < (c :: (v ++ after)).length := by
          rw [List.length_cons, List.length_append]
          omega
        rw [List.cons_append, List.append_assoc, scan_of_lexeme? hlong, scan_of_lexeme? hw,
          ih after.length hlt hafter rfl, List.cons_append]
      | none =>
        by_cases hc : c = ';'
        · subst hc
          have hlt := Nat.lt_succ_of_le (List.dropWhile_suffix (l := s) (· != '\n')).length_le
          rw [skipped_comment] at h
          rw [List.cons_append, scan_comment, scan_comment, dropWhile_append_line, ih _ hlt h rfl]
        · rw [skipped_cons hw hc, List.mem_cons, not_or] at h
          obtain ⟨hquote, hs⟩ := h
          have hlong : lexeme? c (s ++ '\n' :: rest) = none := by
            rw [lexeme?_append_of_stops (fun he => absurd he.symm hquote) (stops_line rest), hw]
          rw [List.cons_append, scan_skip hlong hc, scan_skip hw hc, ih _ (Nat.lt_succ_self _) hs rfl]

end Token

/-- Every quote of a text belongs to a string or stands in a comment. -/
def QuotesClosed (text : String) : Prop := '"' ∉ Token.skipped text.toList

instance : DecidablePred QuotesClosed := fun text =>
  inferInstanceAs (Decidable ('"' ∉ Token.skipped text.toList))

theorem tokenize_append_line {a : String} (h : QuotesClosed a) (b : String) :
    tokenize (a ++ "\n" ++ b) = tokenize a ++ tokenize b := by
  have htext : (a ++ "\n" ++ b).toList = a.toList ++ '\n' :: b.toList := by
    rw [String.toList_append, String.toList_append, List.append_assoc]
    rfl
  rw [tokenize, htext, Token.scan_append_line h]
  rfl

end Sexpr
