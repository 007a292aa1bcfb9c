import Sexpr.Proofs.Token.Rules

/-! The table of rules and the one-pass scanner find the same tokens, and what lies between these is
blank, a comma, a comment, or matched by no rule. -/
namespace Sexpr

namespace Token

variable {c : Char} {s w : List Char}

theorem number_cons (h : c.isDigit = true) : ∃ v, number (c :: s) = c :: v := by
  simp [number, h]

/-- A token starts with the first character and goes on with what follows it. -/
theorem lexeme?_eq_cons (h : lexeme? c s = some w) : ∃ v rest, w = c :: v ∧ s = v ++ rest := by
  rcases lexeme?_cases h with ⟨body, rest, _, rfl, rfl, rfl⟩ | ⟨hd, rfl⟩ | ⟨_, rfl⟩ |
    ⟨_, _, _, _, rfl⟩
  · exact ⟨body ++ ['"'], rest, rfl, by simp⟩
  · obtain ⟨v, hv⟩ := number_cons (s := s) hd
    obtain ⟨rest, hrest⟩ := number_isPrefix (c :: s)
    rw [hv, List.cons_append, List.cons.injEq] at hrest
    exact ⟨v, rest, hv, hrest.2.symm⟩
  · exact ⟨[], s, rfl, rfl⟩
  · exact ⟨_, _, rfl, List.takeWhile_append_dropWhile.symm⟩

theorem isNameChar_of_mem_fraction {x : Char} (h : x ∈ fraction s) : isNameChar x = true := by
  rcases fraction_cases s with hs | ⟨digits, -, hdigits, hs⟩
  · rw [hs] at h
    cases h
  · rw [hs] at h
    rcases List.mem_cons.mp h with rfl | h
    · decide
    · exact isNameChar_of_isDigit (hdigits x h)

theorem isNameChar_of_mem_exponent {x : Char} (h : x ∈ exponent s) : isNameChar x = true := by
  rcases exponent_cases s with hs | ⟨mark, sign, digits, hmark, hsign, -, hdigits, hs⟩
  · rw [hs] at h
    cases h
  · rw [hs] at h
    rcases List.mem_append.mp h with h | h
    · rcases List.mem_cons.mp h with rfl | h
      · exact isNameChar_of_isExponentMark hmark
      · rcases hsign with rfl | ⟨y, hy, rfl⟩
        · cases h
        · rw [List.mem_singleton.mp h]
          exact isNameChar_of_isSign hy
    · exact isNameChar_of_isDigit (hdigits x h)

/-- A number is made of characters that names can have, so a name could go on where it ends. -/
theorem isNameChar_of_mem_number {x : Char} (h : x ∈ number s) : isNameChar x = true := by
  rcases List.mem_append.mp h with h | h
  · rcases List.mem_append.mp h with h | h
    · exact isNameChar_of_isDigit (List.mem_takeWhile_imp h)
    · exact isNameChar_of_mem_fraction h
  · exact isNameChar_of_mem_exponent h

/-- A token is a string, a delimiter, or made of characters of names. -/
theorem lexeme?_shape (h : lexeme? c s = some w) :
    (∃ body, StringBody body ∧ w = '"' :: body ++ ['"']) ∨ (∃ d, isDelimiter d = true ∧ w = [d]) ∨
      (w ≠ [] ∧ ∀ x ∈ w, isNameChar x = true) := by
  rcases lexeme?_cases h with ⟨body, rest, hbody, rfl, rfl, rfl⟩ | ⟨hd, rfl⟩ | ⟨hl, rfl⟩ |
    ⟨_, _, _, hn, rfl⟩
  · exact Or.inl ⟨body, hbody, rfl⟩
  · obtain ⟨v, hv⟩ := number_cons (s := s) hd
    exact Or.inr (Or.inr ⟨by simp [hv], fun x hx => isNameChar_of_mem_number hx⟩)
  · exact Or.inr (Or.inl ⟨c, hl, rfl⟩)
  · refine Or.inr (Or.inr ⟨by simp, fun x hx => ?_⟩)
    rcases List.mem_cons.mp hx with rfl | hx
    · exact hn
    · exact List.mem_takeWhile_imp hx

theorem scan_of_lexeme? {v rest : List Char} (h : lexeme? c (v ++ rest) = some (c :: v)) :
    scan [] (c :: (v ++ rest)) = String.ofList (c :: v) :: scan [] rest := by
  rw [scan, h]
  dsimp only
  rw [scan_eq_append]
  simp

theorem scan_comment (s : List Char) :
    scan [] (';' :: s) = scan [] (s.dropWhile (· != '\n')) := by
  have h : lexeme? ';' s = none := rfl
  have hline : (fun x : Char => decide (x ≠ '\n')) = (· != '\n') := by
    funext x
    by_cases hx : x = '\n' <;> simp [hx]
  rw [scan, h, ← hline]
  rfl

theorem scan_skip (h : lexeme? c s = none) (hc : c ≠ ';') : scan [] (c :: s) = scan [] s := by
  rw [scan, h]
  simp [hc]

theorem lexeme?_blank (h : Text.isBlank c = true) : lexeme? c s = none := by
  have hn := isNameChar_of_isBlank h
  have hq : c ≠ '"' := by rintro rfl; exact absurd h (by decide)
  simp [lexeme?, hq, isDigit_of_not_isNameChar hn, isDelimiter_of_isBlank h, hn]

/-- Blanks in front make no difference. -/
theorem scan_dropWhile_isBlank (s : List Char) : scan [] (s.dropWhile Text.isBlank) = scan [] s := by
  induction s with
  | nil => rfl
  | cons c s ih =>
    rw [List.dropWhile_cons]
    split
    · rename_i hb
      have hc : c ≠ ';' := by rintro rfl; exact absurd hb (by decide)
      rw [ih, scan_skip (lexeme?_blank hb) hc]
    · rfl

/-- Neither end of a token is blank. -/
theorem isBlank_of_mem_ends {x : Char} (h : lexeme? c s = some w)
    (hx : x ∈ w.head? ∨ x ∈ w.getLast?) : Text.isBlank x = false := by
  rcases lexeme?_shape h with ⟨body, _, rfl⟩ | ⟨d, hd, rfl⟩ | ⟨_, hall⟩
  · rw [List.getLast?_concat] at hx
    rcases hx with hx | hx <;> cases hx <;> decide
  · have hxd : d = x := by simpa using hx
    rw [← hxd]
    exact isBlank_of_isDelimiter hd
  · rcases hx with hx | hx
    · exact isBlank_of_isNameChar (hall x (List.mem_of_mem_head? hx))
    · exact isBlank_of_isNameChar (hall x (List.mem_of_mem_getLast? hx))

end Token

namespace Text

theorem dropWhile_isBlank_eq_self {w : List Char} (h : ∀ x ∈ w.head?, isBlank x = false) :
    w.dropWhile isBlank = w := by
  cases w with
  | nil => rfl
  | cons c w => rw [List.dropWhile_cons, h c rfl]; rfl

theorem trim_eq_self {w : List Char} (hh : ∀ x ∈ w.head?, isBlank x = false)
    (hl : ∀ x ∈ w.getLast?, isBlank x = false) : trim w = w := by
  rw [trim, dropWhile_isBlank_eq_self hh, dropWhile_isBlank_eq_self, List.reverse_reverse]
  simpa using hl

theorem trim_eq_nil {w : List Char} (h : ∀ x ∈ w, isBlank x = true) : trim w = [] := by
  rw [trim, List.dropWhile_eq_nil_iff.mpr h]
  rfl

/-- The first character stays if it is not blank. -/
theorem trim_cons {c : Char} {w : List Char} (h : isBlank c = false) :
    ∃ v, trim (c :: w) = c :: v := by
  have hdrop : (c :: w).dropWhile isBlank = c :: w := by rw [List.dropWhile_cons, h]; rfl
  have hprefix : ((c :: w).reverse.dropWhile isBlank).reverse <+: c :: w := by
    rw [← List.reverse_suffix, List.reverse_reverse]
    exact List.dropWhile_suffix _
  have hne : (c :: w).reverse.dropWhile isBlank ≠ [] := by
    intro he
    have := List.dropWhile_eq_nil_iff.mp he c (by simp)
    rw [h] at this
    cases this
  rw [trim, hdrop]
  cases hr : ((c :: w).reverse.dropWhile isBlank).reverse with
  | nil => exact absurd (List.reverse_eq_nil_iff.mp hr) hne
  | cons d v =>
    rw [hr] at hprefix
    exact ⟨v, by rw [(List.cons_prefix_cons.mp hprefix).1]⟩

end Text

namespace Lexicon

variable {c : Char} {s w rest : List Char}

theorem tokens_of_match (h : lexeme? (c :: s) = some (w, rest)) (hlen : rest.length ≤ s.length) :
    tokens (c :: s) =
      (if isKept (Text.trim w) then [String.ofList (Text.trim w)] else []) ++ tokens rest := by
  have hl : lexemes (c :: s) = w :: lexemes rest := by
    rw [lexemes, h]
    simp [hlen]
  rw [tokens, hl, List.map_cons, List.filter_cons]
  split <;> simp [tokens]

theorem tokens_of_no_match (h : lexeme? (c :: s) = none) : tokens (c :: s) = tokens s := by
  rw [tokens, lexemes, h]
  rfl

theorem tokens_of_token (h : Token.lexeme? c s = some w) :
    tokens (c :: s) = String.ofList w :: tokens ((c :: s).drop w.length) := by
  obtain ⟨v, rest, rfl, rfl⟩ := Token.lexeme?_eq_cons h
  have htrim : Text.trim (c :: v) = c :: v :=
    Text.trim_eq_self (fun x hx => Token.isBlank_of_mem_ends h (Or.inl hx))
      fun x hx => Token.isBlank_of_mem_ends h (Or.inr hx)
  have hkept : isKept (c :: v) = true := by
    have hhead : c ≠ ';' ∧ c ≠ ',' := by
      constructor <;> rintro rfl <;> cases h
    simp [isKept, hhead]
  rw [tokens_of_match (lexeme?_of_some h) (by simp), htrim, if_pos hkept]
  rfl

theorem tokens_comment (s : List Char) :
    tokens (';' :: s) = tokens (s.dropWhile (· != '\n')) := by
  obtain ⟨v, hv⟩ := Text.trim_cons (c := ';') (w := s.takeWhile (· != '\n')) (by decide)
  have hm := lexeme?_of_none (c := ';') (s := s) rfl
  rw [if_pos rfl] at hm
  rw [tokens_of_match hm (List.dropWhile_suffix _).length_le, hv]
  rfl

theorem tokens_blank (h : Text.isBlank c = true) :
    tokens (c :: s) = tokens (s.dropWhile Text.isBlank) := by
  have hc : c ≠ ';' := by rintro rfl; exact absurd h (by decide)
  have htrim : Text.trim (c :: s.takeWhile Text.isBlank) = [] := by
    apply Text.trim_eq_nil
    intro x hx
    rcases List.mem_cons.mp hx with rfl | hx
    · exact h
    · exact List.mem_takeWhile_imp hx
  have hm := lexeme?_of_none (Token.lexeme?_blank h) (s := s)
  rw [if_neg hc, if_pos h] at hm
  rw [tokens_of_match hm (List.dropWhile_suffix _).length_le, htrim]
  rfl

theorem tokens_comma (s : List Char) : tokens (',' :: s) = tokens s :=
  tokens_of_match (lexeme?_of_none (c := ',') rfl) (Nat.le_refl _)

theorem tokens_eq_scan (s : List Char) : tokens s = Token.scan [] s := by
  induction hn : s.length using Nat.strongRecOn generalizing s with
  | _ n ih =>
    subst hn
    cases s with
    | nil => simp [tokens, lexemes, Token.scan]
    | cons c s =>
      have hdrop (p : Char → Bool) : (s.dropWhile p).length < (c :: s).length :=
        Nat.lt_succ_of_le (List.dropWhile_suffix p).length_le
      cases h : Token.lexeme? c s with
      | some w =>
        obtain ⟨v, rest, rfl, rfl⟩ := Token.lexeme?_eq_cons h
        rw [tokens_of_token h, Token.scan_of_lexeme? h]
        simp only [List.length_cons, List.drop_succ_cons, List.drop_left]
        have hlt : rest.length < (c :: (v ++ rest)).length := by
          rw [List.length_cons, List.length_append]
          omega
        rw [ih _ hlt _ rfl]
      | none =>
        by_cases hc : c = ';'
        · subst hc
          rw [tokens_comment, Token.scan_comment, ih _ (hdrop _) _ rfl]
        rw [Token.scan_skip h hc]
        by_cases hb : Text.isBlank c = true
        · rw [tokens_blank hb, ih _ (hdrop _) _ rfl, Token.scan_dropWhile_isBlank]
        by_cases hcomma : c = ','
        · subst hcomma
          rw [tokens_comma, ih _ (Nat.lt_succ_self _) _ rfl]
        have hm := lexeme?_of_none h
        rw [if_neg hc, if_neg hb, if_neg hcomma] at hm
        rw [tokens_of_no_match hm, ih _ (Nat.lt_succ_self _) _ rfl]

end Lexicon

/-- The tokens stand in a text one after the other, and each character between them is blank, a comma,
part of a comment, or at a place where no rule matches. -/
inductive Covered : List Char → List Token → Prop where
  | nil : Covered [] []
  | token {w s : List Char} {ts : List Token} (hw : w ≠ []) (h : Covered s ts) :
    Covered (w ++ s) (String.ofList w :: ts)
  | blank {c : Char} {s : List Char} {ts : List Token} (hc : Text.isBlank c = true)
    (h : Covered s ts) : Covered (c :: s) ts
  | comma {s : List Char} {ts : List Token} (h : Covered s ts) : Covered (',' :: s) ts
  | comment {line s : List Char} {ts : List Token} (hline : '\n' ∉ line)
    (hend : ∀ c ∈ s.head?, c = '\n') (h : Covered s ts) : Covered (';' :: line ++ s) ts
  | unmatched {c : Char} {s : List Char} {ts : List Token}
    (hc : Lexicon.lexeme? (c :: s) = none) (h : Covered s ts) : Covered (c :: s) ts

theorem covered_scan (s : List Char) : Covered s (Token.scan [] s) := by
  induction hn : s.length using Nat.strongRecOn generalizing s with
  | _ n ih =>
    subst hn
    cases s with
    | nil => simpa [Token.scan] using Covered.nil
    | cons c s =>
      cases h : Token.lexeme? c s with
      | some w =>
        obtain ⟨v, rest, rfl, rfl⟩ := Token.lexeme?_eq_cons h
        rw [Token.scan_of_lexeme? h]
        have hlt : rest.length < (c :: (v ++ rest)).length := by
          rw [List.length_cons, List.length_append]
          omega
        exact .token (List.cons_ne_nil c v) (ih rest.length hlt rest rfl)
      | none =>
        by_cases hc : c = ';'
        · subst hc
          have hs : s = s.takeWhile (· != '\n') ++ s.dropWhile (· != '\n') :=
            List.takeWhile_append_dropWhile.symm
          have hlt := Nat.lt_succ_of_le (List.dropWhile_suffix (l := s) (· != '\n')).length_le
          rw [Token.scan_comment]
          conv => arg 1; rw [hs]
          refine .comment ?_ ?_ (ih _ hlt _ rfl)
          · intro hmem
            simpa using List.mem_takeWhile_imp hmem
          · intro d hd
            have := List.head?_dropWhile_not (· != '\n') s
            rw [Option.mem_def.mp hd] at this
            simpa using this
        rw [Token.scan_skip h hc]
        have hs := ih _ (Nat.lt_succ_self _) s rfl
        have hm := Lexicon.lexeme?_of_none h
        rw [if_neg hc] at hm
        split_ifs at hm with hb hcomma
        · exact .blank hb hs
        · subst hcomma
          exact .comma hs
        · exact .unmatched hm hs

/-- The matches of the table, with the first rule that matches at each place, are the tokens of the
one-pass scanner. -/
theorem tokens_eq_tokenize (text : String) :
    Lexicon.tokens text.toList = tokenize text ∧ Covered text.toList (tokenize text) :=
  ⟨Lexicon.tokens_eq_scan text.toList, covered_scan text.toList⟩

end Sexpr
