import Mathlib.Data.List.Chain
import Sexpr.Proofs.Reader.Refusal
import Sexpr.Proofs.Reader.RoundTrip

/-! What stands between the tokens of a text does not matter: not how many blanks, commas and comments
there are, and next to a delimiter or a string not even if there are any. -/
namespace Sexpr

namespace Token

variable {t : Token} {s u rest : List Char} {parts : List (Token × String)}

/-- What may stand between tokens: blanks, commas, and comments with the end of their line. -/
inductive Separator : List Char → Prop where
  | nil : Separator []
  | blank {c : Char} {s : List Char} (hc : Text.isBlank c = true) (h : Separator s) :
    Separator (c :: s)
  | comma {s : List Char} (h : Separator s) : Separator (',' :: s)
  | comment {line s : List Char} (hline : '\n' ∉ line) (h : Separator s) :
    Separator (';' :: (line ++ '\n' :: s))

/-- A delimiter or a string: a token with a character of its own at both ends. -/
def isEnclosed (t : Token) : Bool := t.toList.head?.any fun c => isDelimiter c || c == '"'

/-- A text made of a separator and of tokens with a separator after each. -/
def laidOut (lead : String) (parts : List (Token × String)) : String :=
  lead ++ String.join (parts.map fun part => part.1 ++ part.2)

/-- A scan goes past a separator and finds nothing. -/
theorem scan_separator (hu : Separator u) (rest : List Char) :
    scan [] (u ++ rest) = scan [] rest := by
  induction hu with
  | nil => rfl
  | @blank c s hc _ ih =>
    have hsemicolon : c ≠ ';' := by
      rintro rfl
      exact absurd hc (by decide)
    rw [List.cons_append, scan_skip (lexeme?_blank hc) hsemicolon, ih]
  | comma _ ih => rw [List.cons_append, scan_skip rfl (by decide), ih]
  | @comment line s hline _ ih =>
    have hplain : ∀ c ∈ line, (c != '\n') = true := by
      intro c hc
      rw [bne_iff_ne]
      rintro rfl
      exact hline hc
    have hbreak : scan [] ('\n' :: (s ++ rest)) = scan [] (s ++ rest) :=
      scan_skip (lexeme?_blank (by decide)) (by decide)
    rw [List.cons_append, List.append_assoc, List.cons_append, scan_comment,
      Text.dropWhile_append_of_stop hplain (by simp), hbreak, ih]

/-- A separator that is there cannot continue a name or a number. -/
theorem Separator.stops (hu : Separator u) (hne : u ≠ []) (rest : List Char) : Stops (u ++ rest) := by
  cases hu with
  | nil => exact absurd rfl hne
  | blank hc => exact stops_cons (isNameChar_of_isBlank hc)
  | comma => exact stops_cons (by decide)
  | comment => exact stops_cons (by decide)

theorem isEnclosed_iff : t.isEnclosed = true ↔
    ∃ c v, t.toList = c :: v ∧ (isDelimiter c = true ∨ c = '"') := by
  rw [isEnclosed]
  cases t.toList <;> simp

theorem isNameChar_of_enclosing {c : Char} (h : isDelimiter c = true ∨ c = '"') :
    isNameChar c = false := by
  rcases h with h | rfl
  · exact isNameChar_of_isDelimiter h
  · decide

/-- A delimiter or a string cannot continue a name or a number. -/
theorem stops_of_isEnclosed (h : t.isEnclosed = true) (rest : List Char) :
    Stops (t.toList ++ rest) := by
  obtain ⟨c, v, hs, hc⟩ := isEnclosed_iff.mp h
  rw [hs]
  exact stops_cons (isNameChar_of_enclosing hc)

/-- A delimiter or a string is found again whatever follows. -/
theorem Whole.scan_append_of_isEnclosed (ht : Whole t) (h : t.isEnclosed = true)
    (rest : List Char) : scan [] (t.toList ++ rest) = t :: scan [] rest := by
  rcases whole_shape ht with ⟨body, hbody, hs⟩ | ⟨d, hd, hs⟩ | hall
  · have hlexeme : lexeme? '"' ((body ++ ['"']) ++ rest) = some ('"' :: (body ++ ['"'])) := by
      rw [List.append_assoc]
      exact lexeme?_string hbody rest
    have hscan := scan_of_lexeme? hlexeme
    rwa [← List.cons_append, ← hs, String.ofList_toList] at hscan
  · have hname : String.singleton d = t := by
      rw [← String.toList_inj, hs, String.toList_singleton]
    rw [hs, List.singleton_append, scan_delimiter hd, hname]
  · obtain ⟨c, v, hs, hc⟩ := isEnclosed_iff.mp h
    have hname := hall c (by simp [hs])
    rw [isNameChar_of_enclosing hc] at hname
    cases hname

/-! Whole texts. -/

/-- Two tokens with nothing between them, one of them a delimiter or a string, or something that
separates them. -/
def Apart (a b : Token × String) : Prop := a.2 = "" → a.1.isEnclosed = true ∨ b.1.isEnclosed = true

instance : DecidableRel Apart := fun a b =>
  inferInstanceAs (Decidable (a.2 = "" → a.1.isEnclosed = true ∨ b.1.isEnclosed = true))

theorem toList_laidOut_cons (lead : String) (part : Token × String) (parts : List (Token × String)) :
    (laidOut lead (part :: parts)).toList =
      lead.toList ++ (part.1.toList ++ (laidOut part.2 parts).toList) := by
  simp [laidOut, List.append_assoc]

/-- What follows a token that needs a separator cannot continue it. -/
theorem stops_laidOut {part : Token × String} (hsep : Separator part.2.toList)
    (hapart : ∀ next ∈ parts.head?, Apart part next) (hnot : part.1.isEnclosed = false) :
    Stops (laidOut part.2 parts).toList := by
  by_cases hempty : part.2 = ""
  · cases parts with
    | nil =>
      rw [hempty]
      exact stops_nil
    | cons next parts =>
      have hnext : next.1.isEnclosed = true := by
        simpa [hnot] using hapart next rfl hempty
      rw [toList_laidOut_cons, hempty]
      exact stops_of_isEnclosed hnext _
  · have hne : part.2.toList ≠ [] := by simpa using hempty
    rw [laidOut, String.toList_append]
    exact hsep.stops hne _

theorem scan_laidOut {lead : String} (hlead : Separator lead.toList)
    (hwhole : ∀ part ∈ parts, Whole part.1) (hseps : ∀ part ∈ parts, Separator part.2.toList)
    (hapart : parts.IsChain Apart) :
    scan [] (laidOut lead parts).toList = parts.map Prod.fst := by
  induction parts generalizing lead with
  | nil =>
    have hscan := scan_separator hlead []
    rw [List.append_nil, scan] at hscan
    simpa [laidOut] using hscan
  | cons part parts ih =>
    obtain ⟨hhead, htail⟩ := List.isChain_cons.mp hapart
    obtain ⟨hpart, hwhole⟩ := List.forall_mem_cons.mp hwhole
    obtain ⟨hsep, hseps⟩ := List.forall_mem_cons.mp hseps
    have hrest := ih hsep hwhole hseps htail
    rw [toList_laidOut_cons, scan_separator hlead, List.map_cons, ← hrest]
    cases henclosed : part.1.isEnclosed with
    | true => exact hpart.scan_append_of_isEnclosed henclosed _
    | false => exact hpart.scan_append (stops_laidOut hsep hhead henclosed)

end Token

theorem splits_spaced {tokens : List Token} (h : ∀ t ∈ tokens, Token.Whole t) :
    Splits (Form.spaced tokens) tokens := by
  induction tokens with
  | nil => exact splits_spaced_nil
  | cons t tokens ih =>
    obtain ⟨ht, htokens⟩ := List.forall_mem_cons.mp h
    exact splits_spaced_cons (splits_whole ht) (ih htokens)

theorem tokenize_spaced {tokens : List Token} (h : ∀ t ∈ tokens, Token.Whole t) :
    tokenize (Form.spaced tokens) = tokens := by
  have hscan := splits_spaced h [] Token.stops_nil
  rwa [List.append_nil, Token.scan, List.reverse_nil, List.append_nil] at hscan

/-- The tokens of a text are found again with any separators around them and with none beside
delimiters and strings. All runs read the text that they make up then as they read the first one, or
refuse both for the same cause. -/
theorem tokenize_laidOut {source lead : String} {parts : List (Token × String)}
    (hparts : parts.map Prod.fst = tokenize source) (hlead : Token.Separator lead.toList)
    (hseps : ∀ part ∈ parts, Token.Separator part.2.toList) (hapart : parts.IsChain Token.Apart) :
    (tokenize (Token.laidOut lead parts) = tokenize source ∧
      (∃ r, Reads source r ∧ Reads (Token.laidOut lead parts) r) ∧
      ∀ v w : Visiting, @readOrNone v (Token.laidOut lead parts) = @readOrNone w source) ∧
    tokenize (Form.spaced (tokenize source)) = tokenize source := by
  have hwhole : ∀ t ∈ tokenize source, Token.Whole t := fun _ ht => Token.whole_of_mem_tokenize ht
  have hpartwhole : ∀ part ∈ parts, Token.Whole part.1 := by
    intro part hpart
    exact hwhole part.1 (hparts ▸ List.mem_map_of_mem hpart)
  have htokens : tokenize (Token.laidOut lead parts) = tokenize source := by
    rw [tokenize, Token.scan_laidOut hlead hpartwhole hseps hapart, hparts]
  obtain ⟨r, hsource⟩ := exists_reads source
  have hlaid : Reads (Token.laidOut lead parts) r := by
    intro v
    rw [← hsource v, read, htokens, read]
  refine ⟨⟨htokens, ⟨r, hsource, hlaid⟩, fun v w => ?_⟩, tokenize_spaced hwhole⟩
  rw [readOrNone_of_reads hlaid, readOrNone_of_reads hsource]

/-- The closing parenthesis of a comment is no token, and neither is a quote that is never closed. -/
theorem tokenize_laidOut_comment :
    let source := "(a,12.5 \"x;y\"\tb )\""
    let parts : List (Token × String) :=
      [("(", ""), ("a", ";)\n"), ("12.5", ""), ("\"x;y\"", ""), ("b", " ,"), (")", "")]
    (parts.map Prod.fst = tokenize source ∧ Token.Separator "\n".toList ∧
      (∀ part ∈ parts, Token.Separator part.2.toList) ∧ parts.IsChain Token.Apart) ∧
    tokenize "\n(a;)\n12.5\"x;y\"b ,)" = ["(", "a", "12.5", "\"x;y\"", "b", ")"] ∧
    read "\n(a;)\n12.5\"x;y\"b ,)" = read source := by
  intro source parts
  have htokens : parts.map Prod.fst = tokenize source := by decide +kernel
  have hlead : Token.Separator "\n".toList := .blank (by decide) .nil
  have hseps : ∀ part ∈ parts, Token.Separator part.2.toList := by
    have hcomment : Token.Separator ";)\n".toList :=
      @Token.Separator.comment [')'] [] (by decide) .nil
    have hcomma : Token.Separator " ,".toList := .blank (by decide) (.comma .nil)
    simpa [parts] using ⟨.nil, hcomment, .nil, hcomma, .nil⟩
  have hapart : parts.IsChain Token.Apart := by decide
  have hlaid : Token.laidOut "\n" parts = "\n(a;)\n12.5\"x;y\"b ,)" := by decide
  obtain ⟨⟨htokenize, ⟨r, hsource, hread⟩, -⟩, -⟩ := tokenize_laidOut htokens hlead hseps hapart
  rw [hlaid] at htokenize hread
  exact ⟨⟨htokens, hlead, hseps, hapart⟩, htokenize.trans htokens.symm,
    (hread .stored).trans (hsource .stored).symm⟩

end Sexpr
