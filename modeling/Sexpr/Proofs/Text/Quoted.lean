import Mathlib.Logic.ExistsUnique
import Mathlib.Tactic.SplitIfs
import Sexpr.Proofs.Reader.Atoms
import Sexpr.Proofs.Reader.Outcome

/-! The grammar of strings in quotes. What stands between the quotes is pieces, each a character that is
no backslash or one of three escapes; from anything else the first piece that is none is reported. What is
written is one token wherever it stands, and is read back. -/
namespace Sexpr

namespace Text.Quoted

/-- A character that stands for itself, or an escape. -/
inductive Piece where
  | plain (c : Char) (ne : c ≠ '\\')
  | quote
  | lineFeed
  | backslash
deriving DecidableEq

namespace Piece

def spelling : Piece → List Char
  | plain c _ => [c]
  | quote => ['\\', '"']
  | lineFeed => ['\\', 'n']
  | backslash => ['\\', '\\']

def meaning : Piece → Char
  | plain c _ => c
  | quote => '"'
  | lineFeed => '\n'
  | backslash => '\\'

/-- A quote and a line feed that stand for themselves, where an escape would be written. -/
def bareQuote : Piece := plain '"' (by decide)

def bareLineFeed : Piece := plain '\n' (by decide)

end Piece

def spell (pieces : List Piece) : List Char := pieces.flatMap Piece.spelling

/-- A text that no piece can be taken off the front of: nothing, a lone backslash, or a wrong escape. -/
inductive Stop : List Char → Except Error (List Char) → Prop where
  | done : Stop [] (.ok [])
  | backslash : Stop ['\\'] (.error .unterminated)
  | badEscape (c : Char) (s : List Char) (hc : c ∉ ['"', 'n', '\\']) :
    Stop ('\\' :: c :: s) (.error (.badEscape c))

variable {c : Char} {s t read value body : List Char} {p q : Piece} {ps qs : List Piece} {e : Error}
  {result : Except Error (List Char)}

theorem spell_cons (p : Piece) (ps : List Piece) : spell (p :: ps) = p.spelling ++ spell ps :=
  List.flatMap_cons

theorem unescape?_cases (c : Char) :
    (∃ p : Piece, p.spelling = ['\\', c] ∧ unescape? c = some p.meaning) ∨
      (c ∉ ['"', 'n', '\\'] ∧ unescape? c = none) := by
  unfold unescape?
  split_ifs with hq hn hb
  · exact .inl ⟨.quote, by rw [hq]; rfl, rfl⟩
  · exact .inl ⟨.lineFeed, by rw [hn]; rfl, rfl⟩
  · exact .inl ⟨.backslash, by rw [hb]; rfl, rfl⟩
  · exact .inr ⟨by simp [hq, hn, hb], rfl⟩

theorem decodeOnto_piece (p : Piece) (read s : List Char) :
    decodeOnto read (p.spelling ++ s) = decodeOnto (p.meaning :: read) s := by
  cases p with
  | plain c ne => exact decodeOnto_plain ne
  | quote | lineFeed | backslash => rfl

theorem decodeOnto_spell (ps : List Piece) (read s : List Char) :
    decodeOnto read (spell ps ++ s) = decodeOnto ((ps.map Piece.meaning).reverse ++ read) s := by
  induction ps generalizing read with
  | nil => rfl
  | cons p ps ih =>
    rw [spell_cons, List.append_assoc, decodeOnto_piece, ih, List.map_cons, List.reverse_cons,
      List.append_assoc, List.singleton_append]

theorem decodeOnto_stop (h : Stop s result) (read : List Char) :
    decodeOnto read s = result.map (read.reverse ++ ·) := by
  cases h with
  | done => rw [decodeOnto, Except.map, List.append_nil]
  | backslash => rfl
  | badEscape c s hc =>
    have hnone : unescape? c = none := by
      rcases unescape?_cases c with ⟨p, hp, -⟩ | ⟨-, hnone⟩
      · exfalso
        cases p <;> cases hp <;> exact hc (by decide)
      · exact hnone
    rw [decodeOnto]
    simp only [if_true, hnone, Except.map]

/-- Pieces are taken off the front for as long as there are any. -/
theorem exists_pieces (s : List Char) : ∃ ps t result, s = spell ps ++ t ∧ Stop t result := by
  induction hn : s.length using Nat.strongRecOn generalizing s with
  | _ n ih =>
    subst hn
    cases s with
    | nil => exact ⟨[], [], _, rfl, .done⟩
    | cons c s =>
      by_cases hc : c = '\\'
      · subst hc
        cases s with
        | nil => exact ⟨[], _, _, rfl, .backslash⟩
        | cons d s =>
          rcases unescape?_cases d with ⟨p, hp, -⟩ | ⟨hd, -⟩
          · obtain ⟨ps, t, result, hs, ht⟩ := ih s.length (by simp only [List.length_cons]; omega) s rfl
            refine ⟨p :: ps, t, result, ?_, ht⟩
            rw [spell_cons, hp, List.append_assoc, ← hs]
            rfl
          · exact ⟨[], _, _, rfl, .badEscape d s hd⟩
      · obtain ⟨ps, t, result, hs, ht⟩ := ih s.length (Nat.lt_succ_self _) s rfl
        refine ⟨.plain c hc :: ps, t, result, ?_, ht⟩
        rw [spell_cons, List.append_assoc, ← hs]
        rfl

theorem decode_append (h : Stop t result) (ps : List Piece) :
    decode (spell ps ++ t) = result.map (ps.map Piece.meaning ++ ·) := by
  rw [decode, decodeOnto_spell, decodeOnto_stop h, List.append_nil, List.reverse_reverse]

theorem decode_spell (ps : List Piece) : decode (spell ps) = .ok (ps.map Piece.meaning) := by
  have h := decode_append .done ps
  rwa [List.append_nil, Except.map, List.append_nil] at h

theorem decode_eq_ok_iff :
    decode s = .ok value ↔ ∃ ps, s = spell ps ∧ value = ps.map Piece.meaning := by
  constructor
  · intro h
    obtain ⟨ps, t, result, rfl, ht⟩ := exists_pieces s
    rw [decode_append ht] at h
    cases ht with
    | done =>
      cases h
      exact ⟨ps, List.append_nil _, List.append_nil _⟩
    | backslash | badEscape => cases h
  · rintro ⟨ps, rfl, rfl⟩
    exact decode_spell ps

/-- Pieces and a lone backslash, or pieces and the first escape that is none. -/
theorem decode_eq_error_iff : decode s = .error e ↔
    (e = .unterminated ∧ ∃ ps, s = spell ps ++ ['\\']) ∨
      ∃ ps c t, s = spell ps ++ '\\' :: c :: t ∧ c ∉ ['"', 'n', '\\'] ∧ e = .badEscape c := by
  constructor
  · intro h
    obtain ⟨ps, t, result, rfl, ht⟩ := exists_pieces s
    rw [decode_append ht] at h
    cases ht with
    | done => cases h
    | backslash =>
      cases h
      exact .inl ⟨rfl, ps, rfl⟩
    | badEscape c t hc =>
      cases h
      exact .inr ⟨ps, c, t, rfl, hc, rfl⟩
  · rintro (⟨rfl, ps, rfl⟩ | ⟨ps, c, t, rfl, hc, rfl⟩)
    · exact decode_append .backslash ps
    · exact decode_append (.badEscape c t hc) ps

/-- The first piece of a text is told by its first character, or by its first two. -/
theorem piece_eq_of_append_eq (h : p.spelling ++ s = q.spelling ++ t) : p = q := by
  cases p <;> cases q <;> simp_all [Piece.spelling, eq_comm]

/-- A text is made of pieces in one way only. -/
theorem spell_injective : Function.Injective spell := by
  intro ps
  induction ps with
  | nil =>
    intro qs h
    cases qs with
    | nil => rfl
    | cons q qs => cases q <;> cases h
  | cons p ps ih =>
    intro qs h
    cases qs with
    | nil => cases p <;> cases h
    | cons q qs =>
      rw [spell_cons, spell_cons] at h
      obtain rfl := piece_eq_of_append_eq h
      rw [ih (List.append_cancel_left h)]

theorem body?_eq_some_iff : body? t = some body ↔ t = '"' :: (body ++ ['"']) := by
  cases t with
  | nil => simp [body?]
  | cons c s =>
    rw [body?]
    constructor
    · intro h
      split_ifs at h with hc
      cases h
      obtain ⟨rfl, hlast⟩ := hc
      rw [List.dropLast_append_getLast? _ hlast]
    · intro h
      cases h
      rw [List.getLast?_concat, if_pos ⟨rfl, rfl⟩, List.dropLast_concat]

theorem body?_eq_none_iff : body? t = none ↔ ¬ ∃ body, t = '"' :: (body ++ ['"']) := by
  simp only [Option.eq_none_iff_forall_ne_some, ne_eq, body?_eq_some_iff, not_exists]

/-! Writing the meaning of pieces down again. -/

theorem encodeChar_meaning (hq : p ≠ .bareQuote) (hn : p ≠ .bareLineFeed) :
    encodeChar p.meaning = p.spelling := by
  cases p with
  | plain c hc =>
    have hquote : c ≠ '"' := by
      rintro rfl
      exact hq rfl
    have hline : c ≠ '\n' := by
      rintro rfl
      exact hn rfl
    simp [encodeChar, Piece.meaning, Piece.spelling, hquote, hc, hline]
  | quote | lineFeed | backslash => rfl

theorem encode_cons (c : Char) (s : List Char) : encode (c :: s) = encodeChar c ++ encode s :=
  List.flatMap_cons

/-- What is written is the same again unless an escape takes the place of a quote or a line feed. -/
theorem encode_meanings_iff : encode (ps.map Piece.meaning) = spell ps ↔
    Piece.bareQuote ∉ ps ∧ Piece.bareLineFeed ∉ ps := by
  induction ps with
  | nil => simp [encode, spell]
  | cons p ps ih =>
    rw [List.map_cons, encode_cons, spell_cons]
    by_cases hq : p = .bareQuote
    · subst hq
      refine iff_of_false (fun h => ?_) fun h => h.1 List.mem_cons_self
      cases h
    by_cases hn : p = .bareLineFeed
    · subst hn
      refine iff_of_false (fun h => ?_) fun h => h.2 List.mem_cons_self
      cases h
    rw [encodeChar_meaning hq hn, List.append_cancel_left_eq, ih, List.mem_cons, List.mem_cons,
      not_or, not_or]
    simp [Ne.symm hq, Ne.symm hn]

end Text.Quoted

namespace Form

open Text.Quoted

variable {t : Token} {f : Form} {body : List Char} {e : Error}

theorem ofQuoted_eq_unterminated (ht : ¬ ∃ body, t.toList = '"' :: (body ++ ['"'])) :
    ofQuoted t = .error .unterminated := by
  rw [ofQuoted, Text.Quoted.read, body?_eq_none_iff.mpr ht]

theorem ofQuoted_eq_ok_iff : ofQuoted t = .ok f ↔
    ∃ ps, t.toList = '"' :: (spell ps ++ ['"']) ∧
      f = string (String.ofList (ps.map Piece.meaning)) := by
  constructor
  · intro h
    by_cases ht : ∃ body, t.toList = '"' :: (body ++ ['"'])
    · obtain ⟨body, ht⟩ := ht
      rw [ofQuoted_eq_decode ht] at h
      obtain ⟨value, hvalue, rfl⟩ := exists_of_map_eq_ok h
      obtain ⟨ps, rfl, rfl⟩ := decode_eq_ok_iff.mp hvalue
      exact ⟨ps, ht, rfl⟩
    · rw [ofQuoted_eq_unterminated ht] at h
      cases h
  · rintro ⟨ps, ht, rfl⟩
    rw [ofQuoted_eq_decode ht, decode_spell]
    rfl

theorem ofQuoted_eq_error_iff : ofQuoted t = .error e ↔
    (e = .unterminated ∧ ((¬ ∃ body, t.toList = '"' :: (body ++ ['"'])) ∨
        ∃ ps, t.toList = '"' :: ((spell ps ++ ['\\']) ++ ['"']))) ∨
      ∃ ps c rest, t.toList = '"' :: ((spell ps ++ '\\' :: c :: rest) ++ ['"']) ∧
        c ∉ ['"', 'n', '\\'] ∧ e = .badEscape c := by
  have herror (body : List Char) (ht : t.toList = '"' :: (body ++ ['"'])) :
      ofQuoted t = .error e ↔ decode body = .error e := by
    rw [ofQuoted_eq_decode ht]
    cases decode body <;> simp [Except.map]
  constructor
  · intro h
    by_cases ht : ∃ body, t.toList = '"' :: (body ++ ['"'])
    · obtain ⟨body, ht⟩ := ht
      rcases decode_eq_error_iff.mp ((herror body ht).mp h) with
        ⟨he, ps, rfl⟩ | ⟨ps, c, rest, rfl, hc, he⟩
      · exact .inl ⟨he, .inr ⟨ps, ht⟩⟩
      · exact .inr ⟨ps, c, rest, ht, hc, he⟩
    · rw [ofQuoted_eq_unterminated ht] at h
      cases h
      exact .inl ⟨rfl, .inl ht⟩
  · rintro (⟨rfl, ht | ⟨ps, ht⟩⟩ | ⟨ps, c, rest, ht, hc, rfl⟩)
    · exact ofQuoted_eq_unterminated ht
    · exact (herror _ ht).mpr (decode_eq_error_iff.mpr (.inl ⟨rfl, ps, rfl⟩))
    · exact (herror _ ht).mpr (decode_eq_error_iff.mpr (.inr ⟨ps, c, rest, rfl, hc, rfl⟩))

theorem print_meanings_iff {ps : List Piece} (ht : t.toList = '"' :: (spell ps ++ ['"'])) :
    (string (String.ofList (ps.map Piece.meaning))).print .readable = t ↔
      Piece.bareQuote ∉ ps ∧ Piece.bareLineFeed ∉ ps := by
  rw [← String.toList_inj, toList_print_string, ht, String.toList_ofList, List.cons.injEq,
    List.append_cancel_right_eq, ← encode_meanings_iff]
  exact and_iff_right rfl

/-- A token stands for a string just if pieces lie between its two quotes, and in one way only, and the
string is what they mean. Else a quote is missing, or a lone backslash comes last, or the first escape
that is none is reported. The string is written as the token again just if each quote and each line
feed in it is an escape. -/
theorem ofQuoted_grammar : Function.Injective spell ∧ ∀ t : Token,
    (∀ f, ofQuoted t = .ok f ↔ ∃ ps, t.toList = '"' :: (spell ps ++ ['"']) ∧
      f = string (String.ofList (ps.map Piece.meaning))) ∧
    (∀ e, ofQuoted t = .error e ↔
      (e = .unterminated ∧ ((¬ ∃ body, t.toList = '"' :: (body ++ ['"'])) ∨
          ∃ ps, t.toList = '"' :: ((spell ps ++ ['\\']) ++ ['"']))) ∨
        ∃ ps c rest, t.toList = '"' :: ((spell ps ++ '\\' :: c :: rest) ++ ['"']) ∧
          c ∉ ['"', 'n', '\\'] ∧ e = .badEscape c) ∧
    ∀ ps, t.toList = '"' :: (spell ps ++ ['"']) →
      ((string (String.ofList (ps.map Piece.meaning))).print .readable = t ↔
        Piece.bareQuote ∉ ps ∧ Piece.bareLineFeed ∉ ps) :=
  ⟨spell_injective, fun _ => ⟨fun _ => ofQuoted_eq_ok_iff, fun _ => ofQuoted_eq_error_iff,
    fun _ => print_meanings_iff⟩⟩

/-- A bare quote is read, and is written as an escape. -/
theorem ofQuoted_grammar_bare :
    ofQuoted "\"\"\\n\"" = .ok (string "\"\n") ∧
      (string "\"\n").print .readable ≠ "\"\"\\n\"" ∧
      ofQuoted "\"\\\\\\\"" = .error .unterminated ∧
      ofQuoted "\"\\n\\q\\\"" = .error (.badEscape 'q') := by
  obtain ⟨hok, -, hwritten⟩ := ofQuoted_grammar.2 "\"\"\\n\""
  refine ⟨(hok _).mpr ⟨[.bareQuote, .lineFeed], rfl, rfl⟩, ?_, ?_, ?_⟩
  · intro h
    exact ((hwritten [.bareQuote, .lineFeed] rfl).mp h).1 List.mem_cons_self
  · exact ((ofQuoted_grammar.2 _).2.1 _).mpr (.inl ⟨rfl, .inr ⟨[.backslash], rfl⟩⟩)
  · exact ((ofQuoted_grammar.2 _).2.1 _).mpr (.inr ⟨[.lineFeed], 'q', ['\\'], rfl, by decide, rfl⟩)

/-- What is written for a string is one token, whatever follows it, and is read back to that string. -/
theorem print_string_codec (value rest : String) :
    let written := (string value).print .readable
    tokenize (written ++ rest) = written :: tokenize rest ∧
      ofQuoted written = .ok (string value) := by
  intro written
  have hwritten : written.toList = '"' :: (encode value.toList ++ ['"']) :=
    toList_print_string .readable value
  constructor
  · have hlexeme := Token.lexeme?_string (Token.stringBody_encode value.toList) rest.toList
    rw [← List.singleton_append, ← List.append_assoc] at hlexeme
    have hscan := Token.scan_of_lexeme? hlexeme
    rw [← List.cons_append, ← hwritten, String.ofList_toList] at hscan
    rw [tokenize, String.toList_append, hscan, tokenize]
  · rw [ofQuoted_eq_decode hwritten, decode_encode, Except.map, String.ofList_toList]

end Form
end Sexpr
