import Sexpr.Proofs.Reader.Refusal
import Sexpr.Proofs.Reader.RoundTrip
import Sexpr.Proofs.Token.LineBreak

/-! What becomes of reading when more tokens follow. Forms that have been read stay, a refusal at some
token stays, and forms that are open at the end can always be closed. -/
namespace Sexpr

/-- Forms that are found before change nothing about those that are found later. -/
theorem Reader.forms_eq_map (read : Reader) (found : List Form) (tokens : List Token) :
    forms read found tokens = (forms read [] tokens).map (found.reverse ++ ·) := by
  induction hn : tokens.length using Nat.strongRecOn generalizing found tokens with
  | _ n ih =>
    subst hn
    cases tokens with
    | nil => simp [forms, Except.map]
    | cons token rest =>
      rw [forms, forms]
      cases read (token :: rest) with
      | error e => rfl
      | ok item =>
        dsimp only
        rw [ih _ item.shorter (item.form :: found) _ rfl, ih _ item.shorter [item.form] _ rfl]
        cases forms read [] item.rest with
        | error e => rfl
        | ok fs => simp [Except.map]

namespace Machine

variable {m n : Machine} {ts us : List Token} {frame : Frame} {frames : List Frame}
  {found : List Form} {e : Error}

section

variable [Visiting]

theorem run_append (m : Machine) (ts us : List Token) :
    m.run (ts ++ us) =
      match m.run ts with
      | .error e => .error e
      | .ok n => n.run us := by
  induction ts generalizing m with
  | nil => rfl
  | cons t ts ih =>
    rw [List.cons_append, run, run]
    cases m.step t with
    | error e => rfl
    | ok n => exact ih n

theorem finish_append_of_ok (h : m.run ts = .ok n) (us : List Token) :
    m.finish (ts ++ us) = n.finish us := by
  rw [finish, run_append, h]
  rfl

/-- An error is met at a token, so nothing that follows can mend it. -/
theorem finish_append_of_error (h : m.run ts = .error e) (us : List Token) :
    m.finish (ts ++ us) = .error e := by
  rw [finish, run_append, h]

end

/-- One open form can be closed; a key that waits for its value is given one first. -/
theorem exists_run_close (frame : Frame) (frames : List Frame) (found : List Form) :
    ∃ us f, ∀ [Visiting], run ⟨frame :: frames, found⟩ us = .ok (deliver f ⟨frames, found⟩) := by
  have hclose [Visiting] (frame : Frame) {f : Form} (h : frame.close = .ok f) :
      run ⟨frame :: frames, found⟩ [frame.closer] = .ok (deliver f ⟨frames, found⟩) :=
    run_of_step (step_close frames found h) []
  cases frame with
  | list items => exact ⟨[Token.closeParen], _, hclose (.list items) rfl⟩
  | array items => exact ⟨[Token.closeBracket], _, hclose (.array items) rfl⟩
  | map entries key =>
    cases key with
    | none => exact ⟨[Token.closeBrace], _, hclose (.map entries none) rfl⟩
    | some key =>
      have hkeeps : Form.Style.Keeps .readable .nil := trivial
      have hnil : Token.Denotes "nil" .nil := Form.denotes_print (f := .nil) rfl trivial hkeeps
      have hvalue [Visiting] : step ⟨.map entries (some key) :: frames, found⟩ "nil" =
          .ok ⟨.map (Form.putEntry key .nil entries) none :: frames, found⟩ := step_denotes hnil
      exact ⟨["nil", Token.closeBrace], _,
        (run_of_step hvalue _).trans (hclose (.map _ none) rfl)⟩

/-- All open forms can be closed, the innermost first. Each one that is closed goes to the next, which
may be left with a key that waits for its value. -/
theorem exists_run_closeAll (frame : Frame) (frames : List Frame) (found : List Form) :
    ∃ us fs, ∀ [Visiting], run ⟨frame :: frames, found⟩ us = .ok ⟨[], fs⟩ := by
  induction frames generalizing frame with
  | nil =>
    obtain ⟨us, f, hclose⟩ := exists_run_close frame [] found
    exact ⟨us, f :: found, hclose⟩
  | cons next frames ih =>
    obtain ⟨us, f, hclose⟩ := exists_run_close frame (next :: frames) found
    obtain ⟨vs, fs, hrest⟩ := ih (next.add f)
    refine ⟨us ++ vs, fs, ?_⟩
    intro _
    rw [run_append, hclose]
    exact hrest

end Machine

/-- What is read from tokens goes before what is read from those that follow. -/
theorem readTokens_append [Visiting] {ts : List Token} {fs : List Form} (h : readTokens ts = .ok fs)
    (us : List Token) : readTokens (ts ++ us) = (readTokens us).map (fs ++ ·) := by
  have hrun := readTokens_eq_ok_iff.mp h
  have hforms := Machine.finish_forms (Machine.simulates_inside maxDepth 0 (by omega)) fs.reverse us
  rw [readTokens_eq_machine, Machine.read, Machine.finish_append_of_ok hrun, hforms,
    Reader.forms_eq_map, List.reverse_reverse]
  rfl

/-- Behind a line break, tokens and forms are those of the text there, unless a string before it was
left open: then they come after those of the text before it, or all runs refuse both texts for the same
cause. -/
theorem read_append_line {a : String} (h : QuotesClosed a) (b : String) :
    tokenize (a ++ "\n" ++ b) = tokenize a ++ tokenize b ∧
      ∀ [Visiting], ∀ fs, read a = .ok fs →
        (∀ [Visiting], ∀ gs, read b = .ok gs → Reads (a ++ "\n" ++ b) (.ok (fs ++ gs))) ∧
          ∀ [Visiting], ∀ e, read b = .error e → ∃ c : Refusal, e = c.report ∧
            Reads b (.error c) ∧ Reads (a ++ "\n" ++ b) (.error c) := by
  have htokens := tokenize_append_line h b
  refine ⟨htokens, ?_⟩
  intro _ fs hfs
  have hread (v : Visiting) : @read v (a ++ "\n" ++ b) = (@read v b).map (fs ++ ·) := by
    rw [read, htokens]
    exact readTokens_append (reads_of_read_ok hfs v) (tokenize b)
  constructor
  · intro _ gs hgs v
    rw [hread, reads_of_read_ok hgs v]
    rfl
  · intro _ e he
    obtain ⟨c, hc, hback⟩ := reads_of_read_error he
    refine ⟨c, hc, hback, fun v => ?_⟩
    rw [hread, hback v]
    rfl

/-- A quote in a string and one in a comment, before a keyword and before a map that is a key without
a value. A run that takes entries as they are stored and one that takes the last first show this key
differently. -/
theorem read_append_line_comment :
    let backward : Visiting := ⟨fun _ es => es.reverse, fun _ es => es.reverse_perm⟩
    QuotesClosed "\"a\\\"b\" ;\"" ∧
      Reads "\"a\\\"b\" ;\"\n:k" (.ok [.string "a\"b", .keyword "k"]) ∧
      @read .stored "\"a\\\"b\" ;\"\n\x7b\x7b:k :l :m :n\x7d\x7d" =
        .error (.danglingKey "\x7b:k :l :m :n\x7d") ∧
      @read backward "\"a\\\"b\" ;\"\n\x7b\x7b:k :l :m :n\x7d\x7d" =
        .error (.danglingKey "\x7b:m :n :k :l\x7d") := by
  intro backward
  have hclosed : QuotesClosed "\"a\\\"b\" ;\"" := by decide +kernel
  have hstring : Token.Denotes "\"a\\\"b\"" (.string "a\"b") :=
    ⟨by decide, by decide, Form.ofToken_string (s := ['a', '"', 'b']) rfl⟩
  have hkeyword {t : Token} {s : List Char} (ht : t.toList = ':' :: s) :
      t.Denotes (.keyword (String.ofList s)) :=
    Form.denotes_of_head ht rfl (by decide) (Form.ofToken_keyword ht)
  have hk : Token.Denotes ":k" (.keyword "k") := hkeyword rfl
  have hl : Token.Denotes ":l" (.keyword "l") := hkeyword rfl
  have hm : Token.Denotes ":m" (.keyword "m") := hkeyword rfl
  have hn : Token.Denotes ":n" (.keyword "n") := hkeyword rfl
  have hread : read "\"a\\\"b\" ;\"" = .ok [.string "a\"b"] := by
    have htokens : tokenize "\"a\\\"b\" ;\"" = ["\"a\\\"b\""] := by decide +kernel
    rw [read, htokens]
    exact readTokens_singleton hstring
  have hkey : read ":k" = .ok [.keyword "k"] := by
    have htokens : tokenize ":k" = [":k"] := by decide +kernel
    exact read_whole htokens hk
  let key := Form.map [(.keyword "k", .keyword "l"), (.keyword "m", .keyword "n")]
  have hdangling [Visiting] : read "\x7b\x7b:k :l :m :n\x7d\x7d" = .error (.danglingKey key.shown) := by
    have htokens : tokenize "\x7b\x7b:k :l :m :n\x7d\x7d" =
        ["\x7b", "\x7b", ":k", ":l", ":m", ":n", "\x7d", "\x7d"] := by
      decide +kernel
    rw [read, htokens, readTokens_eq_machine, Machine.read, Machine.finish,
      Machine.run_of_step (Machine.step_opened rfl (by decide)),
      Machine.run_of_step (Machine.step_opened rfl (by decide)),
      Machine.run_of_step (Machine.step_denotes hk), Machine.run_of_step (Machine.step_denotes hl),
      Machine.run_of_step (Machine.step_denotes hm), Machine.run_of_step (Machine.step_denotes hn)]
    rfl
  have hrefused : ∀ v, @read v "\"a\\\"b\" ;\"\n\x7b\x7b:k :l :m :n\x7d\x7d" =
      .error (.danglingKey (@Form.shown v key)) := by
    obtain ⟨c, -, hb, hab⟩ := ((read_append_line hclosed _).2 _ hread).2 _ hdangling
    exact fun v => (hab v).trans ((hb v).symm.trans hdangling)
  have hkeywords := ((read_append_line hclosed ":k").2 _ hread).1 _ hkey
  have hstored : @Form.shown .stored key = "\x7b:k :l :m :n\x7d" := by decide +kernel
  have hbackward : @Form.shown backward key = "\x7b:m :n :k :l\x7d" := by decide +kernel
  exact ⟨hclosed, hkeywords, hstored ▸ hrefused .stored, hbackward ▸ hrefused backward⟩

/-! Tokens by what may still become of them. -/

/-- Tokens that all runs read to the same forms. -/
def Complete (ts : List Token) : Prop := ∃ fs, TokensRead ts (.ok fs)

/-- Tokens that some others complete. The error is that a form is left open. -/
def Incomplete (ts : List Token) : Prop :=
  TokensRead ts (.error (.error .unbalanced)) ∧ ∃ us, Complete (ts ++ us)

/-- Tokens that all runs refuse, whatever follows, for one and the same cause. -/
def Broken (ts : List Token) : Prop :=
  ∃ c : Refusal, TokensRead ts (.error c) ∧ ∀ us, TokensRead (ts ++ us) (.error c)

variable {ts : List Token}

theorem complete_of_run {found : List Form}
    (h : ∀ [Visiting], Machine.start.run ts = .ok ⟨[], found⟩) : Complete ts := by
  refine ⟨found.reverse, fun v => ?_⟩
  refine readTokens_eq_ok_iff.mpr ?_
  rw [h, List.reverse_reverse]

theorem incomplete_of_run {frame : Frame} {frames : List Frame} {found : List Form}
    (h : ∀ [Visiting], Machine.start.run ts = .ok ⟨frame :: frames, found⟩) : Incomplete ts := by
  constructor
  · intro v
    rw [readTokens_eq_machine, Machine.read, Machine.finish, h]
    rfl
  · obtain ⟨us, fs, hclose⟩ := Machine.exists_run_closeAll frame frames found
    have hrun [Visiting] : Machine.start.run (ts ++ us) = .ok ⟨[], fs⟩ := by
      rw [Machine.run_append, h]
      exact hclose
    exact ⟨us, complete_of_run hrun⟩

theorem broken_of_run {c : Refusal} (h : ∀ [Visiting], Machine.start.run ts = .error c.report) :
    Broken ts := by
  have hall (us : List Token) : TokensRead (ts ++ us) (.error c) := by
    intro v
    rw [readTokens_eq_machine]
    exact Machine.finish_append_of_error h us
  have hself := hall []
  rw [List.append_nil] at hself
  exact ⟨c, hself, hall⟩

/-- The machine runs to the end with no form open, or with some, or it stops at a token. -/
theorem complete_or_incomplete_or_broken (ts : List Token) :
    Complete ts ∨ Incomplete ts ∨ Broken ts := by
  obtain ⟨r, hrun⟩ := Machine.start.exists_run ts
  cases r with
  | error c => exact .inr (.inr (broken_of_run hrun))
  | ok m =>
    obtain ⟨frames, found⟩ := m
    cases frames with
    | nil => exact .inl (complete_of_run hrun)
    | cons frame frames => exact .inr (.inl (incomplete_of_run hrun))

theorem not_complete_of_refused {c : Refusal} (h : TokensRead ts (.error c)) : ¬ Complete ts := by
  rintro ⟨fs, hfs⟩
  cases (h .stored).symm.trans (hfs .stored)

/-- All runs read tokens to the same forms, or others that follow can complete them and the error is
that a form is left open, or all refuse them for the same cause whatever follows. No two of these are
the case at once. -/
theorem exactly_one_of_complete_incomplete_broken (ts : List Token) :
    (Complete ts ∨ Incomplete ts ∨ Broken ts) ∧ ¬ (Complete ts ∧ Incomplete ts) ∧
      ¬ (Complete ts ∧ Broken ts) ∧ ¬ (Incomplete ts ∧ Broken ts) := by
  refine ⟨complete_or_incomplete_or_broken ts, ?_, ?_, ?_⟩
  · rintro ⟨hcomplete, hrefused, -⟩
    exact not_complete_of_refused hrefused hcomplete
  · rintro ⟨hcomplete, c, hrefused, -⟩
    exact not_complete_of_refused hrefused hcomplete
  · rintro ⟨⟨-, us, hcomplete⟩, c, -, hall⟩
    exact not_complete_of_refused (hall us) hcomplete

end Sexpr
