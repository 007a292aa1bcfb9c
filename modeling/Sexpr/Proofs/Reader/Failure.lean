import Sexpr.Proofs.Reader.Backslashes

/-! What can be wrong with a text. Its tokens are whole, so no string in it lacks a quote or ends in a
backslash, no form is asked for where there is none, and whatever is read may be a key. -/
namespace Sexpr

/-- What may be wrong with the tokens of a text. -/
inductive Fault (tokens : List Token) : Error → Prop where
  | unbalanced : Fault tokens .unbalanced
  | danglingKey (key : String) : Fault tokens (.danglingKey key)
  | nestingTooDeep : Fault tokens (.nestingTooDeep maxDepth)
  | unsupported (s : Statement) (h : s.word ∈ tokens) : Fault tokens (.unsupported s.word)
  | badEscape (c : Char) (t : Token) (h : t ∈ tokens) (hin : ['\\', c] <:+: t.toList)
    (hc : c ∉ ['"', 'n', '\\', '\n']) : Fault tokens (.badEscape c)

namespace Text.Quoted

variable {c d : Char} {read body : List Char} {e : Error}

theorem unescape?_eq_none (h : unescape? c = none) : c ∉ ['"', 'n', '\\'] := by
  intro hc
  simp only [List.mem_cons, List.not_mem_nil, or_false] at hc
  rcases hc with rfl | rfl | rfl <;> cases h

/-- Between the quotes of a token only an escape can be wrong. -/
theorem decodeOnto_error (hbody : Token.StringBody body) (h : decodeOnto read body = .error e) :
    ∃ c, ['\\', c] <:+: body ∧ c ∉ ['"', 'n', '\\', '\n'] ∧ e = .badEscape c := by
  induction hbody generalizing read with
  | nil => cases h
  | @plain c s _ hb _ ih =>
    rw [decodeOnto_plain hb] at h
    obtain ⟨d, hin, hd, he⟩ := ih h
    exact ⟨d, List.infix_cons hin, hd, he⟩
  | @escape d s hline _ ih =>
    rw [decodeOnto] at h
    simp only [if_true] at h
    cases hd : unescape? d with
    | some x =>
      rw [hd] at h
      obtain ⟨c, hin, hc, he⟩ := ih h
      exact ⟨c, List.infix_cons (List.infix_cons hin), hc, he⟩
    | none =>
      rw [hd] at h
      cases h
      have hmem := unescape?_eq_none hd
      refine ⟨d, ⟨[], s, rfl⟩, ?_, rfl⟩
      simp only [List.mem_cons, List.not_mem_nil, or_false, not_or] at hmem ⊢
      exact ⟨hmem.1, hmem.2.1, hmem.2.2, hline⟩

end Text.Quoted

namespace Form

variable {t : Token} {e : Error}

theorem exists_quote_of_error (h : ofToken t = .error e) : ∃ s, t.toList = '"' :: s := by
  rw [ofToken] at h
  cases hx : Number.ofLiteral? t.toList with
  | some x =>
    rw [hx] at h
    cases h
  | none =>
    rw [hx] at h
    change ofWord t = .error e at h
    unfold ofWord at h
    split at h
    · cases h
    · exact ⟨_, ‹_›⟩
    · cases h

/-- A token of a text that stands for no atom is a string with a wrong escape in it. -/
theorem ofToken_error (hw : Token.Whole t) (h : ofToken t = .error e) :
    ∃ c, ['\\', c] <:+: t.toList ∧ c ∉ ['"', 'n', '\\', '\n'] ∧ e = .badEscape c := by
  obtain ⟨s, hs⟩ := exists_quote_of_error h
  obtain ⟨body, hbody, ht⟩ := Token.exists_body hw hs
  rw [ofToken_eq_decode ht] at h
  cases hdecode : Text.Quoted.decode body with
  | ok value =>
    rw [hdecode] at h
    cases h
  | error x =>
    rw [hdecode] at h
    cases h
    obtain ⟨c, hin, hc, he⟩ := Text.Quoted.decodeOnto_error hbody hdecode
    refine ⟨c, ?_, hc, he⟩
    rw [ht]
    exact List.infix_cons (hin.trans (List.infix_append [] body ['"']))

end Form

theorem Statement.word_of_ofToken? {t : Token} {s : Statement} (h : ofToken? t = some s) :
    s.word = t := by
  rw [ofToken?] at h
  have hword := List.find?_some h
  exact eq_of_beq hword

namespace Machine

variable {m n : Machine} {t : Token} {tokens : List Token} {e : Error}

/-- What can be wrong with a token that closes nothing. -/
theorem fault_of_take (ht : Token.Whole t) (hmem : t ∈ tokens) (h : m.take t = .error e) :
    Fault tokens e := by
  cases hs : Statement.ofToken? t with
  | some s =>
    rw [take_statement hs] at h
    cases h
    exact .unsupported s (Statement.word_of_ofToken? hs ▸ hmem)
  | none =>
    cases hl : Token.isCloser t with
    | true =>
      rw [take_closer hs hl] at h
      cases h
      exact .unbalanced
    | false =>
      cases ho : Frame.opened? t with
      | some frame =>
        by_cases hdepth : m.frames.length < maxDepth
        · rw [take_opened_of_lt hs ho hdepth] at h
          cases h
        · rw [take_opened_of_le hs ho (Nat.not_lt.mp hdepth)] at h
          cases h
          exact .nestingTooDeep
      | none =>
        rw [take_atom hs hl ho] at h
        cases hf : Form.ofToken t with
        | ok f =>
          rw [hf] at h
          cases h
        | error x =>
          rw [hf] at h
          cases h
          obtain ⟨c, hin, hc, rfl⟩ := Form.ofToken_error ht hf
          exact .badEscape c t hmem hin hc

variable [Visiting]

theorem exists_key_of_close_error {frame : Frame} (h : frame.close = .error e) :
    ∃ key, e = .danglingKey key := by
  cases frame with
  | list items | array items => cases h
  | map entries key =>
    cases key with
    | none => cases h
    | some key =>
      cases h
      exact ⟨_, rfl⟩

/-- All that can be wrong with a token where it stands. -/
theorem fault_of_step (ht : Token.Whole t) (hmem : t ∈ tokens) (h : m.step t = .error e) :
    Fault tokens e := by
  by_cases hc : m.closes t
  · obtain ⟨frame, hframe, rfl⟩ := hc
    obtain ⟨frames, found⟩ := m
    cases frames with
    | nil => cases hframe
    | cons inner frames =>
      cases hframe
      rw [step_closer] at h
      cases hclose : frame.close with
      | ok f =>
        rw [hclose] at h
        cases h
      | error x =>
        rw [hclose] at h
        cases h
        obtain ⟨key, rfl⟩ := exists_key_of_close_error hclose
        exact .danglingKey key
  · rw [step_eq_take hc] at h
    exact fault_of_take ht hmem h

theorem exists_step_of_run_error (h : m.run tokens = .error e) :
    ∃ t ∈ tokens, ∃ n : Machine, n.step t = .error e := by
  induction tokens generalizing m with
  | nil => cases h
  | cons t tokens ih =>
    rw [run] at h
    cases hstep : m.step t with
    | error x =>
      rw [hstep] at h
      cases h
      exact ⟨t, List.mem_cons_self, m, hstep⟩
    | ok n =>
      rw [hstep] at h
      obtain ⟨u, hu, hstep⟩ := ih h
      exact ⟨u, List.mem_cons_of_mem _ hu, hstep⟩

/-- A run that comes to an end can only leave a form open. -/
theorem fault_of_finish (ht : ∀ t ∈ tokens, Token.Whole t) (h : m.finish tokens = .error e) :
    Fault tokens e := by
  rw [finish] at h
  cases hrun : m.run tokens with
  | error x =>
    rw [hrun] at h
    cases h
    obtain ⟨t, hmem, n, hstep⟩ := exists_step_of_run_error hrun
    exact fault_of_step (ht t hmem) hmem hstep
  | ok n =>
    rw [hrun] at h
    obtain ⟨frames, found⟩ := n
    cases frames with
    | nil => cases h
    | cons frame frames =>
      cases h
      exact .unbalanced

end Machine

namespace Fault

variable {tokens : List Token} {e : Error}

/-- No fault is one of what only other tokens can have wrong, or operations. -/
theorem excludes (h : Fault tokens e) : e.phase = .reading ∧ e ≠ .unexpectedEnd ∧
    e ≠ .invalidMapKey ∧ (∀ t, e ≠ .expected t) ∧ e ≠ .unterminated := by
  cases h with
  | unbalanced | danglingKey | nestingTooDeep =>
    exact ⟨rfl, nofun, nofun, nofun, nofun⟩
  | unsupported s _ =>
    refine ⟨rfl, nofun, nofun, ?_, nofun⟩
    intro t heq
    have htext := congrArg String.toList (Error.invalidForm.inj heq)
    simp only [String.toList_append] at htext
    cases htext
  | badEscape c t _ _ _ =>
    refine ⟨rfl, nofun, nofun, nofun, ?_⟩
    intro heq
    have htext := congrArg String.toList (Error.invalidInput.inj heq)
    simp only [String.toList_append] at htext
    cases htext

end Fault

/-- Where a text cannot be read, a form is open or closed that should not be, a key is without a
value, forms are nested too deep, a word is kept for statements, or an escape is unknown. -/
theorem fault_of_read [Visiting] {text : String} {e : Error} (h : read text = .error e) :
    Fault (tokenize text) e ∧ e.phase = .reading ∧ e ≠ .unexpectedEnd ∧ e ≠ .invalidMapKey ∧
      (∀ t, e ≠ .expected t) ∧ e ≠ .unterminated := by
  rw [read, readTokens_eq_machine] at h
  have hfault := Machine.fault_of_finish (fun t => Token.whole_of_mem_tokenize) h
  exact ⟨hfault, hfault.excludes⟩

/-- The first wrong escape comes before the word that is kept, and the array is left open. -/
theorem fault_of_read_escape :
    read "[\"\\\"\" \"a\\q\" let" = .error (.badEscape 'q') ∧
      Fault ["[", "\"\\\"\"", "\"a\\q\"", "let"] (.badEscape 'q') := by
  have htokens : tokenize "[\"\\\"\" \"a\\q\" let" = ["[", "\"\\\"\"", "\"a\\q\"", "let"] := by
    decide +kernel
  have hread : read "[\"\\\"\" \"a\\q\" let" = .error (.badEscape 'q') := by
    rw [read, htokens, readTokens_eq_machine]
    rfl
  have hfault := (fault_of_read hread).1
  rw [htokens] at hfault
  exact ⟨hread, hfault⟩

end Sexpr
