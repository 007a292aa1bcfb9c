import Mathlib.Tactic.SplitIfs
import Sexpr.Proofs.Form.Atoms
import Sexpr.Proofs.Form.Entries
import Sexpr.Reader

/-! What the readers can do. Each of them takes tokens off the front, and what holds of atoms and of
lists, arrays and maps as soon as it holds of the forms inside holds of all that is read. -/
namespace Sexpr

theorem exists_of_map_eq_ok {α β : Type} {x : Except Error α} {g : α → β} {b : β}
    (h : x.map g = .ok b) : ∃ a, x = .ok a ∧ g a = b := by
  cases x with
  | error e => cases h
  | ok a =>
    cases h
    exact ⟨a, rfl, rfl⟩

theorem map_map {α β γ : Type} (x : Except Error α) (g : α → β) (h : β → γ) :
    (x.map g).map h = x.map fun a => h (g a) := by
  cases x <;> rfl

theorem map_congr_of_ok {α β : Type} {x : Except Error α} {g h : α → β}
    (hgh : ∀ a, x = .ok a → g a = h a) : x.map g = x.map h := by
  cases x with
  | error e => rfl
  | ok a => exact congrArg Except.ok (hgh a rfl)

namespace Reader

/-- A reading without the proof that it got shorter. -/
def outcome (read : Reader) (tokens : List Token) : Except Error (Form × List Token) :=
  (read tokens).map fun item => (item.form, item.rest)

theorem outcome_error {read : Reader} {tokens : List Token} {e : Error}
    (h : read tokens = .error e) : read.outcome tokens = .error e := by
  rw [outcome, h]
  rfl

theorem outcome_ok {read : Reader} {tokens : List Token} {item : Reading tokens}
    (h : read tokens = .ok item) : read.outcome tokens = .ok (item.form, item.rest) := by
  rw [outcome, h]
  rfl

/-- Past the opening token, a list or an array is its items. -/
theorem outcome_sequence (read : Reader) (start close : Token) (rest : List Token) :
    (sequence (.ok read) start close).outcome (start :: rest) =
      (items read close [] rest).map
        fun r => (if start = Token.openParen then Form.list r.1 else .array r.1, r.2) := by
  rw [outcome, sequence, if_pos rfl]
  split <;> simp_all [Except.map]

/-- The proof that tokens got fewer can be had back. -/
theorem exists_reading {read : Reader} {tokens rest : List Token} {f : Form}
    (h : read.outcome tokens = .ok (f, rest)) :
    ∃ item, read tokens = .ok item ∧ item.form = f ∧ item.rest = rest := by
  obtain ⟨item, hread, heq⟩ := exists_of_map_eq_ok h
  cases heq
  exact ⟨item, hread, rfl, rfl⟩

theorem outcome_shorter {read : Reader} {tokens rest : List Token} {f : Form}
    (h : read.outcome tokens = .ok (f, rest)) : rest.length < tokens.length := by
  obtain ⟨item, -, -, rfl⟩ := exists_reading h
  exact item.shorter

variable {read : Reader} {inner : Except Error Reader} {tokens rest : List Token}
  {start close : Token} {found es : List Entry} {f : Form}

theorem atom_cases (h : atom.outcome tokens = .ok (f, rest)) :
    ∃ token, tokens = token :: rest ∧ Form.ofToken token = .ok f := by
  cases tokens with
  | nil => cases h
  | cons token more =>
    simp only [outcome, atom] at h
    cases hf : Form.ofToken token with
    | error e =>
      rw [hf] at h
      cases h
    | ok g =>
      rw [hf] at h
      cases h
      exact ⟨token, rfl, hf⟩

theorem sequence_cases (h : (sequence inner start close).outcome tokens = .ok (f, rest)) :
    ∃ read more fs, inner = .ok read ∧ tokens = start :: more ∧
      items read close [] more = .ok (fs, rest) ∧
      f = if start = Token.openParen then .list fs else .array fs := by
  cases tokens with
  | nil => cases h
  | cons token more =>
    by_cases ht : token = start
    · subst ht
      cases inner with
      | error e => simp [outcome, sequence, Except.map] at h
      | ok read =>
        rw [outcome_sequence] at h
        obtain ⟨⟨fs, after⟩, hitems, heq⟩ := exists_of_map_eq_ok h
        cases heq
        exact ⟨read, more, fs, rfl, rfl, hitems, rfl⟩
    · simp [outcome, sequence, ht, Except.map] at h

section

variable [Visiting]

theorem outcome_map (read : Reader) (rest : List Token) :
    (map (.ok read)).outcome (Token.openBrace :: rest) =
      (entries read [] rest).map fun r => (Form.map r.1, r.2) := by
  rw [outcome, map, if_pos rfl]
  split <;> simp_all [Except.map]

/-- A word of a statement is refused before anything after it is looked at. -/
theorem outcome_statement {inner : Except Error Reader} {token : Token} {kind : Statement}
    (h : Statement.ofToken? token = some kind) (rest : List Token) :
    (block inner).outcome (token :: rest) = .error (.unsupported kind.word) := by
  apply outcome_error
  simp [block, BlockKind.ofToken, h]

theorem outcome_block {inner : Except Error Reader} {token : Token}
    (h : Statement.ofToken? token = none) (rest : List Token) :
    (block inner).outcome (token :: rest) = (expression inner).outcome (token :: rest) := by
  simp [outcome, block, BlockKind.ofToken, h]

/-- Nothing begins with a closing token. -/
theorem outcome_closer {inner : Except Error Reader} {token : Token}
    (h : Token.isCloser token = true) (rest : List Token) :
    (expression inner).outcome (token :: rest) = .error .unbalanced := by
  apply outcome_error
  simp only [Token.isCloser, Bool.or_eq_true, beq_iff_eq] at h
  rcases h with (rfl | rfl) | rfl <;> rfl

theorem outcome_paren {inner : Except Error Reader} (rest : List Token) :
    (expression inner).outcome (Token.openParen :: rest) =
      (sequence inner Token.openParen Token.closeParen).outcome (Token.openParen :: rest) := rfl

theorem outcome_bracket {inner : Except Error Reader} (rest : List Token) :
    (expression inner).outcome (Token.openBracket :: rest) =
      (sequence inner Token.openBracket Token.closeBracket).outcome (Token.openBracket :: rest) :=
  rfl

theorem outcome_brace {inner : Except Error Reader} (rest : List Token) :
    (expression inner).outcome (Token.openBrace :: rest) =
      (map inner).outcome (Token.openBrace :: rest) := rfl

/-- A key that passes its test is followed by something else than the end of the map. -/
theorem entryKey_ok {f : Form} {key : Key} {rest : List Token} (h : entryKey f rest = .ok key) :
    key.form = f ∧ ∃ token tokens, rest = token :: tokens ∧ token ≠ Token.closeBrace := by
  unfold entryKey at h
  split at h
  · cases h
  · split_ifs at h with hc
    unfold Form.key? at h
    split_ifs at h
    cases h
    exact ⟨rfl, _, _, rfl, hc⟩

/-- The test of a key itself never fails. -/
theorem entryKey_error {f : Form} (hf : f.isKeyable = true) {rest : List Token} {e : Error}
    (h : entryKey f rest = .error e) :
    (rest = [] ∧ e = .unbalanced) ∨
      ∃ tokens, rest = Token.closeBrace :: tokens ∧ e = .danglingKey f.shown := by
  unfold entryKey at h
  split at h
  · cases h; exact Or.inl ⟨rfl, rfl⟩
  · split_ifs at h with hc
    · cases h; exact Or.inr ⟨_, by rw [hc], rfl⟩
    · simp [Form.key?, hf] at h

theorem entryKey_of_keyable {f : Form} (hf : f.isKeyable = true) {token : Token}
    (hne : token ≠ Token.closeBrace) (rest : List Token) :
    entryKey f (token :: rest) = .ok ⟨f, hf⟩ := by
  simp [entryKey, hne, Form.key?, hf]

end

/-! Entries one after the other. -/

/-- Keys and values that are read in turn off the front of some tokens. -/
inductive Entries (read : Reader) : List Token → List Entry → List Token → Prop where
  | nil (tokens : List Token) : Entries read tokens [] tokens
  | cons {tokens between after rest : List Token} {key value : Form} {es : List Entry}
    (hkey : read.outcome tokens = .ok (key, between))
    (hvalue : read.outcome between = .ok (value, after)) (hrest : Entries read after es rest) :
    Entries read tokens ((key, value) :: es) rest

/-- A reader that takes no closing brace for a form. -/
def LeavesBrace (read : Reader) : Prop :=
  ∀ rest result, read.outcome (Token.closeBrace :: rest) ≠ .ok result

/-- A form is read off at least one token, and none off a closing brace. -/
theorem exists_token (hr : read.LeavesBrace) (h : read.outcome tokens = .ok (f, rest)) :
    ∃ token more, tokens = token :: more ∧ token ≠ Token.closeBrace := by
  cases tokens with
  | nil =>
    obtain ⟨item, -⟩ := exists_reading h
    exact absurd item.shorter (Nat.not_lt_zero _)
  | cons token more =>
    refine ⟨token, more, rfl, ?_⟩
    rintro rfl
    exact hr more _ h

section

variable [Visiting]

theorem entries_closeBrace (read : Reader) (found : List Entry) (rest : List Token) :
    entries read found (Token.closeBrace :: rest) = .ok (found, rest) := by
  rw [entries, if_pos rfl]

/-- One turn of the loop, where the key may be a key. -/
theorem entries_cons {between after : List Token} {key value : Form} (hr : read.LeavesBrace)
    (hkeyable : key.isKeyable = true) (hkey : read.outcome tokens = .ok (key, between))
    (hvalue : read.outcome between = .ok (value, after)) :
    entries read found tokens = entries read (Form.putEntry key value found) after := by
  obtain ⟨token, more, rfl, hne⟩ := exists_token hr hkey
  obtain ⟨next, others, rfl, hnext⟩ := exists_token hr hvalue
  obtain ⟨item, hitem, rfl, hbetween⟩ := exists_reading hkey
  rw [← hbetween] at hvalue
  obtain ⟨item', hitem', rfl, rfl⟩ := exists_reading hvalue
  have htest : entryKey item.form item.rest = .ok ⟨item.form, hkeyable⟩ := by
    rw [hbetween]
    exact entryKey_of_keyable hkeyable hnext others
  rw [entries, if_neg hne]
  simp only [hitem, htest, hitem']
  rfl

/-- The loop over the entries of a map puts one after the other into those that are found. -/
theorem entries_iff (hr : read.LeavesBrace) :
    entries read found tokens = .ok (es, rest) ↔
      ∃ pairs, Entries read tokens pairs (Token.closeBrace :: rest) ∧
        (∀ e ∈ pairs, e.1.isKeyable = true) ∧ es = Form.putAll found pairs := by
  constructor
  · intro h
    fun_induction entries read found tokens with
    | case1 => cases h
    | case2 found rest =>
      cases h
      exact ⟨[], .nil _, by simp, rfl⟩
    | case3 => cases h
    | case4 => cases h
    | case5 => cases h
    | case6 found token more _ item hi key hkey value hv ih =>
      obtain ⟨pairs, hpairs, hkeyable, heq⟩ := ih h
      obtain ⟨hform, -⟩ := entryKey_ok hkey
      refine ⟨(item.form, value.form) :: pairs, .cons (outcome_ok hi) (outcome_ok hv) hpairs, ?_, ?_⟩
      · exact List.forall_mem_cons.mpr ⟨hform ▸ key.keyable, hkeyable⟩
      · rw [heq, Form.insertEntry, hform]
        rfl
  · rintro ⟨pairs, hpairs, hkeyable, rfl⟩
    generalize htokens : Token.closeBrace :: rest = last at hpairs
    induction hpairs generalizing found with
    | nil tokens =>
      subst htokens
      exact entries_closeBrace read found rest
    | cons hkey hvalue _ ih =>
      obtain ⟨hhead, htail⟩ := List.forall_mem_cons.mp hkeyable
      rw [entries_cons hr hhead hkey hvalue, ih htail htokens]
      rfl

/-! What the readers are given and what they give. -/

theorem map_cases (h : (map inner).outcome tokens = .ok (f, rest)) :
    ∃ read more es, inner = .ok read ∧ tokens = Token.openBrace :: more ∧
      entries read [] more = .ok (es, rest) ∧ f = .map es := by
  cases tokens with
  | nil => cases h
  | cons token more =>
    by_cases ht : token = Token.openBrace
    · subst ht
      cases inner with
      | error e => simp [outcome, map, Except.map] at h
      | ok read =>
        rw [outcome_map] at h
        obtain ⟨⟨es, after⟩, hentries, heq⟩ := exists_of_map_eq_ok h
        cases heq
        exact ⟨read, more, es, rfl, rfl, hentries, rfl⟩
    · simp [outcome, map, ht, Except.map] at h

/-- A map is read if entries are read between its braces, and it is the one built from them. -/
theorem map_eq_ok_iff (hinner : ∀ read, inner = .ok read → read.LeavesBrace) :
    (map inner).outcome tokens = .ok (f, rest) ↔
      ∃ read more pairs, inner = .ok read ∧ tokens = Token.openBrace :: more ∧
        Entries read more pairs (Token.closeBrace :: rest) ∧ Form.ofEntries? pairs = .ok f := by
  constructor
  · intro h
    obtain ⟨read, more, es, hread, rfl, hentries, rfl⟩ := map_cases h
    obtain ⟨pairs, hpairs, hkeyable, rfl⟩ := (entries_iff (hinner read hread)).mp hentries
    exact ⟨read, more, pairs, hread, rfl, hpairs, Form.ofEntries?_of_keyable hkeyable⟩
  · rintro ⟨read, more, pairs, hread, rfl, hpairs, hf⟩
    obtain ⟨hkeyable, rfl⟩ := Form.ofEntries?_eq_ok_iff.mp hf
    have hentries : entries read [] more = .ok (Form.putAll [] pairs, rest) :=
      (entries_iff (hinner read hread)).mpr ⟨pairs, hpairs, hkeyable, rfl⟩
    rw [hread, outcome_map, hentries]
    rfl

theorem expression_cases {result : Form × List Token}
    (h : (expression inner).outcome tokens = .ok result) :
    (∃ start close, (sequence inner start close).outcome tokens = .ok result) ∨
      (map inner).outcome tokens = .ok result ∨ atom.outcome tokens = .ok result := by
  cases tokens with
  | nil => cases h
  | cons token more =>
    simp only [outcome, expression] at h
    split at h
    · exact .inl ⟨_, _, h⟩
    · split at h
      · exact .inl ⟨_, _, h⟩
      · split at h
        · exact .inr (.inl h)
        · split at h
          · cases h
          · exact .inr (.inr h)

theorem block_cases {result : Form × List Token} (h : (block inner).outcome tokens = .ok result) :
    (expression inner).outcome tokens = .ok result := by
  cases tokens with
  | nil => cases h
  | cons token more =>
    cases hs : Statement.ofToken? token with
    | some kind =>
      rw [outcome_statement hs] at h
      cases h
    | none =>
      rw [outcome_block hs] at h
      exact h

theorem leavesBrace_block (inner : Except Error Reader) : (block inner).LeavesBrace := by
  intro rest result h
  cases h

end

/-- What holds of every form that a reader gives, of the tokens before and of those after it. -/
def Obeys (P : List Token → Form → List Token → Prop) (read : Reader) : Prop :=
  ∀ tokens f rest, read.outcome tokens = .ok (f, rest) → P tokens f rest

/-- A property that lists, arrays and maps have as soon as the forms inside have it. -/
structure Hereditary (P : List Token → Form → List Token → Prop) : Prop where
  atom : ∀ {token f} rest, Form.ofToken token = .ok f → P (token :: rest) f rest
  sequence : ∀ {read start close tokens rest fs}, Obeys P read →
    items read close [] tokens = .ok (fs, rest) →
    P (start :: tokens) (if start = Token.openParen then .list fs else .array fs) rest
  map : ∀ {read tokens rest pairs}, Obeys P read →
    Entries read tokens pairs (Token.closeBrace :: rest) →
    (∀ e ∈ pairs, e.1.isKeyable = true) →
    P (Token.openBrace :: tokens) (.map (Form.putAll [] pairs)) rest

namespace Hereditary

variable {P : List Token → Form → List Token → Prop}

theorem obeys_atom (h : Hereditary P) : Obeys P Reader.atom := by
  intro tokens f rest hread
  obtain ⟨token, rfl, hf⟩ := atom_cases hread
  exact h.atom rest hf

theorem obeys_sequence (h : Hereditary P) (hinner : ∀ read, inner = .ok read → Obeys P read)
    (start close : Token) : Obeys P (Reader.sequence inner start close) := by
  intro tokens f rest hread
  obtain ⟨read, more, fs, hi, rfl, hitems, rfl⟩ := sequence_cases hread
  exact h.sequence (hinner read hi) hitems

variable [Visiting]

theorem obeys_map (h : Hereditary P)
    (hinner : ∀ read, inner = .ok read → read.LeavesBrace ∧ Obeys P read) :
    Obeys P (Reader.map inner) := by
  intro tokens f rest hread
  obtain ⟨read, more, pairs, hi, rfl, hpairs, hf⟩ :=
    (map_eq_ok_iff fun read hr => (hinner read hr).1).mp hread
  obtain ⟨hkeyable, rfl⟩ := Form.ofEntries?_eq_ok_iff.mp hf
  exact h.map (hinner read hi).2 hpairs hkeyable

theorem obeys_expression (h : Hereditary P)
    (hinner : ∀ read, inner = .ok read → read.LeavesBrace ∧ Obeys P read) :
    Obeys P (expression inner) := by
  intro tokens f rest hread
  rcases expression_cases hread with ⟨start, close, hread⟩ | hread | hread
  · exact h.obeys_sequence (fun read hr => (hinner read hr).2) start close _ _ _ hread
  · exact h.obeys_map hinner _ _ _ hread
  · exact h.obeys_atom _ _ _ hread

theorem obeys_block (h : Hereditary P)
    (hinner : ∀ read, inner = .ok read → read.LeavesBrace ∧ Obeys P read) :
    Obeys P (block inner) :=
  fun tokens f rest hread => h.obeys_expression hinner tokens f rest (block_cases hread)

/-- Induction on the levels of nesting that are left. -/
theorem obeys_inside (h : Hereditary P) (levels : Nat) :
    ∀ read, inside levels = .ok read → read.LeavesBrace ∧ Obeys P read := by
  induction levels with
  | zero =>
    intro read hread
    cases hread
  | succ levels ih =>
    intro read hread
    cases hread
    exact ⟨leavesBrace_block _, h.obeys_block ih⟩

end Hereditary

/-! Readers take tokens off the front. -/

def TakesFront (tokens : List Token) (_ : Form) (rest : List Token) : Prop := rest <:+ tokens

/-- What is left after the items is left of what was there before. -/
theorem items_suffix {read : Reader} {close : Token} {found fs : List Form}
    (hr : Obeys TakesFront read) (h : items read close found tokens = .ok (fs, rest)) :
    rest <:+ tokens := by
  fun_induction items read close found tokens with
  | case1 => cases h
  | case2 => cases h; exact List.suffix_cons _ _
  | case3 => cases h
  | case4 _ _ _ _ item hi ih => exact (ih h).trans (hr _ _ _ (outcome_ok hi))

/-- So it is with entries. -/
theorem Entries.suffix {pairs : List Entry} (hr : Obeys TakesFront read)
    (h : Entries read tokens pairs rest) : rest <:+ tokens := by
  induction h with
  | nil tokens => exact List.suffix_rfl
  | cons hkey hvalue _ ih => exact ih.trans ((hr _ _ _ hvalue).trans (hr _ _ _ hkey))

theorem entries_suffix [Visiting] {read : Reader} (hbrace : read.LeavesBrace)
    (hr : Obeys TakesFront read) (h : entries read found tokens = .ok (es, rest)) : rest <:+ tokens := by
  obtain ⟨pairs, hpairs, -, -⟩ := (entries_iff hbrace).mp h
  exact (List.suffix_cons _ _).trans (hpairs.suffix hr)

theorem hereditary_takesFront : Hereditary TakesFront where
  atom rest _ := List.suffix_cons _ rest
  sequence hr h := (items_suffix hr h).trans (List.suffix_cons _ _)
  map hr h _ := (List.suffix_cons _ _).trans ((h.suffix hr).trans (List.suffix_cons _ _))

/-! Whatever is read is well-formed and may be a key. -/

def Sound (_ : List Token) (f : Form) (_ : List Token) : Prop :=
  f.WellFormed ∧ f.isKeyable = true

theorem items_sound {read : Reader} {close : Token} {found fs : List Form}
    (hr : Obeys Sound read) (hf : ∀ f ∈ found, f.WellFormed ∧ f.isKeyable = true)
    (h : items read close found tokens = .ok (fs, rest)) :
    ∀ f ∈ fs, f.WellFormed ∧ f.isKeyable = true := by
  fun_induction items read close found tokens with
  | case1 => cases h
  | case2 =>
    cases h
    intro f hmem
    exact hf f (List.mem_reverse.mp hmem)
  | case3 => cases h
  | case4 _ _ _ _ item hi ih =>
    exact ih (List.forall_mem_cons.mpr ⟨hr _ _ _ (outcome_ok hi), hf⟩) h

theorem Entries.sound {pairs : List Entry} (hr : Obeys Sound read)
    (h : Entries read tokens pairs rest) :
    ∀ e ∈ pairs, (e.1.WellFormed ∧ e.1.isKeyable = true) ∧ e.2.WellFormed ∧ e.2.isKeyable = true := by
  induction h with
  | nil => simp
  | cons hkey hvalue _ ih =>
    exact List.forall_mem_cons.mpr ⟨⟨hr _ _ _ hkey, hr _ _ _ hvalue⟩, ih⟩

theorem hereditary_sound : Hereditary Sound where
  atom rest h := ⟨Form.wellFormed_atom (Form.isAtom_ofToken h), Form.isKeyable_ofToken h⟩
  sequence hr h := by
    have hitems := items_sound hr (by simp) h
    split
    · exact ⟨Form.wellFormed_list.mpr fun f hf => (hitems f hf).1,
        Form.allKeyable_iff.mpr fun f hf => (hitems f hf).2⟩
    · exact ⟨Form.wellFormed_array.mpr fun f hf => (hitems f hf).1,
        Form.allKeyable_iff.mpr fun f hf => (hitems f hf).2⟩
  map hr h _ := by
    have hpairs := h.sound hr
    constructor
    · refine Form.wellFormed_putAll Form.wellFormed_map_nil fun e he => ?_
      exact ⟨(hpairs e he).1.1, (hpairs e he).1.2, (hpairs e he).2.1⟩
    · refine Form.valuesKeyable_iff.mpr fun e he => ?_
      obtain ⟨a, ha, heq⟩ := (Form.mem_putAll_nil he).2
      rw [heq]
      exact (hpairs a ha).2.2

/-- The readers of whole forms, with so many levels of nesting left. -/
theorem sound_inside [Visiting] (levels : Nat) :
    ∀ read, inside levels = .ok read → read.LeavesBrace ∧ Obeys Sound read :=
  hereditary_sound.obeys_inside levels

theorem sound_block [Visiting] (levels : Nat) : Obeys Sound (block (inside levels)) :=
  hereditary_sound.obeys_block (sound_inside levels)

theorem forms_sound (hr : Obeys Sound read) {found fs : List Form}
    (hf : ∀ f ∈ found, f.WellFormed) (h : forms read found tokens = .ok fs) :
    ∀ f ∈ fs, f.WellFormed := by
  fun_induction forms read found tokens with
  | case1 =>
    cases h
    intro f hmem
    exact hf f (List.mem_reverse.mp hmem)
  | case2 => cases h
  | case3 _ _ _ item hi ih =>
    exact ih (List.forall_mem_cons.mpr ⟨(hr _ _ _ (outcome_ok hi)).1, hf⟩) h

end Reader
end Sexpr
