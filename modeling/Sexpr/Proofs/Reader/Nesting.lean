import Sexpr.Proofs.Form.Subforms
import Sexpr.Proofs.Reader.Calls
import Sexpr.Proofs.Reader.Simulation

/-! How many levels of nesting it takes to read a form: as many as delimiters are open at once among its
tokens, whatever becomes of the forms between them. With fewer levels left that is the error, and with
more nothing changes. -/
namespace Sexpr

namespace Token

def isOpener (t : Token) : Bool := t == openParen || t == openBracket || t == openBrace

/-- How many delimiters are open after a token, where so many were open before it. -/
def openAfter (n : Nat) (t : Token) : Nat :=
  if isOpener t then n + 1 else if isCloser t then n - 1 else n

/-- The most delimiters that are open at once, where so many are open before some tokens. -/
def mostOpen (n : Nat) : List Token → Nat
  | [] => n
  | t :: ts => max n (mostOpen (openAfter n t) ts)

/-- Tokens that leave open what they find open, and have so many more open at the most. -/
structure Nested (ts : List Token) (m : Nat) : Prop where
  returns : ∀ n, ts.foldl openAfter n = n
  most : ∀ n, mostOpen n ts = n + m

variable {t start close : Token} {ts us : List Token} {k m : Nat}

theorem mostOpen_append (n : Nat) (ts us : List Token) :
    mostOpen n (ts ++ us) = max (mostOpen n ts) (mostOpen (ts.foldl openAfter n) us) := by
  induction ts generalizing n with
  | nil => cases us <;> simp [mostOpen]
  | cons t ts ih => rw [List.cons_append, mostOpen, mostOpen, ih, List.foldl_cons, Nat.max_assoc]

theorem nested_nil : Nested [] 0 := ⟨fun _ => rfl, fun _ => rfl⟩

theorem nested_singleton (ho : isOpener t = false) (hc : isCloser t = false) : Nested [t] 0 := by
  have hafter (n : Nat) : openAfter n t = n := by simp [openAfter, ho, hc]
  exact ⟨hafter, fun n => by simp [mostOpen, hafter]⟩

theorem Nested.append (ht : Nested ts k) (hu : Nested us m) : Nested (ts ++ us) (max k m) := by
  constructor
  · intro n
    rw [List.foldl_append, ht.returns, hu.returns]
  · intro n
    rw [mostOpen_append, ht.returns, ht.most, hu.most, Nat.add_max_add_left]

/-- A delimiter and the one that closes it, around such tokens. -/
theorem Nested.delimited (h : Nested ts m) (hs : isOpener start = true)
    (ho : isOpener close = false) (hc : isCloser close = true) :
    Nested (start :: (ts ++ [close])) (m + 1) := by
  have hopen (n : Nat) : openAfter n start = n + 1 := by simp [openAfter, hs]
  have hclose (n : Nat) : openAfter (n + 1) close = n := by simp [openAfter, ho, hc]
  constructor
  · intro n
    rw [List.foldl_cons, hopen, List.foldl_append, h.returns]
    exact hclose n
  · intro n
    rw [mostOpen, hopen, mostOpen_append, h.returns, h.most]
    simp only [mostOpen, hclose]
    omega

end Token

namespace Reader

variable {α β : Type} {answer : Nat → Except Error α} {a : α} {m : Nat} {inner : Except Error Reader}
  {read : Reader} {token close : Token} {tokens used rest : List Token} {f : Form}

/-- An answer that takes at least so many levels of nesting, and is the same for all that are enough. -/
def Needs (m : Nat) (answer : Nat → Except Error α) (a : α) : Prop :=
  ∀ levels, answer levels = if m ≤ levels then .ok a else .error (.nestingTooDeep maxDepth)

theorem Needs.eq_ok (h : Needs m answer a) {levels : Nat} (hm : m ≤ levels) :
    answer levels = .ok a := (h levels).trans (if_pos hm)

theorem Needs.eq_error (h : Needs m answer a) {levels : Nat} (hm : levels < m) :
    answer levels = .error (.nestingTooDeep maxDepth) := (h levels).trans (if_neg (Nat.not_le.mpr hm))

theorem needs_zero (h : ∀ levels, answer levels = .ok a) : Needs 0 answer a := by
  intro levels
  rw [h, if_pos (Nat.zero_le levels)]

theorem Needs.map (h : Needs m answer a) (g : α → β) :
    Needs m (fun levels => (answer levels).map g) (g a) := by
  intro levels
  dsimp only
  rw [h levels]
  split <;> rfl

/-- What goes on with an answer takes the levels of the answer and those of the rest. -/
theorem Needs.andThen {whole next : Nat → Except Error β} {b : β} {k : Nat} (h : Needs k answer a)
    (hnext : Needs m next b)
    (herror : ∀ levels e, answer levels = .error e → whole levels = .error e)
    (hok : ∀ levels, answer levels = .ok a → whole levels = next levels) :
    Needs (max k m) whole b := by
  intro levels
  by_cases hk : k ≤ levels
  · rw [hok levels (h.eq_ok hk), hnext levels]
    simp only [Nat.max_le, hk, true_and]
  · have hmax : ¬ max k m ≤ levels := fun hle => hk (Nat.max_le.mp hle).1
    rw [herror levels _ (h.eq_error (Nat.not_le.mp hk)), if_neg hmax]

theorem kind_cases {kind : Cursor.Kind} (h : Cursor.Kind.ofToken? token = some kind) :
    (∃ close, kind = .sequence token close ∧ Token.isOpener token = true ∧
        Token.isOpener close = false ∧ Token.isCloser close = true) ∨
      (kind = .map ∧ token = Token.openBrace) ∨
      (kind = .atom ∧ Token.isOpener token = false ∧ Token.isCloser token = false) := by
  unfold Cursor.Kind.ofToken? at h
  split_ifs at h with hp hb hm hc <;> cases h
  · subst hp
    exact .inl ⟨_, rfl, rfl, rfl, rfl⟩
  · subst hb
    exact .inl ⟨_, rfl, rfl, rfl, rfl⟩
  · exact .inr (.inl ⟨rfl, hm⟩)
  · exact .inr (.inr ⟨rfl, by simp [Token.isOpener, hp, hb, hm], Bool.eq_false_iff.mpr hc⟩)

/-- To go inside takes one more level. -/
theorem Needs.enter [Visiting] {enter : Except Error Reader → Except Error α}
    {inside : Reader → Except Error α} (herror : ∀ e, enter (.error e) = .error e)
    (hok : ∀ read, enter (.ok read) = inside read)
    (h : Needs m (fun levels => inside (block (Reader.inside levels))) a) :
    Needs (m + 1) (fun levels => enter (Reader.inside levels)) a := by
  intro levels
  cases levels with
  | zero => exact herror _
  | succ levels =>
    simp only [Nat.add_le_add_iff_right]
    exact (hok _).trans (h levels)

/-- Tokens that a form is read from, and the levels of nesting that this takes in every run. -/
structure Measured (tokens used rest : List Token) (m : Nat) (f : Form) : Prop where
  split : tokens = used ++ rest
  nested : Token.Nested used m
  depth : f.depth ≤ m
  needs : ∀ [Visiting], Needs m (fun levels => (block (inside levels)).outcome tokens) (f, rest)

def Measurable (tokens : List Token) (f : Form) (rest : List Token) : Prop :=
  ∃ used m, Measured tokens used rest m f

/-- What a block is depends on its first token, neither on the levels that are left nor on the run. -/
theorem block_kind [Visiting] {result : Form × List Token}
    (h : (block inner).outcome tokens = .ok result) :
    ∃ token more kind, tokens = token :: more ∧ Cursor.Kind.ofToken? token = some kind ∧
      ∀ [Visiting] other, (block other).outcome tokens = (kind.reader other).outcome tokens := by
  cases tokens with
  | nil => cases h
  | cons token more =>
    rw [outcome_block_cons] at h
    cases hblock : BlockKind.ofToken token with
    | statement kind =>
      rw [hblock] at h
      cases h
    | expression =>
      rw [hblock, Cursor.outcome_expression_cons] at h
      cases hkind : Cursor.Kind.ofToken? token with
      | none =>
        rw [hkind] at h
        cases h
      | some kind =>
        refine ⟨token, more, kind, rfl, hkind, fun other => ?_⟩
        rw [outcome_block_cons, hblock, Cursor.outcome_expression_cons, hkind]

/-- Items take as many levels as the one that takes the most. -/
theorem items_measured {found fs : List Form} (hr : Obeys Measurable read)
    (h : items read close found tokens = .ok (fs, rest)) :
    ∃ used m, tokens = used ++ close :: rest ∧ Token.Nested used m ∧
      (∀ f ∈ fs, f ∈ found ∨ f.depth ≤ m) ∧
      ∀ [Visiting],
        Needs m (fun levels => items (block (inside levels)) close found tokens) (fs, rest) := by
  fun_induction items read close found tokens with
  | case1 => cases h
  | case2 found rest =>
    cases h
    refine ⟨[], 0, rfl, Token.nested_nil, fun f hf => .inl (List.mem_reverse.mp hf), ?_⟩
    exact needs_zero fun levels => by rw [items_step, if_pos rfl]
  | case3 => cases h
  | case4 found token more hne item hi ih =>
    obtain ⟨w, k, hitem⟩ := hr _ _ _ (outcome_ok hi)
    obtain ⟨v, m, hv, hnested, hdepth, hneeds⟩ := ih h
    refine ⟨w ++ v, max k m, ?_, hitem.nested.append hnested, fun f hf => ?_, ?_⟩
    · rw [hitem.split, hv, List.append_assoc]
    · rcases hdepth f hf with hmem | hle
      · rcases List.mem_cons.mp hmem with rfl | hmem
        · exact .inr (hitem.depth.trans (Nat.le_max_left k m))
        · exact .inl hmem
      · exact .inr (hle.trans (Nat.le_max_right k m))
    · intro _
      refine hitem.needs.andThen hneeds (fun levels e he => ?_) fun levels hok => ?_
      · rw [items_step, if_neg hne, he]
      · rw [items_step, if_neg hne, hok]

/-- One entry and those after it: the key is read and tested, and then the value is read. -/
theorem needs_entries [Visiting] {key value : Form} {between after : List Token} {found es : List Entry}
    {w v : List Token} {k l : Nat} (hkey : Measured tokens w between k key)
    (hvalue : Measured between v after l value) (hkeyable : key.isKeyable = true)
    (hrest : Needs m (fun levels =>
      entries (block (inside levels)) (Form.putEntry key value found) after) (es, rest)) :
    Needs (max k (max l m)) (fun levels => entries (block (inside levels)) found tokens)
      (es, rest) := by
  obtain ⟨token, more, rfl, hne⟩ :=
    exists_token (leavesBrace_block _) (hkey.needs.eq_ok (Nat.le_refl k))
  obtain ⟨next, others, rfl, hnext⟩ :=
    exists_token (leavesBrace_block _) (hvalue.needs.eq_ok (Nat.le_refl l))
  have hknown := entryKey_of_keyable hkeyable hnext others
  let rests (levels : Nat) : Except Error (List Entry × List Token) :=
    ((block (inside levels)).outcome (next :: others)).bind fun last =>
      entries (block (inside levels)) (Form.putEntry key last.1 found) last.2
  have hrests : Needs (max l m) rests (es, rest) := by
    refine hvalue.needs.andThen hrest (fun levels e he => ?_) fun levels hok => ?_
    · simp only [rests, he, Except.bind]
    · simp only [rests, hok, Except.bind]
  refine hkey.needs.andThen hrests (fun levels e he => ?_) fun levels hok => ?_
  · rw [entries_step, if_neg hne, he]
  · rw [entries_step, if_neg hne, hok]
    dsimp only [rests]
    rw [hknown]
    cases (block (inside levels)).outcome (next :: others) <;> rfl

/-- Keys and values take levels alike, also where a key is met again and what it had is dropped. -/
theorem Entries.measured {pairs : List Entry} {last : List Token} (hr : Obeys Measurable read)
    (h : Entries read tokens pairs last) (hkeyable : ∀ e ∈ pairs, e.1.isKeyable = true) :
    ∃ used m, tokens = used ++ last ∧ Token.Nested used m ∧
      (∀ e ∈ pairs, e.1.depth ≤ m ∧ e.2.depth ≤ m) ∧
      ∀ [Visiting] found rest, last = Token.closeBrace :: rest →
        Needs m (fun levels => entries (block (inside levels)) found tokens)
          (Form.putAll found pairs, rest) := by
  induction h with
  | nil tokens =>
    refine ⟨[], 0, rfl, Token.nested_nil, List.forall_mem_nil _, fun found rest hlast => ?_⟩
    exact needs_zero fun levels => by rw [hlast, entries_closeBrace]; rfl
  | @cons tokens between after last key value pairs hkey hvalue _ ih =>
    obtain ⟨hhead, htail⟩ := List.forall_mem_cons.mp hkeyable
    obtain ⟨w, k, hkey⟩ := hr _ _ _ hkey
    obtain ⟨v, l, hvalue⟩ := hr _ _ _ hvalue
    obtain ⟨u, m, hu, hnested, hdepth, hneeds⟩ := ih htail
    have hl : l ≤ max k (max l m) := (Nat.le_max_left l m).trans (Nat.le_max_right k _)
    have hm : m ≤ max k (max l m) := (Nat.le_max_right l m).trans (Nat.le_max_right k _)
    refine ⟨w ++ (v ++ u), max k (max l m), ?_, hkey.nested.append (hvalue.nested.append hnested),
      List.forall_mem_cons.mpr ⟨⟨?_, hvalue.depth.trans hl⟩, fun e he => ⟨?_, ?_⟩⟩,
      fun found rest hlast => needs_entries hkey hvalue hhead (hneeds _ rest hlast)⟩
    · rw [hkey.split, hvalue.split, hu, List.append_assoc, List.append_assoc]
    · exact hkey.depth.trans (Nat.le_max_left k _)
    · exact (hdepth e he).1.trans hm
    · exact (hdepth e he).2.trans hm

theorem measurable_atom {more : List Token} (ho : Token.isOpener token = false)
    (hc : Token.isCloser token = false)
    (hblock : ∀ [Visiting] other, (block other).outcome (token :: more) = atom.outcome (token :: more))
    (h : atom.outcome (token :: more) = .ok (f, rest)) : Measurable (token :: more) f rest := by
  obtain ⟨t, heq, hf⟩ := atom_cases h
  cases heq
  refine ⟨[token], 0, rfl, Token.nested_singleton ho hc, ?_, needs_zero fun levels => ?_⟩
  · rw [Form.depth_atom (Form.isAtom_ofToken hf)]
  · rw [hblock, h]

theorem measurable_sequence {more : List Token} (hs : Token.isOpener token = true)
    (ho : Token.isOpener close = false) (hc : Token.isCloser close = true)
    (hinner : ∀ read, inner = .ok read → Obeys Measurable read)
    (hblock : ∀ [Visiting] other, (block other).outcome (token :: more) =
      (sequence other token close).outcome (token :: more))
    (h : (sequence inner token close).outcome (token :: more) = .ok (f, rest)) :
    Measurable (token :: more) f rest := by
  obtain ⟨read, _, fs, hread, heq, hitems, rfl⟩ := sequence_cases h
  cases heq
  obtain ⟨used, m, hused, hnested, hdepth, hneeds⟩ := items_measured (hinner read hread) hitems
  have hle : ∀ f ∈ fs, f.depth ≤ m := fun f hf => (hdepth f hf).resolve_left List.not_mem_nil
  let enter inner := (sequence inner token close).outcome (token :: more)
  have herror (e : Error) : enter (.error e) = .error e := by
    simp [enter, outcome, sequence, Except.map]
  have hneeds [Visiting] := Needs.enter herror (fun read => outcome_sequence read token close more)
    (hneeds.map _)
  refine ⟨token :: (used ++ [close]), m + 1, ?_, hnested.delimited hs ho hc, ?_, fun levels => ?_⟩
  · rw [hused, List.cons_append, List.append_assoc]
    rfl
  · split
    · exact Form.depth_list_le.mpr hle
    · exact Form.depth_array_le.mpr hle
  · exact (hblock _).trans (hneeds levels)

theorem measurable_map [Visiting] {more : List Token}
    (hinner : ∀ read, inner = .ok read → read.LeavesBrace ∧ Obeys Measurable read)
    (hblock : ∀ [Visiting] other, (block other).outcome (Token.openBrace :: more) =
      (map other).outcome (Token.openBrace :: more))
    (h : (map inner).outcome (Token.openBrace :: more) = .ok (f, rest)) :
    Measurable (Token.openBrace :: more) f rest := by
  obtain ⟨read, _, pairs, hread, heq, hpairs, hf⟩ :=
    (map_eq_ok_iff fun read hread => (hinner read hread).1).mp h
  cases heq
  obtain ⟨hkeyable, rfl⟩ := Form.ofEntries?_eq_ok_iff.mp hf
  obtain ⟨used, m, hused, hnested, hdepth, hneeds⟩ := hpairs.measured (hinner read hread).2 hkeyable
  let enter [Visiting] inner := (map inner).outcome (Token.openBrace :: more)
  have herror [Visiting] (e : Error) : enter (.error e) = .error e := rfl
  have hneeds [Visiting] :=
    Needs.enter herror (fun read => outcome_map read more) ((hneeds [] rest rfl).map _)
  refine ⟨Token.openBrace :: (used ++ [Token.closeBrace]), m + 1, ?_,
    hnested.delimited rfl rfl rfl, Form.depth_map_le.mpr fun e he => ?_, fun levels => ?_⟩
  · rw [hused, List.cons_append, List.append_assoc]
    rfl
  · obtain ⟨⟨a, ha, hkey⟩, b, hb, hvalue⟩ := Form.mem_putAll_nil he
    rw [hkey, hvalue]
    exact ⟨(hdepth a ha).1, (hdepth b hb).2⟩
  · exact (hblock _).trans (hneeds levels)

theorem measurable_block [Visiting]
    (hinner : ∀ read, inner = .ok read → read.LeavesBrace ∧ Obeys Measurable read) :
    Obeys Measurable (block inner) := by
  intro tokens f rest h
  obtain ⟨token, more, kind, rfl, hkind, hblock⟩ := block_kind h
  rw [hblock] at h
  rcases kind_cases hkind with ⟨close, rfl, hs, ho, hc⟩ | ⟨rfl, rfl⟩ | ⟨rfl, ho, hc⟩
  · exact measurable_sequence hs ho hc (fun read hread => (hinner read hread).2) hblock h
  · exact measurable_map hinner hblock h
  · exact measurable_atom ho hc hblock h

/-- Whatever is read with some levels left takes a number of levels that its tokens tell. -/
theorem measurable_inside [Visiting] (levels : Nat) : Obeys Measurable (block (inside levels)) := by
  induction levels with
  | zero =>
    refine measurable_block fun read hread => ?_
    cases hread
  | succ levels ih =>
    refine measurable_block fun read hread => ?_
    cases hread
    exact ⟨leavesBrace_block _, ih⟩

end Reader

namespace Cursor

variable {c d : Cursor} {f : Form} {fs : List Form} {kind : Kind} {tokens : List Token}

/-- The cursors that are reached from the first token on by moves and by readings that succeed. -/
inductive Reached (tokens : List Token) : Cursor → Prop where
  | start : Reached tokens (ofTokens tokens)
  | advance {c : Cursor} (h : Reached tokens c) : Reached tokens c.advance
  | enter {c d : Cursor} (h : Reached tokens c) (hd : c.enter = .ok d) : Reached tokens d
  | leave {c : Cursor} (h : Reached tokens c) : Reached tokens c.leave
  | read [Visiting] {c d : Cursor} {kind : Kind} {f : Form} (h : Reached tokens c)
    (hd : c.read kind = .ok (f, d)) : Reached tokens d
  | readBlocks [Visiting] {c d : Cursor} {fs : List Form} (h : Reached tokens c)
    (hd : c.readBlocks = .ok (fs, d)) : Reached tokens d

theorem depth_of_read [Visiting] (h : c.read kind = .ok (f, d)) : d.depth = c.depth := by
  rw [read_eq] at h
  obtain ⟨r, -, heq⟩ := exists_of_map_eq_ok h
  cases heq
  rfl

theorem depth_of_readBlocks [Visiting] (h : c.readBlocks = .ok (fs, d)) : d.depth = c.depth := by
  rw [readBlocks] at h
  split at h
  · cases h
  · cases h
    rfl

theorem Reached.depth_le (h : Reached tokens c) : c.depth ≤ maxDepth := by
  induction h with
  | start => exact Nat.zero_le _
  | advance _ ih => exact ih
  | enter _ hd _ =>
    obtain ⟨hlt, rfl⟩ := enter_eq_ok_iff.mp hd
    exact hlt
  | leave _ ih => exact (Nat.sub_le _ 1).trans ih
  | read _ hd ih => exact depth_of_read hd ▸ ih
  | readBlocks _ hd ih => exact depth_of_readBlocks hd ▸ ih

theorem measured_of_readBlock [Visiting] (h : c.readBlock = .ok (f, d)) :
    ∃ used rest m, Reader.Measured c.rest used rest m f ∧ d = c.goTo rest := by
  obtain ⟨rest, hread, hd⟩ := readBlock_eq_ok_iff.mp h
  obtain ⟨used, m, hmeasured⟩ := Reader.measurable_inside _ _ _ _ hread
  exact ⟨used, rest, m, hmeasured, hd⟩

/-- The tokens that a cursor moves over tell at which depths they are read, and all the same there. -/
theorem readBlock_of_measured [Visiting] {used rest : List Token} {m depth : Nat}
    (h : Reader.Measured c.rest used rest m f) (hdepth : depth ≤ maxDepth) :
    { c with depth := depth }.readBlock =
      if depth + Token.mostOpen 0 (c.rest.take ((c.goTo rest).position - c.position)) ≤ maxDepth then
        .ok (f, { c.goTo rest with depth := depth })
      else .error (.nestingTooDeep maxDepth) := by
  have hlength : (c.goTo rest).position - c.position = used.length := by
    rw [goTo, h.split, List.length_append, Nat.add_sub_cancel, Nat.add_sub_cancel_left]
  have hmost : Token.mostOpen 0 (c.rest.take used.length) = m := by
    rw [h.split, List.take_left, h.nested.most, Nat.zero_add]
  have hlevels : depth + m ≤ maxDepth ↔ m ≤ maxDepth - depth := by omega
  have hneeds := h.needs (maxDepth - depth)
  change step _ _ = _
  rw [step_eq]
  change Except.map _ ((Reader.block (Reader.inside (maxDepth - depth))).outcome c.rest) = _
  simp only [hneeds, hlength, hmost, hlevels]
  split <;> rfl

theorem depth_le_of_readBlock [Visiting] (h : c.readBlock = .ok (f, d)) :
    f.depth ≤ maxDepth - c.depth := by
  obtain ⟨rest, hread, -⟩ := readBlock_eq_ok_iff.mp h
  obtain ⟨used, m, hmeasured⟩ := Reader.measurable_inside _ _ _ _ hread
  -- Were the levels that are left too few, reading would have failed.
  have hle : m ≤ maxDepth - c.depth := by
    by_contra hlt
    have herror := hmeasured.needs.eq_error (Nat.not_le.mp hlt)
    cases hread.symm.trans herror
  exact hmeasured.depth.trans hle

/-- No cursor is ever deeper than the limit. What is read at one depth is read at any other to the same
form and up to the same place, in every run, as long as the delimiters open at once fit between that
depth and the limit; if they do not, nesting is too deep. So a form is never deeper than what was left. -/
theorem nesting_budget [Visiting] :
    (∀ tokens c, Reached tokens c → c.depth ≤ maxDepth) ∧
    (∀ (c : Cursor) f d, c.readBlock = .ok (f, d) → ∀ [Visiting], ∀ depth ≤ maxDepth,
      { c with depth := depth }.readBlock =
        if depth + Token.mostOpen 0 (c.rest.take (d.position - c.position)) ≤ maxDepth then
          .ok (f, { d with depth := depth })
        else .error (.nestingTooDeep maxDepth)) ∧
    ∀ (c : Cursor) f d, c.readBlock = .ok (f, d) → f.depth ≤ maxDepth - c.depth := by
  refine ⟨fun _ _ h => h.depth_le, fun c f d h => ?_, fun _ _ _ h => depth_le_of_readBlock h⟩
  obtain ⟨used, rest, m, hmeasured, rfl⟩ := measured_of_readBlock h
  exact fun _ hdepth => readBlock_of_measured hmeasured hdepth

/-- A key that is met again drops a value with two lists in it, and they count all the same. -/
theorem nesting_budget_dropped :
    let c := ofTokens ["\x7b", "k", "(", "(", ")", ")", "k", "v", "\x7d"]
    let f := Form.map [(.symbol "k", .symbol "v")]
    c.readBlock = .ok (f, { c with position := 9 }) ∧
      { c with depth := 253 }.readBlock = .ok (f, ⟨c.tokens, 9, 253⟩) ∧
      { c with depth := 254 }.readBlock = .error (.nestingTooDeep 256) ∧
      f.depth ≤ 3 ∧ ({ c with position := 9 } : Cursor).depth ≤ maxDepth := by
  intro c f
  have hread : c.readBlock = .ok (f, { c with position := 9 }) := by
    have hcall : call 40 (.form .block) c = some c.readBlock := call_eq_answer (by decide)
    exact Option.some.inj (hcall.symm.trans rfl)
  obtain ⟨hreached, hbudget, hdepth⟩ := nesting_budget
  have hdeep : { c with depth := 253 }.readBlock = .ok (f, ⟨c.tokens, 9, 253⟩) :=
    hbudget c f _ hread 253 (by decide)
  have hblock : c.read .block = .ok (f, { c with position := 9 }) := hread
  exact ⟨hread, hdeep, hbudget c f _ hread 254 (by decide), hdepth _ f _ hdeep,
    hreached c.tokens _ (.read .start hblock)⟩

end Cursor
end Sexpr
