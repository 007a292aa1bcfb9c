import Mathlib.Tactic.SplitIfs
import Sexpr.Proofs.Reader.Machine
import Sexpr.Proofs.Reader.Outcome

/-! The recursive readers and the machine agree on every list of tokens: the same forms, or the same
error. -/
namespace Sexpr

namespace Reader

theorem outcome_atom [Visiting] {inner : Except Error Reader} {token : Token}
    (hc : Token.isCloser token = false) (ho : Frame.opened? token = none) (rest : List Token) :
    (expression inner).outcome (token :: rest) = (Form.ofToken token).map (·, rest) := by
  unfold Frame.opened? at ho
  split_ifs at ho with hp hb hm
  simp only [outcome, expression, hp, hb, hm, hc, if_false, Bool.false_eq_true, atom]
  cases Form.ofToken token <;> rfl

/-- Whatever is read may be a key. -/
def Keyable (read : Reader) : Prop :=
  ∀ tokens f rest, read.outcome tokens = .ok (f, rest) → f.isKeyable = true

theorem inside_keyable [Visiting] (levels : Nat) (read : Reader) (h : inside levels = .ok read) :
    read.Keyable := fun tokens f rest hread =>
  ((hereditary_sound.obeys_inside levels read h).2 tokens f rest hread).2

end Reader

namespace Machine

variable {m : Machine} {token : Token} {frames : List Frame} {found : List Form}

theorem take_statement {kind : Statement} (h : Statement.ofToken? token = some kind) :
    m.take token = .error (.unsupported kind.word) := by
  simp [take, h]

theorem take_closer (hs : Statement.ofToken? token = none) (hc : Token.isCloser token = true) :
    m.take token = .error .unbalanced := by
  simp [take, hs, hc]

theorem take_atom (hs : Statement.ofToken? token = none) (hc : Token.isCloser token = false)
    (ho : Frame.opened? token = none) :
    m.take token = (Form.ofToken token).map m.deliver := by
  simp only [take, hs, hc, ho, Bool.false_eq_true, if_false]
  cases Form.ofToken token <;> rfl

theorem opened_cases {frame : Frame} (h : Frame.opened? token = some frame) :
    (token = Token.openParen ∧ frame = .list []) ∨
      (token = Token.openBracket ∧ frame = .array []) ∨
      (token = Token.openBrace ∧ frame = .map [] none) := by
  unfold Frame.opened? at h
  split_ifs at h with hp hb hm
  · cases h; exact Or.inl ⟨hp, rfl⟩
  · cases h; exact Or.inr (Or.inl ⟨hb, rfl⟩)
  · cases h; exact Or.inr (Or.inr ⟨hm, rfl⟩)

theorem isCloser_of_opened {frame : Frame} (ho : Frame.opened? token = some frame) :
    Token.isCloser token = false := by
  rcases opened_cases ho with ⟨rfl, -⟩ | ⟨rfl, -⟩ | ⟨rfl, -⟩ <;> rfl

theorem take_opened_of_lt {frame : Frame} (hs : Statement.ofToken? token = none)
    (ho : Frame.opened? token = some frame) (hm : m.frames.length < maxDepth) :
    m.take token = .ok { m with frames := frame :: m.frames } := by
  simp [take, hs, isCloser_of_opened ho, ho, Nat.not_le.mpr hm]

theorem take_opened_of_le {frame : Frame} (hs : Statement.ofToken? token = none)
    (ho : Frame.opened? token = some frame) (hm : maxDepth ≤ m.frames.length) :
    m.take token = .error (.nestingTooDeep maxDepth) := by
  simp [take, hs, isCloser_of_opened ho, ho, hm]

variable [Visiting]

/-- What becomes of a machine when a reader has read one form for it. -/
def after (m : Machine) : Except Error (Form × List Token) → Except Error (List Form)
  | .error e => .error e
  | .ok (f, rest) => (m.deliver f).finish rest

/-- With so many forms open, the machine does what the reader of one form does. -/
def Simulates (depth : Nat) (read : Reader) : Prop :=
  ∀ (m : Machine) (token : Token) (rest : List Token), m.frames.length = depth →
    ¬ m.closes token → m.finish (token :: rest) = m.after (read.outcome (token :: rest))

theorem finish_cons (rest : List Token) :
    m.finish (token :: rest) =
      match m.step token with
      | .error e => .error e
      | .ok m => m.finish rest := by
  rw [finish, run]
  cases m.step token <;> rfl

/-- A token that does not close the innermost form is taken as the beginning of another, or refused. -/
theorem step_eq_take (h : ¬ m.closes token) : m.step token = m.take token := by
  obtain ⟨_ | ⟨frame, frames⟩, found⟩ := m
  · rfl
  · have hne : token ≠ frame.closer := fun he => h ⟨frame, rfl, he⟩
    simp [step, hne]

theorem step_closer (frame : Frame) :
    step ⟨frame :: frames, found⟩ frame.closer =
      match frame.close with
      | .error e => .error e
      | .ok form => .ok (deliver form ⟨frames, found⟩) := by
  exact if_pos rfl

/-- Items of a list or an array are read up to its closing token and then handed on as one. -/
theorem finish_items {read : Reader} {depth : Nat} (hr : Simulates (depth + 1) read)
    (frame : List Form → Frame) {form : List Form → Form} {close : Token}
    (hcloser : ∀ items, (frame items).closer = close)
    (hclose : ∀ items, (frame items).close = .ok (form items.reverse))
    (hadd : ∀ f items, (frame items).add f = frame (f :: items))
    (hd : frames.length = depth) (items : List Form) (tokens : List Token) :
    finish ⟨frame items :: frames, found⟩ tokens =
      after ⟨frames, found⟩
        ((Reader.items read close items tokens).map fun r => (form r.1, r.2)) := by
  fun_induction Reader.items read close items tokens with
  | case1 => rfl
  | case2 items rest =>
    rw [finish_cons, ← hcloser items, step_closer, hclose]
    rfl
  | case3 items token rest hne e he =>
    rw [hr _ _ _ (by simp [hd]) (by simpa [closes, hcloser] using hne), Reader.outcome_error he]
    rfl
  | case4 items token rest hne item hi ih =>
    rw [hr _ _ _ (by simp [hd]) (by simpa [closes, hcloser] using hne), Reader.outcome_ok hi,
      ← ih, after, deliver, hadd]

/-- After a key that has passed its test the next form is its value. -/
theorem finish_value {read : Reader} {depth : Nat} (hr : Simulates (depth + 1) read)
    (hd : frames.length = depth) {es : List Entry} {f : Form} {key : Key} {rest : List Token}
    (hkey : Reader.entryKey f rest = .ok key) :
    finish ⟨(Frame.map es none).add f :: frames, found⟩ rest =
      after ⟨.map es (some f) :: frames, found⟩ (read.outcome rest) := by
  obtain ⟨-, token, tokens, rfl, hne⟩ := Reader.entryKey_ok hkey
  exact hr _ _ _ (by simp [hd]) (by simpa [closes, Frame.closer, Frame.add] using hne)

/-- The same for the entries of a map. No key is refused, since every form that is read may be
one. -/
theorem finish_entries {read : Reader} {depth : Nat} (hr : Simulates (depth + 1) read)
    (hk : read.Keyable) (hd : frames.length = depth) (es : List Entry) (tokens : List Token) :
    finish ⟨.map es none :: frames, found⟩ tokens =
      after ⟨frames, found⟩
        ((Reader.entries read es tokens).map fun r => (Form.map r.1, r.2)) := by
  fun_induction Reader.entries read es tokens with
  | case1 => rfl
  | case2 es rest =>
    rw [finish_cons]
    rfl
  | case3 es token rest hne e he =>
    rw [hr _ _ _ (by simp [hd]) (by simpa [closes, Frame.closer] using hne),
      Reader.outcome_error he]
    rfl
  | case4 es token rest hne item hi e he =>
    rw [hr _ _ _ (by simp [hd]) (by simpa [closes, Frame.closer] using hne), Reader.outcome_ok hi]
    have hf := hk _ _ _ (Reader.outcome_ok hi)
    rcases Reader.entryKey_error hf he with ⟨hrest, rfl⟩ | ⟨tokens, hrest, rfl⟩
    · rw [after, hrest]
      rfl
    · rw [after, hrest, finish_cons]
      rfl
  | case5 es token rest hne item hi key hkey e he =>
    rw [hr _ _ _ (by simp [hd]) (by simpa [closes, Frame.closer] using hne), Reader.outcome_ok hi,
      after, deliver, finish_value hr hd hkey, Reader.outcome_error he]
    rfl
  | case6 es token rest hne item hi key hkey value hv ih =>
    rw [hr _ _ _ (by simp [hd]) (by simpa [closes, Frame.closer] using hne), Reader.outcome_ok hi,
      ← ih, after, deliver, finish_value hr hd hkey, Reader.outcome_ok hv, after, deliver,
      Form.insertEntry, (Reader.entryKey_ok hkey).1]
    rfl

theorem finish_of_take_error {e : Error} (hc : ¬ m.closes token) (h : m.take token = .error e)
    (rest : List Token) : m.finish (token :: rest) = .error e := by
  rw [finish_cons, step_eq_take hc, h]

theorem finish_of_take_ok {m' : Machine} (hc : ¬ m.closes token) (h : m.take token = .ok m')
    (rest : List Token) : m.finish (token :: rest) = m'.finish rest := by
  rw [finish_cons, step_eq_take hc, h]

/-- A reader of blocks is simulated as soon as the readers of lists, arrays and maps in it are. -/
theorem simulates_block {inner : Except Error Reader} {depth : Nat}
    (hopen : ∀ (m : Machine) (token : Token) (rest : List Token) (frame : Frame),
      m.frames.length = depth → ¬ m.closes token → Statement.ofToken? token = none →
      Frame.opened? token = some frame →
      m.finish (token :: rest) = m.after ((Reader.expression inner).outcome (token :: rest))) :
    Simulates depth (Reader.block inner) := by
  intro m token rest hm hc
  cases hs : Statement.ofToken? token with
  | some kind =>
    rw [finish_of_take_error hc (take_statement hs), Reader.outcome_statement hs]
    rfl
  | none =>
    rw [Reader.outcome_block hs]
    cases ho : Frame.opened? token with
    | some frame => exact hopen m token rest frame hm hc hs ho
    | none =>
      cases hl : Token.isCloser token with
      | true =>
        rw [finish_of_take_error hc (take_closer hs hl), Reader.outcome_closer hl]
        rfl
      | false =>
        have ht := take_atom (m := m) hs hl ho
        rw [Reader.outcome_atom hl ho]
        cases ha : Form.ofToken token with
        | error e =>
          rw [ha] at ht
          exact finish_of_take_error hc ht rest
        | ok f =>
          rw [ha] at ht
          exact finish_of_take_ok hc ht rest

theorem simulates_inside (levels depth : Nat) (hd : depth + levels = maxDepth) :
    Simulates depth (Reader.block (Reader.inside levels)) := by
  induction levels generalizing depth with
  | zero =>
    apply simulates_block
    intro m token rest frame hm hc hs ho
    rw [finish_of_take_error hc (take_opened_of_le hs ho (by omega))]
    rcases opened_cases ho with ⟨rfl, -⟩ | ⟨rfl, -⟩ | ⟨rfl, -⟩ <;> rfl
  | succ levels ih =>
    have hr := ih (depth + 1) (by omega)
    have hk := Reader.inside_keyable (levels + 1) _ rfl
    apply simulates_block
    intro m token rest frame hm hc hs ho
    rw [finish_of_take_ok hc (take_opened_of_lt hs ho (by omega))]
    rcases opened_cases ho with ⟨rfl, rfl⟩ | ⟨rfl, rfl⟩ | ⟨rfl, rfl⟩
    · rw [Reader.outcome_paren, Reader.inside, Reader.outcome_sequence]
      exact finish_items hr .list (fun _ => rfl) (fun _ => rfl) (fun _ _ => rfl) hm [] rest
    · rw [Reader.outcome_bracket, Reader.inside, Reader.outcome_sequence]
      exact finish_items hr .array (fun _ => rfl) (fun _ => rfl) (fun _ _ => rfl) hm [] rest
    · rw [Reader.outcome_brace, Reader.inside, Reader.outcome_map]
      exact finish_entries hr hk hm [] rest

theorem finish_forms {read : Reader} (hr : Simulates 0 read) (found : List Form)
    (tokens : List Token) : finish ⟨[], found⟩ tokens = Reader.forms read found tokens := by
  fun_induction Reader.forms read found tokens with
  | case1 => rfl
  | case2 found token rest e he =>
    rw [hr ⟨[], found⟩ token rest rfl (by simp [closes]), Reader.outcome_error he]
    rfl
  | case3 found token rest item hi ih =>
    rw [hr ⟨[], found⟩ token rest rfl (by simp [closes]), Reader.outcome_ok hi, ← ih]
    rfl

end Machine

variable [Visiting]

theorem readTokens_eq_ok_iff {tokens : List Token} {fs : List Form} :
    readTokens tokens = .ok fs ↔ Machine.start.run tokens = .ok ⟨[], fs.reverse⟩ := by
  have h := Machine.finish_forms (Machine.simulates_inside maxDepth 0 (by omega)) [] tokens
  change Machine.start.finish tokens = readTokens tokens at h
  rw [← h, Machine.finish]
  cases hm : Machine.start.run tokens with
  | error e => simp
  | ok m =>
    obtain ⟨_ | ⟨frame, frames⟩, found⟩ := m
    · simp [Machine.result, List.reverse_eq_iff]
    · simp [Machine.result]

/-- Recursion and the stack give the same forms or the same error. -/
theorem readTokens_eq_machine (tokens : List Token) : readTokens tokens = Machine.read tokens :=
  (Machine.finish_forms (Machine.simulates_inside maxDepth 0 (by omega)) [] tokens).symm

end Sexpr
