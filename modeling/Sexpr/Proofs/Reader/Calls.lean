import Mathlib.Tactic.SplitIfs
import Sexpr.Proofs.Reader.Cursor

/-!
Reading call by call, each of which looks at the token at the cursor, moves on by one, or goes a level
deeper or back. Calls come to an end, nested no deeper than a bound in the number of tokens that are
left, and give what the readers give.
-/
namespace Sexpr

namespace Reader

variable {read : Reader} {inner : Except Error Reader} {token close : Token} {more : List Token}

theorem outcome_block_cons [Visiting] : (block inner).outcome (token :: more) =
    match BlockKind.ofToken token with
    | .statement kind => .error (.unsupported kind.word)
    | .expression => (expression inner).outcome (token :: more) := by
  rw [outcome, block]
  cases BlockKind.ofToken token <;> rfl

theorem outcome_atom_cons :
    atom.outcome (token :: more) = (Form.ofToken token).map fun f => (f, more) := by
  rw [outcome, atom]
  cases Form.ofToken token <;> rfl

/-- One turn of the loop over the items of a list or an array. -/
theorem items_step (found : List Form) : items read close found (token :: more) =
    if token = close then .ok (found.reverse, more)
    else
      match read.outcome (token :: more) with
      | .error e => .error e
      | .ok (f, rest) => items read close (f :: found) rest := by
  rw [items, outcome]
  cases read (token :: more) <;> rfl

/-- One turn of the loop over the entries of a map: a key, the test of it, and its value. -/
theorem entries_step [Visiting] (found : List Entry) : entries read found (token :: more) =
    if token = Token.closeBrace then .ok (found, more)
    else
      match read.outcome (token :: more) with
      | .error e => .error e
      | .ok (f, rest) =>
        match entryKey f rest with
        | .error e => .error e
        | .ok key =>
          match read.outcome rest with
          | .error e => .error e
          | .ok (value, rest) => entries read (Form.insertEntry key value found) rest := by
  rw [entries, outcome]
  cases read (token :: more) with
  | error e => rfl
  | ok item =>
    simp only [Except.map, outcome]
    cases entryKey item.form item.rest with
    | error e => rfl
    | ok key => cases read item.rest <;> rfl

end Reader

namespace Cursor

/-- The forms that there are readers for. -/
inductive Kind where
  | block
  | expression
  | atom
  | map
  | sequence (start close : Token)
deriving DecidableEq, Repr

/-- The reader of a kind of forms, called at a cursor. -/
def read [Visiting] (c : Cursor) : Kind → Except Error (Form × Cursor)
  | .block => c.readBlock
  | .expression => c.readExpression
  | .atom => c.readAtom
  | .map => c.readMap
  | .sequence start close => c.readSequence start close

/-- What an expression is, by its first token. Nothing begins with a closing token. -/
def Kind.ofToken? (token : Token) : Option Kind :=
  if token = Token.openParen then some (.sequence Token.openParen Token.closeParen)
  else if token = Token.openBracket then some (.sequence Token.openBracket Token.closeBracket)
  else if token = Token.openBrace then some .map
  else if Token.isCloser token then none
  else some .atom

/-- What a call is to do: to read a form, or the rest of one, after what is `found` inside it. -/
inductive Task where
  | form (kind : Kind)
  | items (start close : Token) (found : List Form)
  | entries (found : List Entry)

/-- A key is looked at before its value is. -/
def entryKey [Visiting] (key : Form) (c : Cursor) : Except Error Key :=
  match c.peek? with
  | none => .error .unbalanced
  | some token =>
    if token = Token.closeBrace then .error (.danglingKey key.shown) else key.key?

/-- Goes on with an answer, unless there is none or it is an error. -/
def andThen {α β : Type} (answer : Option (Except Error α)) (next : α → Option (Except Error β)) :
    Option (Except Error β) :=
  match answer with
  | none => none
  | some (.error e) => some (.error e)
  | some (.ok a) => next a

/-- Goes inside a form that begins with a token. -/
def enterAt (start : Token) (inside : Cursor → Option (Except Error (Form × Cursor))) (c : Cursor) :
    Option (Except Error (Form × Cursor)) :=
  if c.peek? = some start then andThen (some c.enter) fun deeper => inside deeper.advance
  else some (.error (.expected start))

/-- Calls within calls, up to so many. Where more are needed there is no answer. -/
def call [Visiting] : Nat → Task → Cursor → Option (Except Error (Form × Cursor))
  | 0, _, _ => none
  | n + 1, .form .block, c =>
    match c.peek? with
    | none => some (.error .unexpectedEnd)
    | some token =>
      match BlockKind.ofToken token with
      | .statement kind => some (.error (.unsupported kind.word))
      | .expression => call n (.form .expression) c
  | n + 1, .form .expression, c =>
    match c.peek? with
    | none => some (.error .unexpectedEnd)
    | some token =>
      match Kind.ofToken? token with
      | none => some (.error .unbalanced)
      | some kind => call n (.form kind) c
  | _ + 1, .form .atom, c =>
    match c.peek? with
    | none => some (.error .unexpectedEnd)
    | some token => some ((Form.ofToken token).map fun f => (f, c.advance))
  | n + 1, .form .map, c => enterAt Token.openBrace (call n (.entries [])) c
  | n + 1, .form (.sequence start close), c => enterAt start (call n (.items start close [])) c
  | n + 1, .items start close found, c =>
    match c.peek? with
    | none => some (.error .unbalanced)
    | some token =>
      if token = close then
        let items := found.reverse
        some (.ok (if start = Token.openParen then .list items else .array items, c.leave.advance))
      else
        andThen (call n (.form .block) c) fun (f, next) =>
          call n (.items start close (f :: found)) next
  | n + 1, .entries found, c =>
    match c.peek? with
    | none => some (.error .unbalanced)
    | some token =>
      if token = Token.closeBrace then some (.ok (.map found, c.leave.advance))
      else
        andThen (call n (.form .block) c) fun (f, next) =>
        andThen (some (next.entryKey f)) fun key =>
        andThen (call n (.form .block) next) fun (value, last) =>
          call n (.entries (Form.insertEntry key value found)) last

variable {c d : Cursor} {n : Nat} {task : Task} {kind : Kind} {f : Form} {inner : Except Error Reader}
  {token start close : Token} {more : List Token} {items : List Form} {found : List Entry}

theorem andThen_ok {α β : Type} (a : α) (next : α → Option (Except Error β)) :
    andThen (some (.ok a)) next = next a := rfl

/-- There is a final result only if there was one to go on with. -/
theorem andThen_eq_ok_iff {α β : Type} {answer : Option (Except Error α)}
    {next : α → Option (Except Error β)} {b : β} : andThen answer next = some (.ok b) ↔
      ∃ a, answer = some (.ok a) ∧ next a = some (.ok b) := by
  unfold andThen
  split <;> simp

/-! What the readers give, token by token. -/

def Kind.reader [Visiting] (inner : Except Error Reader) : Kind → Reader
  | .block => .block inner
  | .expression => .expression inner
  | .atom => .atom
  | .map => .map inner
  | .sequence start close => .sequence inner start close

/-- How many calls within calls there can be before a token is moved over. -/
def Task.rank : Task → Nat
  | .form .block => 3
  | .form .expression => 2
  | .form _ => 1
  | .items .. | .entries _ => 4

theorem rank_pos (task : Task) : 0 < task.rank := by
  cases task with
  | form kind => cases kind <;> exact Nat.succ_pos _
  | _ => exact Nat.succ_pos 3

/-- What an expression turns out to be needs one more call and then moves over a token. -/
theorem rank_of_ofToken? (h : Kind.ofToken? token = some kind) : (Task.form kind).rank = 1 := by
  unfold Kind.ofToken? at h
  split_ifs at h <;> cases h <;> rfl

/-- To go inside a form is to move over the token it begins with. -/
theorem length_rest_deeper (hpeek : c.peek? = some token) (henter : c.enter = .ok d) :
    d.advance.rest.length + 1 = c.rest.length := by
  have hrest : c.rest = token :: c.advance.rest := rest_eq_cons_iff.mpr ⟨hpeek, rfl⟩
  rw [rest_enter_advance henter, hrest, List.length_cons]

variable [Visiting]

/-- A call reads what the reader reads off the tokens that are left, and goes past them. -/
theorem read_eq (c : Cursor) (kind : Kind) :
    c.read kind = ((kind.reader c.inner).outcome c.rest).map fun r => (r.1, c.goTo r.2) := by
  have hstep : c.read kind = c.step (kind.reader c.inner) := by cases kind <;> rfl
  rw [hstep, step_eq]

/-- An expression is what its first token says. -/
theorem outcome_expression_cons : (Reader.expression inner).outcome (token :: more) =
    match Kind.ofToken? token with
    | none => .error .unbalanced
    | some kind => (kind.reader inner).outcome (token :: more) := by
  rw [Reader.outcome, Reader.expression, Kind.ofToken?]
  split_ifs <;> rfl

/-- The test of a key looks at the next token only. -/
theorem entryKey_eq (f : Form) (c : Cursor) : c.entryKey f = Reader.entryKey f c.rest := by
  rw [entryKey, Reader.entryKey.eq_def, peek?_eq]
  cases c.rest <;> rfl

/-- What a call is to find out. -/
def Task.answer : Task → Cursor → Except Error (Form × Cursor)
  | .form kind, c => c.read kind
  | .items start close found, c =>
    (Reader.items (.block c.inner) close found c.rest).map fun r =>
      (if start = Token.openParen then .list r.1 else .array r.1, (c.goTo r.2).leave)
  | .entries found, c =>
    (Reader.entries (.block c.inner) found c.rest).map fun r => (.map r.1, (c.goTo r.2).leave)

/-- To read a list or an array is to read the rest of it, with nothing found yet. -/
theorem read_sequence (hrest : c.rest = start :: more) (henter : c.enter = .ok d) :
    c.read (.sequence start close) = (Task.items start close []).answer d.advance := by
  have hmore : d.advance.rest = more :=
    (rest_enter_advance henter).trans (rest_eq_cons_iff.mp hrest).2
  rw [read_eq, inner_eq, henter, hrest, Task.answer, hmore]
  change ((Reader.sequence (.ok (.block d.inner)) start close).outcome (start :: more)).map _ = _
  rw [Reader.outcome_sequence]
  refine (map_map _ _ _).trans (map_congr_of_ok fun r hitems => ?_)
  exact congrArg (_, ·) (goTo_enter hrest henter (Nat.le_of_lt (Reader.items_shorter hitems))).symm

theorem read_map (hrest : c.rest = Token.openBrace :: more) (henter : c.enter = .ok d) :
    c.read .map = (Task.entries []).answer d.advance := by
  have hmore : d.advance.rest = more :=
    (rest_enter_advance henter).trans (rest_eq_cons_iff.mp hrest).2
  rw [read_eq, inner_eq, henter, hrest, Task.answer, hmore]
  change ((Reader.map (.ok (.block d.inner))).outcome (Token.openBrace :: more)).map _ = _
  rw [Reader.outcome_map]
  refine (map_map _ _ _).trans (map_congr_of_ok fun r hentries => ?_)
  exact congrArg (_, ·) (goTo_enter hrest henter (Nat.le_of_lt (Reader.entries_shorter hentries))).symm

/-- The rest of a list can be read from a cursor further on: where it ends is the same. -/
theorem answer_items_goTo {rest : List Token} (hrest : rest <:+ c.rest) :
    (Task.items start close items).answer (c.goTo rest) =
      (Reader.items (.block c.inner) close items rest).map fun r =>
        (if start = Token.openParen then .list r.1 else .array r.1, (c.goTo r.2).leave) := by
  rw [Task.answer, rest_goTo hrest, inner_goTo]
  refine map_congr_of_ok fun r hitems => ?_
  rw [goTo_goTo hrest (Reader.items_suffix (takesFront_block c) hitems)]

theorem answer_entries_goTo {rest : List Token} (hrest : rest <:+ c.rest) :
    (Task.entries found).answer (c.goTo rest) =
      (Reader.entries (.block c.inner) found rest).map fun r => (.map r.1, (c.goTo r.2).leave) := by
  rw [Task.answer, rest_goTo hrest, inner_goTo]
  refine map_congr_of_ok fun r hentries => ?_
  have hmore := Reader.entries_suffix (Reader.leavesBrace_block _) (takesFront_block c) hentries
  rw [goTo_goTo hrest hmore]

theorem call_block
    (hcall : call n (.form .expression) c = some (c.read .expression)) :
    call (n + 1) (.form .block) c = some (c.read .block) := by
  rw [call, hcall, peek?_eq, read_eq, read_eq, Kind.reader, Kind.reader]
  cases c.rest with
  | nil => rfl
  | cons token more =>
    rw [Reader.outcome_block_cons, List.head?_cons]
    cases hkind : BlockKind.ofToken token <;> simp only [hkind]
    rfl

theorem call_expression
    (hcall : ∀ token kind, c.peek? = some token → Kind.ofToken? token = some kind →
      call n (.form kind) c = some (c.read kind)) :
    call (n + 1) (.form .expression) c = some (c.read .expression) := by
  rw [call, read_eq, Kind.reader]
  cases hrest : c.rest with
  | nil =>
    rw [peek?_eq, hrest]
    rfl
  | cons token more =>
    have hpeek := (rest_eq_cons_iff.mp hrest).1
    rw [outcome_expression_cons, hpeek]
    cases hkind : Kind.ofToken? token with
    | none => simp only [hkind, Except.map]
    | some kind =>
      simp only [hkind]
      rw [hcall token kind hpeek hkind, read_eq, hrest]

theorem call_atom : call (n + 1) (.form .atom) c = some (c.read .atom) := by
  rw [call, peek?_eq, read_eq, Kind.reader]
  cases hrest : c.rest with
  | nil => rfl
  | cons token more =>
    rw [Reader.outcome_atom_cons, List.head?_cons]
    dsimp only
    cases Form.ofToken token with
    | error e => rfl
    | ok f => rw [Except.map, Except.map, Except.map, goTo_eq_advance hrest]

/-- To read a list, an array or a map is to go inside and to read the rest of it. -/
theorem enterAt_eq_read {inside : Task}
    (hnil : (kind.reader c.inner).outcome [] = .error (.expected start))
    (hne : ∀ token more, token ≠ start →
      (kind.reader c.inner).outcome (token :: more) = .error (.expected start))
    (herror : ∀ e more, (kind.reader (.error e)).outcome (start :: more) = .error e)
    (hread : ∀ d more, c.rest = start :: more → c.enter = .ok d →
      c.read kind = inside.answer d.advance)
    (hcall : ∀ d, c.peek? = some start → c.enter = .ok d →
      call n inside d.advance = some (inside.answer d.advance)) :
    enterAt start (call n inside) c = some (c.read kind) := by
  rw [enterAt]
  cases hrest : c.rest with
  | nil =>
    rw [peek?_eq, read_eq, hrest, hnil]
    rfl
  | cons token more =>
    have hpeek := (rest_eq_cons_iff.mp hrest).1
    by_cases ht : token = start
    · subst ht
      rw [if_pos hpeek]
      cases henter : c.enter with
      | error e =>
        rw [read_eq, inner_eq, henter, hrest]
        exact congrArg some (congrArg (Except.map _) (herror e more)).symm
      | ok d => rw [andThen_ok, hcall d hpeek henter, hread d more hrest henter]
    · rw [if_neg (by simpa [hpeek] using ht), read_eq, hrest, hne token more ht]
      rfl

theorem call_map
    (hcall : ∀ d, c.peek? = some Token.openBrace → c.enter = .ok d →
      call n (.entries []) d.advance = some ((Task.entries []).answer d.advance)) :
    call (n + 1) (.form .map) c = some (c.read .map) := by
  refine enterAt_eq_read rfl (fun token more ht => ?_) (fun _ _ => rfl)
    (fun d more hrest henter => read_map hrest henter) hcall
  simp [Kind.reader, Reader.outcome, Reader.map, ht, Except.map]

theorem call_sequence
    (hcall : ∀ d, c.peek? = some start → c.enter = .ok d →
      call n (.items start close []) d.advance = some ((Task.items start close []).answer d.advance)) :
    call (n + 1) (.form (.sequence start close)) c = some (c.read (.sequence start close)) := by
  refine enterAt_eq_read rfl (fun token more ht => ?_) (fun e more => ?_)
    (fun d more hrest henter => read_sequence hrest henter) hcall
  · simp [Kind.reader, Reader.outcome, Reader.sequence, ht, Except.map]
  · simp [Kind.reader, Reader.outcome, Reader.sequence, Except.map]

theorem call_items (hblock : call n (.form .block) c = some (c.read .block))
    (hcall : ∀ f rest, rest <:+ c.rest → rest.length < c.rest.length →
      call n (.items start close (f :: items)) (c.goTo rest) =
        some ((Task.items start close (f :: items)).answer (c.goTo rest))) :
    call (n + 1) (.items start close items) c = some ((Task.items start close items).answer c) := by
  rw [call, hblock, peek?_eq, Task.answer, read_eq, Kind.reader]
  cases hrest : c.rest with
  | nil =>
    rw [Reader.items]
    rfl
  | cons token more =>
    rw [Reader.items_step, List.head?_cons]
    dsimp only
    split
    case isTrue => rw [Except.map, goTo_eq_advance hrest]; rfl
    case isFalse =>
      cases hread : (Reader.block c.inner).outcome (token :: more) with
      | error e => rfl
      | ok r =>
        obtain ⟨f, rest⟩ := r
        have hfront := takesFront_block c _ _ _ hread
        have hshorter := Reader.outcome_shorter hread
        rw [← hrest] at hfront hshorter
        refine (hcall f rest hfront hshorter).trans ?_
        rw [answer_items_goTo hfront]

theorem call_entries
    (hblock : call n (.form .block) c = some (c.read .block))
    (hvalue : ∀ rest, rest <:+ c.rest → rest.length < c.rest.length →
      call n (.form .block) (c.goTo rest) = some ((c.goTo rest).read .block))
    (hcall : ∀ found rest, rest <:+ c.rest → rest.length < c.rest.length →
      call n (.entries found) (c.goTo rest) = some ((Task.entries found).answer (c.goTo rest))) :
    call (n + 1) (.entries found) c = some ((Task.entries found).answer c) := by
  rw [call, hblock, peek?_eq, Task.answer, read_eq, Kind.reader]
  cases hrest : c.rest with
  | nil =>
    rw [Reader.entries]
    rfl
  | cons token more =>
    rw [Reader.entries_step, List.head?_cons]
    dsimp only
    split
    case isTrue => rw [Except.map, goTo_eq_advance hrest]; rfl
    case isFalse =>
      cases hread : (Reader.block c.inner).outcome (token :: more) with
      | error e => rfl
      | ok r =>
        obtain ⟨f, rest⟩ := r
        have hfront := takesFront_block c _ _ _ hread
        have hshorter := Reader.outcome_shorter hread
        rw [← hrest] at hfront hshorter
        change andThen (some ((c.goTo rest).entryKey f)) _ = _
        rw [entryKey_eq, rest_goTo hfront]
        dsimp only
        cases Reader.entryKey f rest with
        | error e => rfl
        | ok key =>
          rw [andThen_ok, hvalue rest hfront hshorter, read_eq, rest_goTo hfront, inner_goTo, Kind.reader]
          cases hread : (Reader.block c.inner).outcome rest with
          | error e => simp [andThen, Except.map]
          | ok r =>
            obtain ⟨value, after⟩ := r
            have hafter := takesFront_block c _ _ _ hread
            have hafterShorter := (Reader.outcome_shorter hread).trans hshorter
            simp only [Except.map, andThen_ok, goTo_goTo hfront hafter]
            refine (hcall _ after (hafter.trans hfront) hafterShorter).trans ?_
            rw [answer_entries_goTo (hafter.trans hfront)]
            rfl

/-- Calls within calls are no more than four for each token that is left, and four. -/
theorem call_eq_answer (h : 4 * c.rest.length + task.rank ≤ n) :
    call n task c = some (task.answer c) := by
  induction n generalizing task c with
  | zero => exact absurd (rank_pos task) (by omega)
  | succ n ih =>
    cases task with
    | form kind =>
      cases kind with
      | block =>
        have hexpression : 4 * c.rest.length + (Task.form .expression).rank ≤ n := by
          simp only [Task.rank] at h ⊢
          omega
        exact call_block (ih hexpression)
      | expression =>
        refine call_expression fun token kind _ hkind => ih ?_
        rw [rank_of_ofToken? hkind]
        exact Nat.le_of_succ_le_succ h
      | atom => exact call_atom
      | map =>
        refine call_map fun d hpeek henter => ih ?_
        have hlength := length_rest_deeper hpeek henter
        simp only [Task.rank] at h ⊢
        omega
      | sequence start close =>
        refine call_sequence fun d hpeek henter => ih ?_
        have hlength := length_rest_deeper hpeek henter
        simp only [Task.rank] at h ⊢
        omega
    | items start close found =>
      have hblock : 4 * c.rest.length + (Task.form .block).rank ≤ n := by
        simp only [Task.rank] at h ⊢
        omega
      refine call_items (ih hblock) fun f rest hfront hshorter => ih ?_
      rw [rest_goTo hfront]
      simp only [Task.rank] at h ⊢
      omega
    | entries found =>
      have hblock : 4 * c.rest.length + (Task.form .block).rank ≤ n := by
        simp only [Task.rank] at h ⊢
        omega
      refine call_entries (ih hblock) (fun rest hfront hshorter => ?_)
        fun found rest hfront hshorter => ih ?_
      · have hvalue : 4 * (c.goTo rest).rest.length + (Task.form .block).rank ≤ n := by
          rw [rest_goTo hfront]
          simp only [Task.rank] at h ⊢
          omega
        exact ih hvalue
      · rw [rest_goTo hfront]
        simp only [Task.rank] at h ⊢
        omega

end Cursor
end Sexpr
