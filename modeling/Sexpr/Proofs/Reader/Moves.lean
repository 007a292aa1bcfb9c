import Sexpr.Proofs.Reader.Calls

/-! What a call has moved over is all that it depends on. It always moves on, and it comes back to the
depth that it began at. -/
namespace Sexpr.Cursor

variable {c d other : Cursor} {k m n : Nat} {task : Task} {kind : Kind} {f : Form}
  {result : Form × Cursor}

/-! Moving on over tokens. -/

def skip (c : Cursor) (k : Nat) : Cursor := { c with position := c.position + k }

theorem skip_skip (c : Cursor) (k m : Nat) : (c.skip k).skip m = c.skip (k + m) := by
  simp [skip, Nat.add_assoc]

/-- The same tokens ahead, so many of them, at the same depth. -/
def Agrees (k : Nat) (c other : Cursor) : Prop :=
  other.depth = c.depth ∧
    ∀ i < k, other.tokens[other.position + i]? = c.tokens[c.position + i]?

theorem Agrees.peek?_eq (h : Agrees k c other) (hk : 0 < k) : other.peek? = c.peek? := h.2 0 hk

theorem Agrees.left (h : Agrees (k + m) c other) : Agrees k c other :=
  ⟨h.1, fun i hi => h.2 i (by omega)⟩

theorem Agrees.right (h : Agrees (k + m) c other) : Agrees m (c.skip k) (other.skip k) := by
  refine ⟨h.1, fun i hi => ?_⟩
  simpa only [skip, Nat.add_assoc] using h.2 (k + i) (by omega)

/-- One token on and one level deeper. -/
theorem Agrees.deeper (h : Agrees (1 + k) c other) (hc : c.enter = .ok d) :
    ∃ e, other.enter = .ok e ∧ Agrees k d.advance e.advance ∧
      ∀ m, (e.advance.skip m).leave = other.skip (1 + m) := by
  obtain ⟨hlt, rfl⟩ := enter_eq_ok_iff.mp hc
  refine ⟨_, enter_eq_ok_iff.mpr ⟨h.1 ▸ hlt, rfl⟩, ?_, fun m => ?_⟩
  · exact ⟨congrArg (· + 1) h.1, h.right.2⟩
  · simp [skip, advance, leave, Nat.add_assoc]

theorem lt_length_of_peek? {token : Token} (h : c.peek? = some token) :
    c.position < c.tokens.length := (List.getElem?_eq_some_iff.mp h).1

theorem exists_inside {start : Token} {inside : Cursor → Option (Except Error (Form × Cursor))}
    (h : enterAt start inside c = some (.ok result)) :
    ∃ d, c.peek? = some start ∧ c.enter = .ok d ∧ inside d.advance = some (.ok result) := by
  unfold enterAt at h
  split at h
  case isTrue hpeek =>
    obtain ⟨d, hd, h⟩ := andThen_eq_ok_iff.mp h
    exact ⟨d, hpeek, Option.some.inj hd, h⟩
  case isFalse => cases h

/-- Where a call has moved to: the rest of a form ends a level less deep than it began. -/
def Task.back : Task → Cursor → Cursor
  | .form _, c => c
  | .items .., c | .entries _, c => c.leave

theorem agrees_of_take (hdepth : other.depth = c.depth)
    (hrest : other.rest.take k = c.rest.take k) : Agrees k c other := by
  refine ⟨hdepth, fun i hi => ?_⟩
  have hat := congrArg (·[i]?) hrest
  simpa [rest, List.getElem?_take, hi] using hat

/-- A call has moved on over so many tokens, as it does wherever they stand ahead, in every run. -/
structure Moves (n : Nat) (task : Task) (c : Cursor) (result : Form × Cursor) (k : Nat) : Prop where
  pos : 0 < k
  within : c.position + k ≤ c.tokens.length
  cursor : result.2 = task.back (c.skip k)
  elsewhere : ∀ [Visiting] other, Agrees k c other →
    call n task other = some (.ok (result.1, task.back (other.skip k)))

theorem Moves.block (h : Moves n (.form .expression) c result k) {token : Token}
    (hpeek : c.peek? = some token) (hkind : BlockKind.ofToken token = .expression) :
    Moves (n + 1) (.form .block) c result k where
  pos := h.pos
  within := h.within
  cursor := h.cursor
  elsewhere other hother := by
    rw [call, hother.peek?_eq h.pos, hpeek]
    simp only [hkind]
    exact h.elsewhere other hother

theorem Moves.expression (h : Moves n (.form kind) c result k) {token : Token}
    (hpeek : c.peek? = some token) (hkind : Kind.ofToken? token = some kind) :
    Moves (n + 1) (.form .expression) c result k where
  pos := h.pos
  within := h.within
  cursor := h.cursor
  elsewhere other hother := by
    rw [call, hother.peek?_eq h.pos, hpeek]
    simp only [hkind]
    exact h.elsewhere other hother

theorem moves_atom {token : Token} (hpeek : c.peek? = some token)
    (hf : Form.ofToken token = .ok f) : Moves (n + 1) (.form .atom) c (f, c.advance) 1 where
  pos := Nat.one_pos
  within := lt_length_of_peek? hpeek
  cursor := rfl
  elsewhere other hother := by
    rw [call, hother.peek?_eq Nat.one_pos, hpeek]
    simp only [hf]
    rfl

/-- What is read inside a form begins one token later and one level deeper, and ends a level less deep
again. -/
theorem Moves.inside {start : Token} {inside : Task}
    (hcall : ∀ [Visiting] c, call (n + 1) (.form kind) c = enterAt start (call n inside) c)
    (hback : ∀ c, inside.back c = c.leave) (hpeek : c.peek? = some start) (hc : c.enter = .ok d)
    (h : Moves n inside d.advance result k) : Moves (n + 1) (.form kind) c result (1 + k) where
  pos := by omega
  within := by
    obtain ⟨-, rfl⟩ := enter_eq_ok_iff.mp hc
    have hwithin := h.within
    simp only [advance] at hwithin
    omega
  cursor := by
    have hself : Agrees (1 + k) c c := ⟨rfl, fun _ _ => rfl⟩
    obtain ⟨e, he, -, hskip⟩ := hself.deeper hc
    cases hc.symm.trans he
    rw [h.cursor, hback, hskip]
    rfl
  elsewhere other hother := by
    obtain ⟨e, he, hagrees, hskip⟩ := hother.deeper hc
    have hstart : other.peek? = some start := (hother.peek?_eq (by omega)).trans hpeek
    rw [hcall, enterAt, if_pos hstart, he, andThen_ok, h.elsewhere _ hagrees, hback, hskip]
    rfl

theorem moves_close {start close : Token} {found : List Form} (hpeek : c.peek? = some close) :
    Moves (n + 1) (.items start close found) c
      (if start = Token.openParen then .list found.reverse else .array found.reverse,
        c.leave.advance) 1 where
  pos := Nat.one_pos
  within := lt_length_of_peek? hpeek
  cursor := rfl
  elsewhere other hother := by
    rw [call, hother.peek?_eq Nat.one_pos, hpeek]
    exact if_pos rfl

theorem moves_closeBrace {found : List Entry} (hpeek : c.peek? = some Token.closeBrace) :
    Moves (n + 1) (.entries found) c (.map found, c.leave.advance) 1 where
  pos := Nat.one_pos
  within := lt_length_of_peek? hpeek
  cursor := rfl
  elsewhere other hother := by
    rw [call, hother.peek?_eq Nat.one_pos, hpeek]
    exact if_pos rfl

theorem Moves.item {start close token : Token} {found : List Form} (hpeek : c.peek? = some token)
    (hne : token ≠ close) (hblock : Moves n (.form .block) c (f, d) k)
    (hrest : Moves n (.items start close (f :: found)) d result m) :
    Moves (n + 1) (.items start close found) c result (k + m) := by
  obtain rfl : d = c.skip k := hblock.cursor
  refine ⟨Nat.add_pos_left hblock.pos m, ?_, ?_, fun other hother => ?_⟩
  · exact Nat.add_assoc _ _ _ ▸ hrest.within
  · rw [hrest.cursor, skip_skip]
    rfl
  · rw [call, hother.peek?_eq (Nat.add_pos_left hblock.pos m), hpeek]
    simp only [if_neg hne]
    rw [hblock.elsewhere other hother.left, andThen_ok]
    refine (hrest.elsewhere _ hother.right).trans ?_
    rw [skip_skip]
    rfl

/-- A key is taken in every run, or in none. -/
theorem entryKey_eq_ok_iff [Visiting] {key : Form} {known : Key} : c.entryKey key = .ok known ↔
    (∃ token, c.peek? = some token ∧ token ≠ Token.closeBrace) ∧ key.key? = .ok known := by
  rw [entryKey]
  cases c.peek? with
  | none => simp
  | some token => by_cases h : token = Token.closeBrace <;> simp [h]

theorem Moves.entry [Visiting] {token : Token} {found : List Entry} {key value : Form} {known : Key}
    {next last : Cursor} {l : Nat} (hpeek : c.peek? = some token) (hne : token ≠ Token.closeBrace)
    (hkey : Moves n (.form .block) c (key, next) k) (hknown : next.entryKey key = .ok known)
    (hvalue : Moves n (.form .block) next (value, last) l)
    (hrest : Moves n (.entries (Form.insertEntry known value found)) last result m) :
    Moves (n + 1) (.entries found) c result (k + (l + m)) := by
  obtain rfl : next = c.skip k := hkey.cursor
  obtain rfl : last = (c.skip k).skip l := hvalue.cursor
  have htaken := entryKey_eq_ok_iff.mp hknown
  refine ⟨Nat.add_pos_left hkey.pos _, ?_, ?_, fun other hother => ?_⟩
  · simpa only [skip, Nat.add_assoc] using hrest.within
  · rw [hrest.cursor, skip_skip, skip_skip]
    rfl
  · have hnext := hother.right
    have hsame : ∀ [Visiting], (other.skip k).entryKey key = .ok known := by
      intro _
      rw [entryKey_eq_ok_iff, hnext.peek?_eq (Nat.add_pos_left hvalue.pos m)]
      exact htaken
    rw [call, hother.peek?_eq (Nat.add_pos_left hkey.pos _), hpeek]
    simp only [if_neg hne]
    simp only [hkey.elsewhere other hother.left, andThen_ok, Task.back, hsame,
      hvalue.elsewhere _ hnext.left]
    refine (hrest.elsewhere _ hnext.right).trans ?_
    rw [skip_skip, skip_skip]
    rfl

/-! What has come before when a call succeeds. -/

theorem items_cases [Visiting] {start close : Token} {found : List Form}
    (h : call (n + 1) (.items start close found) c = some (.ok result)) :
    (c.peek? = some close ∧
      result = (if start = Token.openParen then .list found.reverse else .array found.reverse,
        c.leave.advance)) ∨
    ∃ token f d, c.peek? = some token ∧ token ≠ close ∧
      call n (.form .block) c = some (.ok (f, d)) ∧
      call n (.items start close (f :: found)) d = some (.ok result) := by
  rw [call] at h
  split at h
  case h_1 => cases h
  case h_2 token hpeek =>
    split at h
    case isTrue heq =>
      cases h
      exact .inl ⟨heq ▸ hpeek, rfl⟩
    case isFalse hne =>
      obtain ⟨⟨f, d⟩, hblock, hrest⟩ := andThen_eq_ok_iff.mp h
      exact .inr ⟨token, f, d, hpeek, hne, hblock, hrest⟩

theorem entries_cases [Visiting] {found : List Entry}
    (h : call (n + 1) (.entries found) c = some (.ok result)) :
    (c.peek? = some Token.closeBrace ∧ result = (.map found, c.leave.advance)) ∨
    ∃ token key next known value last, c.peek? = some token ∧ token ≠ Token.closeBrace ∧
      call n (.form .block) c = some (.ok (key, next)) ∧ next.entryKey key = .ok known ∧
      call n (.form .block) next = some (.ok (value, last)) ∧
      call n (.entries (Form.insertEntry known value found)) last = some (.ok result) := by
  rw [call] at h
  split at h
  case h_1 => cases h
  case h_2 token hpeek =>
    split at h
    case isTrue heq =>
      cases h
      exact .inl ⟨heq ▸ hpeek, rfl⟩
    case isFalse hne =>
      obtain ⟨⟨key, next⟩, hkey, h⟩ := andThen_eq_ok_iff.mp h
      obtain ⟨known, hknown, h⟩ := andThen_eq_ok_iff.mp h
      obtain ⟨⟨value, last⟩, hvalue, hrest⟩ := andThen_eq_ok_iff.mp h
      exact .inr ⟨token, key, next, known, value, last, hpeek, hne, hkey, Option.some.inj hknown,
        hvalue, hrest⟩

/-- Induction on how deep calls go. Each moves on by what the calls in it move on. -/
theorem exists_moves [Visiting] (h : call n task c = some (.ok result)) :
    ∃ k, Moves n task c result k := by
  induction n generalizing task c result with
  | zero => cases h
  | succ n ih =>
    cases task with
    | form kind =>
      cases kind with
      | block =>
        rw [call] at h
        split at h
        case h_1 => cases h
        case h_2 token hpeek =>
          split at h
          case h_1 => cases h
          case h_2 hkind =>
            obtain ⟨k, hmoves⟩ := ih h
            exact ⟨k, hmoves.block hpeek hkind⟩
      | expression =>
        rw [call] at h
        split at h
        case h_1 => cases h
        case h_2 token hpeek =>
          split at h
          case h_1 => cases h
          case h_2 kind hkind =>
            obtain ⟨k, hmoves⟩ := ih h
            exact ⟨k, hmoves.expression hpeek hkind⟩
      | atom =>
        rw [call] at h
        split at h
        case h_1 => cases h
        case h_2 token hpeek =>
          obtain ⟨f, hf, rfl⟩ := exists_of_map_eq_ok (Option.some.inj h)
          exact ⟨1, moves_atom hpeek hf⟩
      | map =>
        obtain ⟨d, hpeek, hd, h⟩ := exists_inside h
        obtain ⟨k, hmoves⟩ := ih h
        exact ⟨1 + k, hmoves.inside (fun _ => rfl) (fun _ => rfl) hpeek hd⟩
      | sequence start close =>
        obtain ⟨d, hpeek, hd, h⟩ := exists_inside h
        obtain ⟨k, hmoves⟩ := ih h
        exact ⟨1 + k, hmoves.inside (fun _ => rfl) (fun _ => rfl) hpeek hd⟩
    | items start close found =>
      rcases items_cases h with ⟨hpeek, rfl⟩ | ⟨token, f, d, hpeek, hne, hblock, hrest⟩
      · exact ⟨1, moves_close hpeek⟩
      · obtain ⟨k, hblock⟩ := ih hblock
        obtain ⟨m, hrest⟩ := ih hrest
        exact ⟨k + m, hblock.item hpeek hne hrest⟩
    | entries found =>
      rcases entries_cases h with
        ⟨hpeek, rfl⟩ | ⟨token, key, next, known, value, last, hpeek, hne, hkey, hknown, hvalue, hrest⟩
      · exact ⟨1, moves_closeBrace hpeek⟩
      · obtain ⟨k, hkey⟩ := ih hkey
        obtain ⟨l, hvalue⟩ := ih hvalue
        obtain ⟨m, hrest⟩ := ih hrest
        exact ⟨k + (l + m), hkey.entry hpeek hne hknown hvalue hrest⟩

theorem call_eq_read [Visiting] (h : 4 * c.rest.length + 4 ≤ n) :
    call n (.form kind) c = some (c.read kind) :=
  call_eq_answer (Nat.le_trans (by cases kind <;> simp [Task.rank]) h)

theorem moves_of_read [Visiting] (h : c.read kind = .ok result) (hn : 4 * c.rest.length + 4 ≤ n) :
    ∃ k, Moves n (.form kind) c result k := by
  refine exists_moves ?_
  rw [call_eq_read hn, h]

theorem moves_skip_of_read [Visiting] (h : c.read kind = .ok (f, c.skip k))
    (hn : 4 * c.rest.length + 4 ≤ n) : Moves n (.form kind) c (f, c.skip k) k := by
  obtain ⟨m, hmoves⟩ := moves_of_read h hn
  have hcursor := congrArg Cursor.position hmoves.cursor
  obtain rfl : k = m := Nat.add_left_cancel hcursor
  exact hmoves

/-- What has been read is read again wherever the tokens stand, with calls deep enough for it there. -/
theorem Moves.read_eq [Visiting] (h : Moves n (.form kind) c (f, d) k) (hother : Agrees k c other)
    (hn : 4 * other.rest.length + 4 ≤ n) : other.read kind = .ok (f, other.skip k) := by
  have hcall := h.elsewhere other hother
  rw [call_eq_read hn] at hcall
  exact Option.some.inj hcall

/-- Wherever one begins, whatever the tokens are: to read a form comes to an end. It moves on, over
tokens that there are, back to the depth that it began at, and gives the same over the same tokens at
the same depth, whatever stands before them and after them, in this run and in any other. -/
theorem read_progress_locality [Visiting] (kind : Kind) (c : Cursor) :
    (∀ n, 4 * c.rest.length + 4 ≤ n → call n (.form kind) c = some (c.read kind)) ∧
    ∀ f d, c.read kind = .ok (f, d) →
      d.tokens = c.tokens ∧ d.depth = c.depth ∧ c.position < d.position ∧
      d.position ≤ c.tokens.length ∧
      ∀ [Visiting] (other : Cursor), other.depth = c.depth →
        other.rest.take (d.position - c.position) = c.rest.take (d.position - c.position) →
        other.read kind =
          .ok (f, { other with position := other.position + (d.position - c.position) }) := by
  refine ⟨fun n hn => call_eq_read hn, fun f d h => ?_⟩
  obtain ⟨k, hmoves⟩ := moves_of_read h le_rfl
  obtain rfl : d = c.skip k := hmoves.cursor
  have hlength : (c.skip k).position - c.position = k := Nat.add_sub_cancel_left ..
  have hdeep : ∀ n, 4 * c.rest.length + 4 ≤ n → Moves n (.form kind) c (f, c.skip k) k :=
    fun _ hn => moves_skip_of_read h hn
  rw [hlength]
  refine ⟨rfl, rfl, Nat.lt_add_of_pos_right hmoves.pos, hmoves.within, fun other hdepth hrest => ?_⟩
  -- Calls that are nested deep enough for both.
  have hboth := hdeep (4 * c.rest.length + 4 * other.rest.length + 4) (by omega)
  exact hboth.read_eq (agrees_of_take hdepth hrest) (by omega)

/-- Two lists, one in the other, between other tokens than those they were first read among. -/
theorem read_progress_locality_lists :
    let c := ofTokens ["(", "(", "x", ")", ")", "y"]
    let other : Cursor := ⟨["z", "(", "(", "x", ")", ")"], 1, 0⟩
    let f := Form.list [.list [.symbol "x"]]
    c.read .block = .ok (f, { c with position := 5 }) ∧
      other.read .block = .ok (f, { other with position := 6 }) := by
  intro c other f
  obtain ⟨hends, hmoves⟩ := read_progress_locality .block c
  have hread : c.read .block = .ok (f, { c with position := 5 }) :=
    Option.some.inj ((hends 28 (by decide)).symm.trans rfl)
  obtain ⟨-, -, -, -, hother⟩ := hmoves _ _ hread
  exact ⟨hread, hother other rfl rfl⟩

end Sexpr.Cursor
