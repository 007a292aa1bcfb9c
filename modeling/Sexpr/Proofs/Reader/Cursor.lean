import Sexpr.Cursor
import Sexpr.Proofs.Form.Building
import Sexpr.Proofs.Reader.Outcome

/-! Cursors move over what the readers take off the front. So reading a map is reading keys and values
in turn, up to the closing brace. -/
namespace Sexpr.Cursor

variable {c d last : Cursor} {read : Reader} {f : Form} {rest : List Token} {es : List Entry}

/-- The cursor moved on to where some tokens are left. -/
def goTo (c : Cursor) (rest : List Token) : Cursor :=
  { c with position := c.position + (c.rest.length - rest.length) }

theorem goTo_self (c : Cursor) : c.goTo c.rest = c := by
  simp [goTo]

theorem rest_goTo (h : rest <:+ c.rest) : (c.goTo rest).rest = rest := by
  have hdrop := List.suffix_iff_eq_drop.mp h
  simp only [Cursor.rest, goTo, List.drop_drop] at hdrop ⊢
  exact hdrop.symm

theorem goTo_goTo {more : List Token} (h : rest <:+ c.rest) (hmore : more <:+ rest) :
    (c.goTo rest).goTo more = c.goTo more := by
  have hrest := rest_goTo h
  have hle := h.length_le
  have hle' := hmore.length_le
  rw [goTo, hrest]
  simp only [goTo, Cursor.mk.injEq, true_and, and_true]
  omega

theorem goTo_eq_advance {token : Token} (h : c.rest = token :: rest) : c.goTo rest = c.advance := by
  simp [goTo, advance, h]

theorem step_eq (c : Cursor) (read : Reader) :
    c.step read = (read.outcome c.rest).map fun r => (r.1, c.goTo r.2) := by
  rw [step, Reader.outcome]
  cases read c.rest <;> rfl

theorem step_eq_ok_iff : c.step read = .ok (f, d) ↔
    ∃ rest, read.outcome c.rest = .ok (f, rest) ∧ d = c.goTo rest := by
  rw [step_eq]
  constructor
  · intro h
    obtain ⟨⟨g, rest⟩, hread, heq⟩ := exists_of_map_eq_ok h
    cases heq
    exact ⟨rest, hread, rfl⟩
  · rintro ⟨rest, hread, rfl⟩
    rw [hread]
    rfl

theorem peek?_eq (c : Cursor) : c.peek? = c.rest.head? := by
  rw [peek?, rest, List.head?_drop]

theorem rest_advance (c : Cursor) : c.advance.rest = c.rest.tail := by
  rw [rest, rest, advance, List.tail_drop]

theorem rest_eq_cons_iff {t : Token} :
    c.rest = t :: rest ↔ c.peek? = some t ∧ c.advance.rest = rest := by
  rw [peek?_eq, rest_advance]
  cases c.rest with
  | nil => simp
  | cons s more => simp

theorem enter_eq_ok_iff : c.enter = .ok d ↔
    c.depth < maxDepth ∧ d = { c with depth := c.depth + 1 } := by
  unfold enter
  by_cases h : maxDepth ≤ c.depth
  · simp [h]
  · simp [h, Nat.not_le.mp h, eq_comm]

theorem rest_enter_advance (h : c.enter = .ok d) : d.advance.rest = c.advance.rest := by
  obtain ⟨-, rfl⟩ := enter_eq_ok_iff.mp h
  rfl

/-- To move on from inside a form and to leave it is to have moved on from before it. -/
theorem goTo_enter {token : Token} {more : List Token} (hrest : c.rest = token :: more)
    (henter : c.enter = .ok d) (hle : rest.length ≤ more.length) :
    (d.advance.goTo rest).leave = c.goTo rest := by
  have hmore : d.advance.rest = more :=
    (rest_enter_advance henter).trans (rest_eq_cons_iff.mp hrest).2
  obtain ⟨-, rfl⟩ := enter_eq_ok_iff.mp henter
  rw [goTo, goTo, hmore, hrest]
  simp only [List.length_cons, leave, advance, Nat.add_sub_cancel, Cursor.mk.injEq, true_and, and_true]
  omega

/-- Past the closing brace the cursor has moved over the whole map, at the depth it came from. -/
theorem goTo_leave {more : List Token} (hrest : c.rest = Token.openBrace :: more)
    (hclose : Token.closeBrace :: rest <:+ more) (henter : c.enter = .ok d) :
    (d.advance.goTo (Token.closeBrace :: rest)).leave.advance = c.goTo rest := by
  have hmore : d.advance.rest = more :=
    (rest_enter_advance henter).trans (rest_eq_cons_iff.mp hrest).2
  have hfront := hmore.symm ▸ hclose
  have htail := List.suffix_cons Token.closeBrace rest
  rw [← goTo_enter hrest henter (htail.trans hclose).length_le, ← goTo_goTo hfront htail,
    goTo_eq_advance (rest_goTo hfront)]
  rfl

variable [Visiting]

theorem takesFront_block (c : Cursor) : Reader.Obeys Reader.TakesFront (Reader.block c.inner) :=
  Reader.hereditary_takesFront.obeys_block
    (Reader.hereditary_takesFront.obeys_inside (maxDepth - c.depth))

/-- Keys and values that are read in turn, from one cursor on up to another. -/
inductive Entries : Cursor → List Entry → Cursor → Prop where
  | nil (c : Cursor) : Entries c [] c
  | cons {c between after last : Cursor} {key value : Form} {es : List Entry}
    (hkey : c.readBlock = .ok (key, between)) (hvalue : between.readBlock = .ok (value, after))
    (hrest : Entries after es last) : Entries c ((key, value) :: es) last

theorem readBlock_eq_ok_iff : c.readBlock = .ok (f, d) ↔
    ∃ rest, (Reader.block c.inner).outcome c.rest = .ok (f, rest) ∧ d = c.goTo rest :=
  step_eq_ok_iff

theorem inner_goTo (c : Cursor) (rest : List Token) : (c.goTo rest).inner = c.inner := rfl

theorem entries_of_reader {tokens : List Token} (htokens : tokens <:+ c.rest)
    (h : Reader.Entries (Reader.block c.inner) tokens es rest) :
    Entries (c.goTo tokens) es (c.goTo rest) := by
  induction h with
  | nil => exact .nil _
  | @cons tokens between after rest key value es hkey hvalue _ ih =>
    have hbetween := (takesFront_block c _ _ _ hkey).trans htokens
    have hafter := (takesFront_block c _ _ _ hvalue).trans hbetween
    have hkey : (c.goTo tokens).readBlock = .ok (key, c.goTo between) := by
      refine readBlock_eq_ok_iff.mpr ⟨between, ?_, ?_⟩
      · rwa [inner_goTo, rest_goTo htokens]
      · rw [goTo_goTo htokens (takesFront_block c _ _ _ hkey)]
    have hvalue : (c.goTo between).readBlock = .ok (value, c.goTo after) := by
      refine readBlock_eq_ok_iff.mpr ⟨after, ?_, ?_⟩
      · rwa [inner_goTo, rest_goTo hbetween]
      · rw [goTo_goTo hbetween (takesFront_block c _ _ _ hvalue)]
    exact .cons hkey hvalue (ih hafter)

theorem reader_of_entries (h : Entries c es last) :
    ∃ rest, Reader.Entries (Reader.block c.inner) c.rest es rest ∧ rest <:+ c.rest ∧
      last = c.goTo rest := by
  induction h with
  | nil c => exact ⟨c.rest, .nil _, List.suffix_rfl, (goTo_self c).symm⟩
  | @cons c between after last key value es hkey hvalue _ ih =>
    obtain ⟨s, hs, rfl⟩ := readBlock_eq_ok_iff.mp hkey
    have hsfront := takesFront_block c _ _ _ hs
    obtain ⟨t, ht, rfl⟩ := readBlock_eq_ok_iff.mp hvalue
    rw [inner_goTo, rest_goTo hsfront] at ht
    have htfront := takesFront_block c _ _ _ ht
    rw [goTo_goTo hsfront htfront] at ih
    have hcfront := htfront.trans hsfront
    obtain ⟨rest, hrest, hfront, rfl⟩ := ih
    rw [inner_goTo, rest_goTo hcfront] at hrest
    rw [rest_goTo hcfront] at hfront
    refine ⟨rest, .cons hs ht hrest, hfront.trans hcfront, ?_⟩
    exact goTo_goTo hcfront hfront

/-- Reading in turn by cursors is reading in turn off the front of their tokens. -/
theorem entries_iff : Entries c es last ↔
    ∃ rest, Reader.Entries (Reader.block c.inner) c.rest es rest ∧ last = c.goTo rest := by
  constructor
  · intro h
    obtain ⟨rest, hrest, -, hlast⟩ := reader_of_entries h
    exact ⟨rest, hrest, hlast⟩
  · rintro ⟨rest, hrest, rfl⟩
    have h := entries_of_reader List.suffix_rfl hrest
    rwa [goTo_self] at h

/-- Where more may be opened, the reader of the forms inside is that of the cursor one level deeper. -/
theorem inner_eq (c : Cursor) : c.inner = c.enter.map fun deeper => Reader.block deeper.inner := by
  unfold inner enter
  by_cases h : maxDepth ≤ c.depth
  · simp [h, Nat.sub_eq_zero_of_le h, Reader.inside, Except.map]
  · have hlevels : maxDepth - c.depth = (maxDepth - (c.depth + 1)) + 1 := by omega
    rw [if_neg h, hlevels]
    rfl

theorem inner_eq_ok_iff : c.inner = .ok read ↔
    ∃ deeper, c.enter = .ok deeper ∧ read = Reader.block deeper.inner := by
  rw [inner_eq]
  cases c.enter <;> simp [Except.map, eq_comm]

/-- A map is read just if keys and values are read in turn between its braces, one level deeper, and
it is the one built from them. -/
theorem readMap_eq_ok_iff : c.readMap = .ok (f, d) ↔
    c.peek? = some Token.openBrace ∧ ∃ deeper pairs last, c.enter = .ok deeper ∧
      Entries deeper.advance pairs last ∧ last.peek? = some Token.closeBrace ∧
      Form.ofEntries? pairs = .ok f ∧ d = last.leave.advance := by
  have hbrace : ∀ read, c.inner = .ok read → read.LeavesBrace := fun read hread =>
    (Reader.hereditary_takesFront.obeys_inside _ read hread).1
  rw [readMap, step_eq_ok_iff]
  constructor
  · rintro ⟨rest, hread, rfl⟩
    obtain ⟨read, more, pairs, hinner, hrest, hpairs, hf⟩ :=
      (Reader.map_eq_ok_iff hbrace).mp hread
    obtain ⟨deeper, henter, rfl⟩ := inner_eq_ok_iff.mp hinner
    obtain ⟨hpeek, hadvance⟩ := rest_eq_cons_iff.mp hrest
    have hmore : deeper.advance.rest = more := (rest_enter_advance henter).trans hadvance
    have hfront := hpairs.suffix (takesFront_block deeper)
    rw [← hmore] at hpairs
    refine ⟨hpeek, deeper, pairs, _, henter, entries_iff.mpr ⟨_, hpairs, rfl⟩, ?_, hf, ?_⟩
    · rw [peek?_eq, rest_goTo (hmore ▸ hfront)]
      rfl
    · exact (goTo_leave hrest hfront henter).symm
  · rintro ⟨hpeek, deeper, pairs, last, henter, hentries, hlast, hf, rfl⟩
    have hrest := rest_eq_cons_iff.mpr ⟨hpeek, rfl⟩
    have hmore := rest_enter_advance henter
    obtain ⟨after, hpairs, hfront, rfl⟩ := reader_of_entries hentries
    rw [peek?_eq, rest_goTo hfront] at hlast
    obtain ⟨rest, rfl⟩ := List.head?_eq_some_iff.mp hlast
    rw [hmore] at hpairs hfront
    refine ⟨rest, ?_, goTo_leave hrest hfront henter⟩
    exact (Reader.map_eq_ok_iff hbrace).mpr
      ⟨_, _, pairs, inner_eq_ok_iff.mpr ⟨deeper, henter, rfl⟩, hrest, hpairs, hf⟩

end Sexpr.Cursor

namespace Sexpr

/-- A map built from entries holds the last value of each key under the first spelling of that key, and
nothing else. A map that is read is the one built from the keys and values that are read in turn. -/
theorem first_key_last_value :
    (∀ pairs : List Entry, (∀ e ∈ pairs, e.1.WellFormed ∧ e.1.isKeyable = true) →
      ∃ entries, Form.ofEntries? pairs = .ok (.map entries) ∧
        (Form.map entries).length? = some (Form.classes pairs).ncard ∧
        ∀ q : Form, q.WellFormed →
          (Form.map entries).get? q =
              (if q.isKeyable = true then (Form.lookup? q pairs.reverse).map Prod.snd else none) ∧
            (Form.lookup? q entries).map Prod.fst = (Form.lookup? q pairs).map Prod.fst) ∧
      ∀ [Visiting] (c d : Cursor) (f : Form), c.readMap = .ok (f, d) ↔
        c.peek? = some Token.openBrace ∧ ∃ deeper pairs last, c.enter = .ok deeper ∧
          Cursor.Entries deeper.advance pairs last ∧ last.peek? = some Token.closeBrace ∧
          Form.ofEntries? pairs = .ok f ∧ d = last.leave.advance := by
  refine ⟨?_, fun c d f => Cursor.readMap_eq_ok_iff⟩
  intro pairs hpairs
  have hkeys : ∀ e ∈ pairs, e.1.WellFormed := fun e he => (hpairs e he).1
  have hbuilt := Form.ofEntries?_of_keyable fun e he => (hpairs e he).2
  refine ⟨Form.putAll [] pairs, hbuilt, ?_, ?_⟩
  · rw [Form.length?, Form.length_putAll hkeys]
  · intro q hq
    have hvalue := Form.lookup?_putAll_value hq hkeys (List.forall_mem_nil _)
    have hkey := Form.lookup?_putAll_key hq hkeys (List.forall_mem_nil _)
    rw [Form.lookup?_nil, Option.map_none, Option.or_none] at hvalue
    rw [Form.lookup?_nil, Option.map_none, Option.none_or] at hkey
    exact ⟨by rw [Form.get?, hvalue], hkey⟩

/-- Both zeros are one key. -/
theorem first_key_last_value_zeros :
    let pairs := [(Form.number .zero, Form.string "first"), (.list [.nil], .lambda ⟨0, "f"⟩),
      (.number (.ofMagnitude true 0), .string "second")]
    ∃ entries, Form.ofEntries? pairs = .ok (.map entries) ∧
      (Form.map entries).get? (.number .zero) = some (.string "second") ∧
      (Form.lookup? (.number (.ofMagnitude true 0)) entries).map Prod.fst =
        some (.number .zero) := by
  intro pairs
  have hpairs : ∀ e ∈ pairs, e.1.WellFormed ∧ e.1.isKeyable = true := by decide
  obtain ⟨entries, hbuilt, -, hfound⟩ := first_key_last_value.1 pairs hpairs
  refine ⟨entries, hbuilt, ?_, ?_⟩
  · exact (hfound (.number .zero) (by decide)).1.trans rfl
  · exact (hfound (.number (.ofMagnitude true 0)) (by decide)).2.trans rfl

end Sexpr
