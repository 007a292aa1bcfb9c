import Sexpr.Core.Basic
import Sexpr.Proofs.Reader.Cursor

/-! Which forms there are: what is made out of given forms, by whatever is done with them. All of them
are well-formed, and so a look at the values of a map, without one at its keys, tells whether the map
may be a key. -/
namespace Sexpr

/-- What can be made out of given forms: by the constructors, by putting entries into maps, by taking
forms apart, by reading, and by operations. -/
inductive Built : List Form → Form → Prop where
  | given {forms : List Form} {f : Form} (h : f ∈ forms) : Built forms f
  | atom {forms : List Form} {f : Form} (h : f.isAtom = true) : Built forms f
  | list {forms items : List Form} (h : ∀ f ∈ items, Built forms f) : Built forms (.list items)
  | array {forms items : List Form} (h : ∀ f ∈ items, Built forms f) : Built forms (.array items)
  | empty {forms : List Form} : Built forms (.map [])
  | insert {forms : List Form} {es : List Entry} {f value : Form} {key : Key}
    (hmap : Built forms (.map es)) (hkey : Built forms f) (h : f.key? = .ok key)
    (hvalue : Built forms value) : Built forms (.map (Form.insertEntry key value es))
  -- Entries of a map may be taken out one by one, and nothing fixes the order of those that stay.
  | remove {forms : List Form} {es others : List Entry} (hmap : Built forms (.map es))
    (h : others.Sublist es) : Built forms (.map others)
  | reorder {forms : List Form} {es others : List Entry} (hmap : Built forms (.map es))
    (h : es.Perm others) : Built forms (.map others)
  | ofEntries {forms : List Form} {pairs : List Entry} {f : Form}
    (hkeys : ∀ e ∈ pairs, Built forms e.1) (hvalues : ∀ e ∈ pairs, Built forms e.2)
    (h : Form.ofEntries? pairs = .ok f) : Built forms f
  | item {forms items : List Form} {f : Form} (hlist : Built forms (.list items)) (h : f ∈ items) :
    Built forms f
  | element {forms items : List Form} {f : Form} (harray : Built forms (.array items))
    (h : f ∈ items) : Built forms f
  | key {forms : List Form} {es : List Entry} {e : Entry} (hmap : Built forms (.map es))
    (h : e ∈ es) : Built forms e.1
  | value {forms : List Form} {es : List Entry} {e : Entry} (hmap : Built forms (.map es))
    (h : e ∈ es) : Built forms e.2
  | get {forms : List Form} {m q f : Form} (hmap : Built forms m) (h : m.get? q = some f) :
    Built forms f
  | ofKey {forms : List Form} {f : Form} {key : Key} (hf : Built forms f) (h : f.key? = .ok key) :
    Built forms key.form
  | read [Visiting] {forms fs : List Form} {tokens : List Token} {f : Form}
    (h : readTokens tokens = .ok fs) (hf : f ∈ fs) : Built forms f
  | literal {forms : List Form} {token : Token} {f : Form} (h : Form.ofQuoted token = .ok f) :
    Built forms f
  | atomAt {forms : List Form} {c d : Cursor} {f : Form} (h : c.readAtom = .ok (f, d)) :
    Built forms f
  | sequenceAt [Visiting] {forms : List Form} {c d : Cursor} {f : Form} {start close : Token}
    (h : c.readSequence start close = .ok (f, d)) : Built forms f
  | mapAt [Visiting] {forms : List Form} {c d : Cursor} {f : Form} (h : c.readMap = .ok (f, d)) :
    Built forms f
  | expressionAt [Visiting] {forms : List Form} {c d : Cursor} {f : Form}
    (h : c.readExpression = .ok (f, d)) : Built forms f
  | blockAt [Visiting] {forms : List Form} {c d : Cursor} {f : Form} (h : c.readBlock = .ok (f, d)) :
    Built forms f
  | blocksAt [Visiting] {forms fs : List Form} {c d : Cursor} {f : Form}
    (h : c.readBlocks = .ok (fs, d)) (hf : f ∈ fs) : Built forms f
  | core {forms args : List Form} {op : Operation} {reply : Reply} (hop : op ∈ Core.operations)
    (hargs : ∀ a ∈ args, Built forms a) (h : op.run args = .ok reply) : Built forms reply.value
  -- Any other operation makes its reply out of its arguments, in one of these ways.
  | applied {forms args : List Form} {f : Form} (hargs : ∀ a ∈ args, Built forms a)
    (h : Built args f) : Built forms f

/-! Replies of operations. -/

theorem Operation.unary_reply {name description : String} {run : Form → Except Error Form}
    {args : List Form} {reply : Reply}
    (h : (Operation.unary name description run).run args = .ok reply) :
    ∃ arg f, run arg = .ok f ∧ reply.value = f := by
  by_cases hlength : args.length = 1
  · obtain ⟨arg, rfl⟩ := List.length_eq_one_iff.mp hlength
    obtain ⟨f, hf, rfl⟩ := exists_of_map_eq_ok ((unary_run_singleton arg).symm.trans h)
    exact ⟨arg, f, hf, rfl⟩
  · cases (unary_run_of_length_ne hlength).symm.trans h

namespace Core

theorem Arithmetic.isAtom_compute {op : Arithmetic} {args : List Form} {f : Form}
    (h : op.compute args = .ok f) : f.isAtom = true := by
  unfold compute at h
  split at h
  · cases h
  · split at h
    · cases h
    · split at h
      · cases h
      · cases h
        rfl

variable {op : Operation} {args : List Form} {reply : Reply}

theorem Arithmetic.isAtom_reply (hop : op ∈ Arithmetic.all) (h : op.run args = .ok reply) :
    reply.value.isAtom = true := by
  obtain ⟨a, -, rfl⟩ := List.mem_map.mp hop
  obtain ⟨f, hf, rfl⟩ := exists_of_map_eq_ok h
  exact isAtom_compute hf

theorem Sequence.reply_cases (hop : op ∈ Sequence.all) (h : op.run args = .ok reply) :
    reply.value.isAtom = true ∨ reply.value = .list args := by
  rcases List.mem_pair.mp hop with rfl | rfl
  · cases h
    exact .inr rfl
  · obtain ⟨arg, f, hrun, hf⟩ := Operation.unary_reply h
    rw [hf]
    split at hrun
    · cases hrun
      exact .inl rfl
    · cases hrun

theorem Predicate.isAtom_reply (hop : op ∈ Predicate.all) (h : op.run args = .ok reply) :
    reply.value.isAtom = true := by
  rcases List.mem_pair.mp hop with rfl | rfl
  · obtain ⟨arg, f, hrun, hf⟩ := Operation.unary_reply h
    rw [hf]
    split at hrun <;> cases hrun <;> rfl
  · obtain ⟨arg, f, hrun, hf⟩ := Operation.unary_reply h
    rw [hf]
    split at hrun <;> cases hrun <;> rfl

/-- A core operation replies with an atom, or with the list of its arguments. -/
theorem reply_cases (hop : op ∈ Core.operations) (h : op.run args = .ok reply) :
    reply.value.isAtom = true ∨ reply.value = .list args := by
  obtain ⟨group, -, hop⟩ := List.mem_flatMap.mp hop
  cases group with
  | arithmetic => exact .inl (Arithmetic.isAtom_reply hop h)
  | output =>
    cases List.mem_singleton.mp hop
    cases h
    exact .inl rfl
  | sequence => exact Sequence.reply_cases hop h
  | predicate => exact .inl (Predicate.isAtom_reply hop h)

end Core

/-! Well-formedness. -/

namespace Form

variable {f g : Form} {es : List Entry} {key : Key}

theorem form_of_key? (h : f.key? = .ok key) : key.form = f := by
  unfold key? at h
  split at h
  · cases h
    rfl
  · cases h

theorem wellFormed_sublist {others : List Entry} (h : (map es).WellFormed)
    (hsub : others.Sublist es) : (map others).WellFormed := by
  obtain ⟨⟨hkeyable, hdistinct⟩, hinner⟩ := wellFormed_map.mp h
  have hmem : ∀ e ∈ others, e ∈ es := fun e he => hsub.subset he
  exact wellFormed_map.mpr ⟨⟨fun e he => hkeyable e (hmem e he), hdistinct.sublist hsub⟩,
    fun e he => hinner e (hmem e he)⟩

theorem wellFormed_perm {others : List Entry} (h : (map es).WellFormed) (hperm : es.Perm others) :
    (map others).WellFormed :=
  wellFormed_of_same (same_of_reordered (reordered_map hperm)) h

theorem wellFormed_get? {m q : Form} (hm : m.WellFormed) (h : m.get? q = some f) :
    f.WellFormed := by
  cases m with
  | map es =>
    rw [get?] at h
    split at h
    · obtain ⟨e, he, rfl⟩ := Option.map_eq_some_iff.mp h
      exact ((wellFormed_map.mp hm).2 e (lookup?_eq_some he).1).2
    · cases h
  | _ => cases h

theorem isAtom_ofQuoted {token : Token} (h : ofQuoted token = .ok f) : f.isAtom = true := by
  unfold ofQuoted at h
  split at h
  · cases h
    rfl
  · cases h

end Form

theorem Cursor.wellFormed_step {c d : Cursor} {read : Reader} {f : Form}
    (hr : Reader.Obeys Reader.Sound read) (h : c.step read = .ok (f, d)) : f.WellFormed := by
  obtain ⟨rest, hread, -⟩ := step_eq_ok_iff.mp h
  exact (hr _ _ _ hread).1

theorem Cursor.wellFormed_readBlocks [Visiting] {c d : Cursor} {fs : List Form}
    (h : c.readBlocks = .ok (fs, d)) : ∀ f ∈ fs, f.WellFormed := by
  unfold readBlocks at h
  split at h
  · cases h
  · cases h
    exact Reader.forms_sound (Reader.sound_block _) (List.forall_mem_nil _) ‹_›

theorem wellFormed_of_readTokens [Visiting] {tokens : List Token} {fs : List Form}
    (h : readTokens tokens = .ok fs) : ∀ f ∈ fs, f.WellFormed :=
  Reader.forms_sound (Reader.sound_block maxDepth) (List.forall_mem_nil _) h

/-- Nothing that can be built out of well-formed forms is not well-formed. -/
theorem wellFormed_of_built {forms : List Form} {f : Form} (h : Built forms f)
    (hforms : ∀ g ∈ forms, g.WellFormed) : f.WellFormed := by
  induction h with
  | given h => exact hforms _ h
  | atom h => exact Form.wellFormed_atom h
  | list _ ih => exact Form.wellFormed_list.mpr fun f hf => ih f hf hforms
  | array _ ih => exact Form.wellFormed_array.mpr fun f hf => ih f hf hforms
  | empty => exact Form.wellFormed_map_nil
  | @insert _ _ _ _ key _ _ h _ ihmap ihkey ihvalue =>
    have hkey : key.form.WellFormed := Form.form_of_key? h ▸ ihkey hforms
    exact Form.wellFormed_putEntry (ihmap hforms) hkey key.keyable (ihvalue hforms)
  | remove _ h ih => exact Form.wellFormed_sublist (ih hforms) h
  | reorder _ h ih => exact Form.wellFormed_perm (ih hforms) h
  | ofEntries _ _ h ihkeys ihvalues =>
    exact Form.wellFormed_ofEntries? h fun e he => ⟨ihkeys e he hforms, ihvalues e he hforms⟩
  | item _ h ih => exact Form.wellFormed_list.mp (ih hforms) _ h
  | element _ h ih => exact Form.wellFormed_array.mp (ih hforms) _ h
  | key _ h ih => exact ((Form.wellFormed_map.mp (ih hforms)).2 _ h).1
  | value _ h ih => exact ((Form.wellFormed_map.mp (ih hforms)).2 _ h).2
  | get _ h ih => exact Form.wellFormed_get? (ih hforms) h
  | ofKey _ h ih => exact Form.form_of_key? h ▸ ih hforms
  | read h hf => exact wellFormed_of_readTokens h _ hf
  | literal h => exact Form.wellFormed_atom (Form.isAtom_ofQuoted h)
  | atomAt h => exact Cursor.wellFormed_step Reader.hereditary_sound.obeys_atom h
  | @sequenceAt _ _ c _ _ start close h =>
    have hinner := fun read hread => (Reader.sound_inside (maxDepth - c.depth) read hread).2
    have hsequence := Reader.hereditary_sound.obeys_sequence hinner start close
    exact Cursor.wellFormed_step hsequence h
  | mapAt h =>
    exact Cursor.wellFormed_step (Reader.hereditary_sound.obeys_map (Reader.sound_inside _)) h
  | expressionAt h =>
    exact Cursor.wellFormed_step (Reader.hereditary_sound.obeys_expression (Reader.sound_inside _)) h
  | blockAt h => exact Cursor.wellFormed_step (Reader.sound_block _) h
  | blocksAt h hf => exact Cursor.wellFormed_readBlocks h _ hf
  | core hop _ h ih =>
    rcases Core.reply_cases hop h with hatom | hlist
    · exact Form.wellFormed_atom hatom
    · rw [hlist]
      exact Form.wellFormed_list.mpr fun a ha => ih a ha hforms
  | applied _ _ ihargs ih => exact ih fun a ha => ihargs a ha hforms

/-- What is built out of nothing is just what is well-formed. -/
theorem built_iff_wellFormed {f : Form} : Built [] f ↔ f.WellFormed := by
  constructor
  · intro h
    exact wellFormed_of_built h (List.forall_mem_nil _)
  · intro hf
    induction f with
    | list items ih => exact .list fun a ha => ih a ha (Form.wellFormed_list.mp hf a ha)
    | array items ih => exact .array fun a ha => ih a ha (Form.wellFormed_array.mp hf a ha)
    | map entries ihk ihv =>
      have hentries := (Form.wellFormed_map.mp hf).2
      exact .ofEntries (fun e he => ihk e he (hentries e he).1)
        (fun e he => ihv e he (hentries e he).2) (Form.ofEntries?_entries hf)
    | _ => exact .atom rfl

/-! What may be a key. -/

namespace Form

variable {f : Form}

/-- A form that, if it is a map, has distinct keys, without an identifier and without an operation
anywhere in them. -/
def PlainKeys : Form → Prop
  | map entries =>
    (∀ e ∈ entries, Everywhere Plain e.1) ∧
      entries.Pairwise fun a b => sameKey a.1 b.1 = false
  | _ => True

instance : DecidablePred PlainKeys
  | map entries => inferInstanceAs (Decidable ((∀ e ∈ entries, Everywhere Plain e.1) ∧
      entries.Pairwise fun a b => sameKey a.1 b.1 = false))
  | symbol _ | keyword _ | number _ | nil | boolean _ | string _ | identifier _ | list _ | array _
  | lambda _ => isTrue trivial

/-- The keys of a well-formed map have passed the test, so nothing is missed by skipping them. -/
theorem isKeyable_iff (hf : f.WellFormed) : f.isKeyable = true ↔ Everywhere Plain f := by
  refine ⟨fun h => ?_, isKeyable_of_plain⟩
  induction f with
  | list items ih =>
    have hitems := wellFormed_list.mp hf
    have hkeyable := allKeyable_iff.mp h
    exact everywhere_list.mpr ⟨trivial, fun a ha => ih a ha (hitems a ha) (hkeyable a ha)⟩
  | array items ih =>
    have hitems := wellFormed_array.mp hf
    have hkeyable := allKeyable_iff.mp h
    exact everywhere_array.mpr ⟨trivial, fun a ha => ih a ha (hitems a ha) (hkeyable a ha)⟩
  | map entries ihk ihv =>
    obtain ⟨⟨hkeys, -⟩, hentries⟩ := wellFormed_map.mp hf
    have hvalues := valuesKeyable_iff.mp h
    refine everywhere_map.mpr ⟨trivial, fun e he => ⟨?_, ?_⟩⟩
    · exact ihk e he (hentries e he).1 (hkeys e he)
    · exact ihv e he (hentries e he).2 (hvalues e he)
  | identifier name | lambda operation => cases h
  | _ => exact (everywhere_atom rfl).mpr trivial

theorem plainKeys_of_wellFormed (hf : f.WellFormed) : f.PlainKeys := by
  cases f with
  | map entries =>
    obtain ⟨⟨hkeys, hdistinct⟩, hentries⟩ := wellFormed_map.mp hf
    refine ⟨fun e he => ?_, hdistinct⟩
    exact (isKeyable_iff (hentries e he).1).mp (hkeys e he)
  | _ => trivial

theorem everywhere_plainKeys (hf : f.WellFormed) : Everywhere PlainKeys f := by
  have hself := plainKeys_of_wellFormed hf
  induction f with
  | list items ih =>
    refine everywhere_list.mpr ⟨hself, fun a ha => ?_⟩
    have hwell := wellFormed_list.mp hf a ha
    exact ih a ha hwell (plainKeys_of_wellFormed hwell)
  | array items ih =>
    refine everywhere_array.mpr ⟨hself, fun a ha => ?_⟩
    have hwell := wellFormed_array.mp hf a ha
    exact ih a ha hwell (plainKeys_of_wellFormed hwell)
  | map entries ihk ihv =>
    refine everywhere_map.mpr ⟨hself, fun e he => ?_⟩
    obtain ⟨hkey, hvalue⟩ := (wellFormed_map.mp hf).2 e he
    exact ⟨ihk e he hkey (plainKeys_of_wellFormed hkey),
      ihv e he hvalue (plainKeys_of_wellFormed hvalue)⟩
  | _ => exact (everywhere_atom rfl).mpr hself

/-- Maps fail to be built for their keys alone, and for nothing but what a key may not hold. -/
theorem ofEntries?_eq_error_iff_plain {pairs : List Entry} {e : Error}
    (hkeys : ∀ p ∈ pairs, p.1.WellFormed) :
    ofEntries? pairs = .error e ↔ e = .invalidMapKey ∧ ∃ p ∈ pairs, ¬ Everywhere Plain p.1 := by
  rw [ofEntries?_eq_error_iff]
  refine and_congr_right fun _ => exists_congr fun p => and_congr_right fun hp => ?_
  rw [← isKeyable_iff (hkeys p hp), Bool.not_eq_true]

end Form

/-- Whatever is built, its maps have distinct keys that hold no identifier and no operation, however
deep and within keys too. So the test of keys, which skips the keys of maps, tells if a form holds an
identifier or an operation, and maps are only refused where a key does. -/
theorem built_plain_keys :
    (∀ f, Built [] f → Form.Everywhere Form.PlainKeys f ∧
      (f.isKeyable = true ↔ Form.Everywhere Form.Plain f)) ∧
    ∀ pairs : List Entry, (∀ p ∈ pairs, Built [] p.1) → ∀ e, Form.ofEntries? pairs = .error e ↔
      e = .invalidMapKey ∧ ∃ p ∈ pairs, ¬ Form.Everywhere Form.Plain p.1 := by
  constructor
  · intro f hf
    have hwell := built_iff_wellFormed.mp hf
    exact ⟨Form.everywhere_plainKeys hwell, Form.isKeyable_iff hwell⟩
  · intro pairs hkeys e
    exact Form.ofEntries?_eq_error_iff_plain fun p hp => built_iff_wellFormed.mp (hkeys p hp)

theorem built_plain_keys_nested :
    let named := Form.identifier "x"
    let inner := Form.map [(.nil, .boolean true)]
    let outer := Form.map [(inner, named)]
    Form.Everywhere Form.PlainKeys outer ∧ (outer.isKeyable = true ↔ False) ∧
      Form.ofEntries? [(inner, named), (.list [outer], .nil)] = .error .invalidMapKey := by
  intro named inner outer
  have hinner : Built [] inner := built_iff_wellFormed.mpr (by decide)
  have houter : Built [] outer := built_iff_wellFormed.mpr (by decide)
  have hlist : Built [] (.list [outer]) := .list (List.forall_mem_singleton.mpr houter)
  have hnamed : ¬ Form.Everywhere Form.Plain outer := by decide
  obtain ⟨hkeys, hkeyable⟩ := built_plain_keys.1 outer houter
  refine ⟨hkeys, hkeyable.trans (iff_false_intro hnamed), ?_⟩
  refine (built_plain_keys.2 [(inner, named), (.list [outer], .nil)] ?_ _).mpr ⟨rfl, ?_⟩
  · simp [hinner, hlist]
  · exact ⟨(.list [outer], .nil), by simp, by decide⟩

end Sexpr
