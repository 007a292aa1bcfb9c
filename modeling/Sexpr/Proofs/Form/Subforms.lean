import Sexpr.Proofs.Form.Induction

/-! The forms inside a form, that form included, those of them that stand in no key, and how deep
they are nested. -/
namespace Sexpr.Form

/-- Neither a list nor an array nor a map: nothing else stands inside. -/
def isAtom : Form → Bool
  | list _ | array _ | map _ => false
  | _ => true

mutual

/-- What stands at any position of a form, the keys and values of maps included. -/
def subforms : Form → List Form
  | list items => list items :: itemSubforms items
  | array items => array items :: itemSubforms items
  | map entries => map entries :: entrySubforms entries
  | f => [f]

def itemSubforms : List Form → List Form
  | [] => []
  | f :: fs => f.subforms ++ itemSubforms fs

def entrySubforms : List (Form × Form) → List Form
  | [] => []
  | (key, value) :: entries => key.subforms ++ value.subforms ++ entrySubforms entries

end

mutual

/-- What stands at the positions of a form that are not inside a key of a map. -/
def exposed : Form → List Form
  | list items => list items :: itemsExposed items
  | array items => array items :: itemsExposed items
  | map entries => map entries :: valuesExposed entries
  | f => [f]

def itemsExposed : List Form → List Form
  | [] => []
  | f :: fs => f.exposed ++ itemsExposed fs

def valuesExposed : List (Form × Form) → List Form
  | [] => []
  | (_, value) :: entries => value.exposed ++ valuesExposed entries

end

mutual

/-- How many lists, arrays and maps lie on the longest path into a form. -/
def depth : Form → Nat
  | list items | array items => itemsDepth items + 1
  | map entries => entriesDepth entries + 1
  | _ => 0

def itemsDepth : List Form → Nat
  | [] => 0
  | f :: fs => max f.depth (itemsDepth fs)

def entriesDepth : List (Form × Form) → Nat
  | [] => 0
  | (key, value) :: entries => max (max key.depth value.depth) (entriesDepth entries)

end

/-- Every form inside has a property. -/
def Everywhere (p : Form → Prop) (f : Form) : Prop := ∀ g ∈ f.subforms, p g

instance (p : Form → Prop) [DecidablePred p] : DecidablePred (Everywhere p) :=
  fun f => inferInstanceAs (Decidable (∀ g ∈ f.subforms, p g))

/-- Every form inside that stands in no key has a property. -/
def OutsideKeys (p : Form → Prop) (f : Form) : Prop := ∀ g ∈ f.exposed, p g

instance (p : Form → Prop) [DecidablePred p] : DecidablePred (OutsideKeys p) :=
  fun f => inferInstanceAs (Decidable (∀ g ∈ f.exposed, p g))

/-- Every map inside has keys that may be keys, no two of them the same. -/
def DistinctKeys : Form → Prop
  | map entries =>
    (∀ e ∈ entries, e.1.isKeyable = true) ∧
      entries.Pairwise fun a b => sameKey a.1 b.1 = false
  | _ => True

instance : DecidablePred DistinctKeys
  | map entries => inferInstanceAs (Decidable ((∀ e ∈ entries, e.1.isKeyable = true) ∧
      entries.Pairwise fun a b => sameKey a.1 b.1 = false))
  | symbol _ | keyword _ | number _ | nil | boolean _ | string _ | identifier _ | list _ | array _
  | lambda _ => isTrue trivial

/-- A form that can be built by putting entries into maps. -/
def WellFormed : Form → Prop := Everywhere DistinctKeys

instance : DecidablePred WellFormed := inferInstanceAs (DecidablePred (Everywhere DistinctKeys))

/-- A form that is neither an identifier nor an operation. -/
def Plain : Form → Prop
  | identifier _ | lambda _ => False
  | _ => True

instance : DecidablePred Plain
  | identifier _ | lambda _ => isFalse not_false
  | symbol _ | keyword _ | number _ | nil | boolean _ | string _ | list _ | array _ | map _ =>
    isTrue trivial

variable {p : Form → Prop} {f g : Form} {items : List Form} {entries : List Entry} {n : Nat}

theorem mem_itemSubforms : g ∈ itemSubforms items ↔ ∃ f ∈ items, g ∈ f.subforms := by
  induction items with
  | nil => simp [itemSubforms]
  | cons f fs ih => simp [itemSubforms, ih]

/-- What stands inside a key is inside the map, as what stands inside a value is. -/
theorem mem_entrySubforms :
    g ∈ entrySubforms entries ↔ ∃ e ∈ entries, g ∈ e.1.subforms ∨ g ∈ e.2.subforms := by
  induction entries with
  | nil => simp [entrySubforms]
  | cons e es ih => simp [entrySubforms, ih, or_assoc]

theorem forall_mem_itemSubforms :
    (∀ g ∈ itemSubforms items, p g) ↔ ∀ f ∈ items, Everywhere p f := by
  constructor
  · intro h f hf g hg
    exact h g (mem_itemSubforms.mpr ⟨f, hf, hg⟩)
  · intro h g hg
    obtain ⟨f, hf, hg⟩ := mem_itemSubforms.mp hg
    exact h f hf g hg

/-- An atom has nothing inside but itself. -/
theorem everywhere_atom (h : f.isAtom = true) : Everywhere p f ↔ p f := by
  have hsub : f.subforms = [f] := by
    cases f <;> first | rfl | cases h
  rw [Everywhere, hsub, List.forall_mem_singleton]

theorem everywhere_list :
    Everywhere p (list items) ↔ p (list items) ∧ ∀ f ∈ items, Everywhere p f := by
  rw [← forall_mem_itemSubforms]
  exact List.forall_mem_cons

theorem everywhere_array :
    Everywhere p (array items) ↔ p (array items) ∧ ∀ f ∈ items, Everywhere p f := by
  rw [← forall_mem_itemSubforms]
  exact List.forall_mem_cons

/-- The keys of a map are inside it as its values are. -/
theorem everywhere_map :
    Everywhere p (map entries) ↔
      p (map entries) ∧ ∀ e ∈ entries, Everywhere p e.1 ∧ Everywhere p e.2 := by
  have hentries : (∀ g ∈ entrySubforms entries, p g) ↔
      ∀ e ∈ entries, Everywhere p e.1 ∧ Everywhere p e.2 := by
    constructor
    · intro h e he
      exact ⟨fun g hg => h g (mem_entrySubforms.mpr ⟨e, he, .inl hg⟩),
        fun g hg => h g (mem_entrySubforms.mpr ⟨e, he, .inr hg⟩)⟩
    · intro h g hg
      obtain ⟨e, he, hg | hg⟩ := mem_entrySubforms.mp hg
      · exact (h e he).1 g hg
      · exact (h e he).2 g hg
  rw [← hentries]
  exact List.forall_mem_cons

theorem forall_mem_itemsExposed :
    (∀ g ∈ itemsExposed items, p g) ↔ ∀ f ∈ items, OutsideKeys p f := by
  induction items with
  | nil => simp [itemsExposed]
  | cons f fs ih => rw [itemsExposed, List.forall_mem_append, ih, List.forall_mem_cons, OutsideKeys]

theorem forall_mem_valuesExposed :
    (∀ g ∈ valuesExposed entries, p g) ↔ ∀ e ∈ entries, OutsideKeys p e.2 := by
  induction entries with
  | nil => simp [valuesExposed]
  | cons e es ih =>
    rw [valuesExposed, List.forall_mem_append, ih, List.forall_mem_cons, OutsideKeys]

theorem outsideKeys_atom (h : f.isAtom = true) : OutsideKeys p f ↔ p f := by
  have hexposed : f.exposed = [f] := by
    cases f <;> first | rfl | cases h
  rw [OutsideKeys, hexposed, List.forall_mem_singleton]

theorem outsideKeys_list :
    OutsideKeys p (list items) ↔ p (list items) ∧ ∀ f ∈ items, OutsideKeys p f := by
  rw [← forall_mem_itemsExposed]
  exact List.forall_mem_cons

theorem outsideKeys_array :
    OutsideKeys p (array items) ↔ p (array items) ∧ ∀ f ∈ items, OutsideKeys p f := by
  rw [← forall_mem_itemsExposed]
  exact List.forall_mem_cons

/-- Of an entry only the value counts, so a key may hold what is kept out elsewhere. -/
theorem outsideKeys_map :
    OutsideKeys p (map entries) ↔ p (map entries) ∧ ∀ e ∈ entries, OutsideKeys p e.2 := by
  rw [← forall_mem_valuesExposed]
  exact List.forall_mem_cons

/-- What holds of every form inside holds of those outside of keys. -/
theorem Everywhere.outsideKeys (h : Everywhere p f) : OutsideKeys p f := by
  induction f with
  | list items ih =>
    obtain ⟨hself, hitems⟩ := everywhere_list.mp h
    exact outsideKeys_list.mpr ⟨hself, fun a ha => ih a ha (hitems a ha)⟩
  | array items ih =>
    obtain ⟨hself, hitems⟩ := everywhere_array.mp h
    exact outsideKeys_array.mpr ⟨hself, fun a ha => ih a ha (hitems a ha)⟩
  | map entries _ ihv =>
    obtain ⟨hself, hentries⟩ := everywhere_map.mp h
    exact outsideKeys_map.mpr ⟨hself, fun e he => ihv e he (hentries e he).2⟩
  | _ => exact (outsideKeys_atom rfl).mpr ((everywhere_atom rfl).mp h)

theorem Everywhere.mono {q : Form → Prop} (hpq : ∀ g, p g → q g) (h : Everywhere p f) :
    Everywhere q f := fun g hg => hpq g (h g hg)

/-- Without an identifier and without an operation inside, a form may be a key. -/
theorem isKeyable_of_plain (h : Everywhere Plain f) : f.isKeyable = true := by
  induction f with
  | list items ih =>
    have hitems := (everywhere_list.mp h).2
    exact allKeyable_iff.mpr fun a ha => ih a ha (hitems a ha)
  | array items ih =>
    have hitems := (everywhere_array.mp h).2
    exact allKeyable_iff.mpr fun a ha => ih a ha (hitems a ha)
  | map entries _ ihv =>
    have hentries := (everywhere_map.mp h).2
    exact valuesKeyable_iff.mpr fun e he => ihv e he (hentries e he).2
  | identifier name | lambda operation => exact ((everywhere_atom rfl).mp h).elim
  | _ => rfl

/-- Only lists, arrays and maps count as levels. -/
theorem depth_atom (h : f.isAtom = true) : f.depth = 0 := by
  cases f <;> first | rfl | cases h

/-- A bound on the deepest item is a bound on every item. -/
theorem itemsDepth_le : itemsDepth items ≤ n ↔ ∀ f ∈ items, f.depth ≤ n := by
  induction items with
  | nil => simp [itemsDepth]
  | cons f fs ih => rw [itemsDepth, Nat.max_le, ih, List.forall_mem_cons]

theorem entriesDepth_le :
    entriesDepth entries ≤ n ↔ ∀ e ∈ entries, e.1.depth ≤ n ∧ e.2.depth ≤ n := by
  induction entries with
  | nil => simp [entriesDepth]
  | cons e es ih => rw [entriesDepth, Nat.max_le, Nat.max_le, ih, List.forall_mem_cons]

theorem depth_list_le : (list items).depth ≤ n + 1 ↔ ∀ f ∈ items, f.depth ≤ n := by
  rw [← itemsDepth_le, depth, Nat.add_le_add_iff_right]

theorem depth_array_le : (array items).depth ≤ n + 1 ↔ ∀ f ∈ items, f.depth ≤ n := by
  rw [← itemsDepth_le, depth, Nat.add_le_add_iff_right]

/-- Keys may be nested as deep as values, one level less deep than the map. -/
theorem depth_map_le :
    (map entries).depth ≤ n + 1 ↔ ∀ e ∈ entries, e.1.depth ≤ n ∧ e.2.depth ≤ n := by
  rw [← entriesDepth_le, depth, Nat.add_le_add_iff_right]

end Sexpr.Form
