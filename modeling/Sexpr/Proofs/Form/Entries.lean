import Sexpr.Proofs.Form.Sameness

/-! What putting entries into a map leaves as it is. Maps are built by putting in one entry after the
other, which only fails on a key that cannot be one. -/
namespace Sexpr.Form

variable {key value : Form} {es : List Entry}

theorem putEntry_eq_append (h : ∀ e ∈ es, sameKey key e.1 = false) :
    putEntry key value es = es ++ [(key, value)] := by
  induction es with
  | nil => rfl
  | cons e es ih =>
    have htail := ih fun a ha => h a (List.mem_cons_of_mem _ ha)
    rw [putEntry, h e List.mem_cons_self, if_neg Bool.false_ne_true, htail, List.cons_append]

/-- A key that is there already keeps its place, and a new one comes last. -/
theorem map_fst_putEntry (key value : Form) (es : List Entry) :
    (putEntry key value es).map Prod.fst = es.map Prod.fst ∨
      (∀ e ∈ es, sameKey key e.1 = false) ∧ putEntry key value es = es ++ [(key, value)] := by
  induction es with
  | nil => exact .inr ⟨by simp, rfl⟩
  | cons e es ih =>
    rw [putEntry]
    cases hsame : sameKey key e.1 with
    | true => exact .inl rfl
    | false =>
      rw [if_neg Bool.false_ne_true]
      rcases ih with ih | ⟨hnew, ih⟩
      · exact .inl (by rw [List.map_cons, List.map_cons, ih])
      · exact .inr ⟨List.forall_mem_cons.mpr ⟨hsame, hnew⟩, by rw [ih, List.cons_append]⟩

theorem pairwise_putEntry (hkey : key.WellFormed) (hes : ∀ e ∈ es, e.1.WellFormed)
    (hdistinct : es.Pairwise fun a b => sameKey a.1 b.1 = false) :
    (putEntry key value es).Pairwise fun a b => sameKey a.1 b.1 = false := by
  have hkeys (es : List Entry) : (es.Pairwise fun a b => sameKey a.1 b.1 = false) ↔
      (es.map Prod.fst).Pairwise fun a b => sameKey a b = false := by rw [List.pairwise_map]
  rcases map_fst_putEntry key value es with h | ⟨hnew, h⟩
  · rw [hkeys, h, ← hkeys]
    exact hdistinct
  · rw [h]
    refine List.pairwise_append.mpr ⟨hdistinct, List.pairwise_singleton _ _, fun e he a ha => ?_⟩
    rw [List.mem_singleton.mp ha, sameKey_symm (hes e he) hkey]
    exact hnew e he

/-- What all keys have in common, and what all values have, goes for a map that an entry with such a
key and such a value is put into. -/
theorem forall_mem_putEntry {p q : Form → Prop} (hkey : p key) (hvalue : q value)
    (hes : ∀ e ∈ es, p e.1 ∧ q e.2) : ∀ e ∈ putEntry key value es, p e.1 ∧ q e.2 := by
  induction es with
  | nil => exact List.forall_mem_singleton.mpr ⟨hkey, hvalue⟩
  | cons e es ih =>
    obtain ⟨he, hes⟩ := List.forall_mem_cons.mp hes
    rw [putEntry]
    split
    · exact List.forall_mem_cons.mpr ⟨⟨he.1, hvalue⟩, hes⟩
    · exact List.forall_mem_cons.mpr ⟨he, ih hes⟩

/-- A map stays well-formed when an entry is put into it. -/
theorem wellFormed_putEntry (hes : (map es).WellFormed) (hkey : key.WellFormed)
    (hkeyable : key.isKeyable = true) (hvalue : value.WellFormed) :
    (map (putEntry key value es)).WellFormed := by
  obtain ⟨⟨hkeyables, hdistinct⟩, hinner⟩ := wellFormed_map.mp hes
  have hentries := forall_mem_putEntry (p := fun k => k.isKeyable = true ∧ k.WellFormed)
    ⟨hkeyable, hkey⟩ hvalue fun e he => ⟨⟨hkeyables e he, (hinner e he).1⟩, (hinner e he).2⟩
  refine wellFormed_map.mpr ⟨⟨?_, ?_⟩, ?_⟩
  · exact fun e he => (hentries e he).1.1
  · exact pairwise_putEntry hkey (fun a ha => (hinner a ha).1) hdistinct
  · exact fun e he => ⟨(hentries e he).1.2, (hentries e he).2⟩

/-- Puts in one entry after the other, whether or not their keys may be keys. -/
def putAll (es pairs : List Entry) : List Entry :=
  pairs.foldl (fun es e => putEntry e.1 e.2 es) es

variable {pairs : List Entry} {e : Error}

theorem putAll_cons (a : Entry) (es pairs : List Entry) :
    putAll es (a :: pairs) = putAll (putEntry a.1 a.2 es) pairs := rfl

theorem forall_mem_putAll {p q : Form → Prop} (hes : ∀ e ∈ es, p e.1 ∧ q e.2)
    (hpairs : ∀ e ∈ pairs, p e.1 ∧ q e.2) : ∀ e ∈ putAll es pairs, p e.1 ∧ q e.2 := by
  induction pairs generalizing es with
  | nil => exact hes
  | cons a pairs ih =>
    obtain ⟨ha, hpairs⟩ := List.forall_mem_cons.mp hpairs
    exact ih (forall_mem_putEntry ha.1 ha.2 hes) hpairs

/-- Every key and every value is one of those put in, though maybe not of the same entry. -/
theorem mem_putAll_nil {e : Entry} (h : e ∈ putAll [] pairs) :
    (∃ a ∈ pairs, e.1 = a.1) ∧ ∃ a ∈ pairs, e.2 = a.2 := by
  refine forall_mem_putAll (p := fun k => ∃ a ∈ pairs, k = a.1) (q := fun v => ∃ a ∈ pairs, v = a.2)
    (List.forall_mem_nil _) ?_ e h
  intro a ha
  exact ⟨⟨a, ha, rfl⟩, ⟨a, ha, rfl⟩⟩

theorem insertAll_cons_of_keyable {a : Entry} (h : a.1.isKeyable = true) :
    insertAll es (a :: pairs) = insertAll (putEntry a.1 a.2 es) pairs := by
  simp [insertAll, key?, h, insertEntry]

theorem insertAll_cons_of_not_keyable {a : Entry} (h : a.1.isKeyable = false) :
    insertAll es (a :: pairs) = .error .invalidMapKey := by
  simp [insertAll, key?, h]

theorem insertAll_of_keyable (h : ∀ a ∈ pairs, a.1.isKeyable = true) :
    insertAll es pairs = .ok (putAll es pairs) := by
  induction pairs generalizing es with
  | nil => rfl
  | cons a pairs ih =>
    obtain ⟨ha, hpairs⟩ := List.forall_mem_cons.mp h
    rw [insertAll_cons_of_keyable ha, ih hpairs, putAll_cons]

/-- A single key that cannot be one is enough to fail, wherever it stands. -/
theorem insertAll_of_not_keyable (h : ∃ a ∈ pairs, a.1.isKeyable = false) :
    insertAll es pairs = .error .invalidMapKey := by
  induction pairs generalizing es with
  | nil => simp at h
  | cons a pairs ih =>
    cases ha : a.1.isKeyable with
    | false => exact insertAll_cons_of_not_keyable ha
    | true =>
      have hrest : ∃ b ∈ pairs, b.1.isKeyable = false := by simpa [ha] using h
      rw [insertAll_cons_of_keyable ha, ih hrest]

theorem ofEntries?_of_keyable (h : ∀ a ∈ pairs, a.1.isKeyable = true) :
    ofEntries? pairs = .ok (map (putAll [] pairs)) := by
  rw [ofEntries?, insertAll_of_keyable h]

theorem ofEntries?_of_not_keyable (h : ∃ a ∈ pairs, a.1.isKeyable = false) :
    ofEntries? pairs = .error .invalidMapKey := by
  rw [ofEntries?, insertAll_of_not_keyable h]

theorem forall_keyable_or (pairs : List Entry) :
    (∀ a ∈ pairs, a.1.isKeyable = true) ∨ ∃ a ∈ pairs, a.1.isKeyable = false := by
  by_cases h : ∃ a ∈ pairs, a.1.isKeyable = false
  · exact .inr h
  · refine .inl fun a ha => ?_
    by_contra hne
    exact h ⟨a, ha, Bool.not_eq_true _ ▸ hne⟩

theorem ofEntries?_eq_error_iff :
    ofEntries? pairs = .error e ↔ e = .invalidMapKey ∧ ∃ a ∈ pairs, a.1.isKeyable = false := by
  constructor
  · intro h
    rcases forall_keyable_or pairs with hkeyable | hnot
    · rw [ofEntries?_of_keyable hkeyable] at h
      cases h
    · rw [ofEntries?_of_not_keyable hnot] at h
      cases h
      exact ⟨rfl, hnot⟩
  · rintro ⟨rfl, hnot⟩
    exact ofEntries?_of_not_keyable hnot

theorem ofEntries?_eq_ok_iff {m : Form} : ofEntries? pairs = .ok m ↔
    (∀ a ∈ pairs, a.1.isKeyable = true) ∧ m = map (putAll [] pairs) := by
  constructor
  · intro h
    rcases forall_keyable_or pairs with hkeyable | hnot
    · rw [ofEntries?_of_keyable hkeyable] at h
      cases h
      exact ⟨hkeyable, rfl⟩
    · rw [ofEntries?_of_not_keyable hnot] at h
      cases h
  · rintro ⟨hkeyable, rfl⟩
    exact ofEntries?_of_keyable hkeyable

theorem wellFormed_putAll (hes : (map es).WellFormed)
    (hpairs : ∀ a ∈ pairs, a.1.WellFormed ∧ a.1.isKeyable = true ∧ a.2.WellFormed) :
    (map (putAll es pairs)).WellFormed := by
  induction pairs generalizing es with
  | nil => exact hes
  | cons a pairs ih =>
    obtain ⟨⟨hkey, hkeyable, hvalue⟩, hpairs⟩ := List.forall_mem_cons.mp hpairs
    exact ih (wellFormed_putEntry hes hkey hkeyable hvalue) hpairs

theorem wellFormed_map_nil : (map []).WellFormed :=
  wellFormed_map.mpr ⟨⟨by simp, .nil⟩, by simp⟩

/-- Well-formed keys and values are built into a well-formed map. -/
theorem wellFormed_ofEntries? {m : Form} (h : ofEntries? pairs = .ok m)
    (hpairs : ∀ a ∈ pairs, a.1.WellFormed ∧ a.2.WellFormed) : m.WellFormed := by
  obtain ⟨hkeyable, rfl⟩ := ofEntries?_eq_ok_iff.mp h
  refine wellFormed_putAll wellFormed_map_nil fun a ha => ?_
  exact ⟨(hpairs a ha).1, hkeyable a ha, (hpairs a ha).2⟩

/-- Keys that are all new come one after the other. -/
theorem putAll_eq_append (h : (es ++ pairs).Pairwise fun a b => sameKey b.1 a.1 = false) :
    putAll es pairs = es ++ pairs := by
  induction pairs generalizing es with
  | nil => exact (List.append_nil es).symm
  | cons a pairs ih =>
    obtain ⟨-, -, hacross⟩ := List.pairwise_append.mp h
    have hnew : ∀ e ∈ es, sameKey a.1 e.1 = false := fun e he =>
      hacross e he a List.mem_cons_self
    rw [putAll_cons, putEntry_eq_append hnew, ih (by simpa using h), List.append_assoc,
      List.singleton_append]

/-- A well-formed map is the one built from its entries. -/
theorem ofEntries?_entries (h : (map es).WellFormed) : ofEntries? es = .ok (map es) := by
  obtain ⟨⟨hkeyable, hdistinct⟩, hinner⟩ := wellFormed_map.mp h
  have hback : es.Pairwise fun a b => sameKey b.1 a.1 = false := by
    refine hdistinct.imp_of_mem fun {a b} ha hb hab => ?_
    rwa [sameKey_symm (hinner b hb).1 (hinner a ha).1]
  have hput : putAll [] es = [] ++ es := putAll_eq_append hback
  rw [ofEntries?_of_keyable hkeyable, hput, List.nil_append]

end Sexpr.Form
