import Mathlib.Data.List.Pairwise
import Sexpr.Form.Equality
import Sexpr.Proofs.Form.Alike
import Sexpr.Proofs.Number.Canonical

/-! Sameness as keys and equality. Where maps have distinct keys, both relate forms of one shape
whose atoms they relate; they only differ in what they say of numbers. -/
namespace Sexpr.Form

variable {f g : Form} {as bs : List Form} {es : List Entry}

/-- One atom for all that are the same as keys. -/
def canonical : Form → Form
  | number value => number value.canonical
  | lambda operation => lambda { operation with name := "" }
  | f => f

/-- The same form but for the order of entries and for atoms that are the same as keys. -/
def Same : Form → Form → Prop := Alike fun a b => a.canonical = b.canonical

theorem same_symm (h : Same f g) : Same g f := h.symm fun _ _ => Eq.symm

theorem same_trans {h : Form} (hfg : Same f g) (hgh : Same g h) : Same f h :=
  hfg.trans (fun _ _ _ => Eq.trans) hgh

/-- The order of entries does not count. -/
theorem same_of_reordered (h : Reordered f g) : Same f g := h.mono fun _ _ _ => congrArg canonical

/-- Atoms are compared by what stands for all that are the same: one zero, one NaN, and of an
operation its id without its name. -/
theorem sameKey_atom (hf : f.isAtom = true) : sameKey f g = true ↔ Same f g := by
  rw [Same, alike_atom hf]
  cases f <;> first | cases hf; done | (cases g <;> simp [sameKey, isAtom, canonical])

theorem sameKeys_iff :
    sameKeys as bs = true ↔ List.Forall₂ (fun a b => sameKey a b = true) as bs := by
  induction as generalizing bs with
  | nil => cases bs <;> simp [sameKeys]
  | cons a as ih => cases bs <;> simp [sameKeys, ih]

/-- Each entry is looked up among the others by its key, and the values have to be the same. -/
theorem entriesWithin_iff {es others : List Entry} : entriesWithin es others = true ↔
    ∀ a ∈ es, ∃ b, lookup? a.1 others = some b ∧ sameKey a.2 b.2 = true := by
  induction es with
  | nil => simp [entriesWithin]
  | cons e es ih =>
    rw [entriesWithin, Bool.and_eq_true, ih, List.forall_mem_cons, lookup?]
    cases others.find? fun other => sameKey e.1 other.1 <;> simp

theorem sameKey_list : sameKey (list as) g = true ↔
    ∃ bs, List.Forall₂ (fun a b => sameKey a b = true) as bs ∧ g = list bs := by
  cases g <;> simp [sameKey, sameKeys_iff]

theorem sameKey_array : sameKey (array as) g = true ↔
    ∃ bs, List.Forall₂ (fun a b => sameKey a b = true) as bs ∧ g = array bs := by
  cases g <;> simp [sameKey, sameKeys_iff]

/-- As many entries on both sides, and each of the one side found on the other. -/
theorem sameKey_map : sameKey (map es) g = true ↔ ∃ others, (es.length = others.length ∧
    ∀ a ∈ es, ∃ b, lookup? a.1 others = some b ∧ sameKey a.2 b.2 = true) ∧ g = map others := by
  cases g <;> simp [sameKey, entriesWithin_iff]

/-- Where keys are distinct, a key is the same as no other but itself. -/
theorem eq_of_sameKey {a b : Entry}
    (hdistinct : es.Pairwise fun a b => sameKey a.1 b.1 = false) (ha : a ∈ es) (hb : b ∈ es)
    (hab : sameKey a.1 b.1 = true) (hba : sameKey b.1 a.1 = true) : a = b := by
  have hapart : es.Pairwise fun a b => ¬ (sameKey a.1 b.1 = true ∧ sameKey b.1 a.1 = true) := by
    refine hdistinct.imp fun {a b} h hboth => ?_
    rw [hboth.1] at h
    cases h
  have hsymm : Std.Symm fun a b : Entry => ¬ (sameKey a.1 b.1 = true ∧ sameKey b.1 a.1 = true) :=
    ⟨fun _ _ h hboth => h hboth.symm⟩
  by_contra hne
  exact hapart.forall ha hb hne ⟨hab, hba⟩

theorem wellFormed_atom (h : f.isAtom = true) : f.WellFormed := by
  refine (everywhere_atom h).mpr ?_
  cases f <;> trivial

theorem wellFormed_list : WellFormed (list as) ↔ ∀ f ∈ as, f.WellFormed := by
  rw [WellFormed, everywhere_list]
  exact and_iff_right trivial

theorem wellFormed_array : WellFormed (array as) ↔ ∀ f ∈ as, f.WellFormed := by
  rw [WellFormed, everywhere_array]
  exact and_iff_right trivial

/-- The keys of a map may be keys and are distinct, and all that is inside is well-formed. -/
theorem wellFormed_map : WellFormed (map es) ↔ ((∀ e ∈ es, e.1.isKeyable = true) ∧
    es.Pairwise fun a b => sameKey a.1 b.1 = false) ∧
    ∀ e ∈ es, e.1.WellFormed ∧ e.2.WellFormed := everywhere_map

/-- Entries whose keys and values are the same as keys. -/
def SameEntry : Entry → Entry → Prop := EntryAlike fun a b => a.canonical = b.canonical

/-- What is found is an entry, and it is found by its key. -/
theorem lookup?_eq_some {key : Form} {e : Entry} (h : lookup? key es = some e) :
    e ∈ es ∧ sameKey key e.1 = true := by
  rw [lookup?] at h
  have hsame := List.find?_some h
  exact ⟨List.mem_of_find?_eq_some h, hsame⟩

section Entries

variable {others : List Entry}
  (hself : ∀ a ∈ es, ∀ b ∈ es, sameKey a.1 b.1 = true ↔ Same a.1 b.1)
  (hkey : ∀ a ∈ es, ∀ b ∈ others, sameKey a.1 b.1 = true ↔ Same a.1 b.1)
  (hvalue : ∀ a ∈ es, ∀ b ∈ others, sameKey a.2 b.2 = true ↔ Same a.2 b.2)
  (hdistinct : es.Pairwise fun a b => sameKey a.1 b.1 = false)

include hself hkey hvalue hdistinct

/-- Distinct keys cannot all be found at one entry, so with as many entries on both sides each has a
partner of its own. -/
theorem exists_perm_of_found (hlength : es.length = others.length)
    (hfound : ∀ a ∈ es, ∃ b, lookup? a.1 others = some b ∧ sameKey a.2 b.2 = true) :
    ∃ bs, List.Forall₂ SameEntry es bs ∧ bs.Perm others := by
  refine exists_perm_of_partners (Nat.le_of_eq hlength.symm) ?_ ?_
  · intro a ha
    obtain ⟨b, hb, hab⟩ := hfound a ha
    obtain ⟨hmem, hb⟩ := lookup?_eq_some hb
    exact ⟨b, hmem, (hkey a ha b hmem).mp hb, (hvalue a ha b hmem).mp hab⟩
  · refine hdistinct.imp_of_mem fun {a c} ha hc hac b hab hcb => ?_
    have hsame : Same a.1 c.1 := same_trans hab.1 (same_symm hcb.1)
    rw [(hself a ha c hc).mpr hsame] at hac
    cases hac

/-- Conversely, an entry is found by the key of its partner. -/
theorem found_of_forall₂ {bs : List Entry} (hbs : List.Forall₂ SameEntry es bs)
    (hperm : bs.Perm others) :
    ∀ a ∈ es, ∃ b, lookup? a.1 others = some b ∧ sameKey a.2 b.2 = true := by
  intro a ha
  obtain ⟨b, hb, hab⟩ := exists_right_of_mem hbs ha
  have hb : b ∈ others := hperm.mem_iff.mp hb
  obtain ⟨c, hc⟩ : ∃ c, lookup? a.1 others = some c :=
    Option.isSome_iff_exists.mp (List.find?_isSome.mpr ⟨b, hb, (hkey a ha b hb).mpr hab.1⟩)
  obtain ⟨hcmem, hac⟩ := lookup?_eq_some hc
  -- What is found is the partner of an entry with the same key, which is the entry itself.
  obtain ⟨d, hd, hdc⟩ := exists_left_of_mem hbs (hperm.mem_iff.mpr hcmem)
  have had : Same a.1 d.1 := same_trans ((hkey a ha c hcmem).mp hac) (same_symm hdc.1)
  have heq : a = d := eq_of_sameKey hdistinct ha hd ((hself a ha d hd).mpr had)
    ((hself d hd a ha).mpr (same_symm had))
  subst heq
  exact ⟨c, hc, (hvalue a ha c hcmem).mpr hdc.2⟩

end Entries

/-- Among well-formed forms the comparison of keys decides whether they are the same but for order. On
others it need not: looking up one key twice would pass for two entries. -/
theorem sameKey_iff_same (hf : f.WellFormed) (hg : g.WellFormed) :
    sameKey f g = true ↔ Same f g := by
  induction f generalizing g with
  | list items ih =>
    have hitems := wellFormed_list.mp hf
    rw [sameKey_list, Same, alike_list]
    refine exists_congr fun bs => and_congr_left ?_
    rintro rfl
    have hbs := wellFormed_list.mp hg
    exact forall₂_congr_of_mem fun a ha b hb => ih a ha (hitems a ha) (hbs b hb)
  | array items ih =>
    have hitems := wellFormed_array.mp hf
    rw [sameKey_array, Same, alike_array]
    refine exists_congr fun bs => and_congr_left ?_
    rintro rfl
    have hbs := wellFormed_array.mp hg
    exact forall₂_congr_of_mem fun a ha b hb => ih a ha (hitems a ha) (hbs b hb)
  | map entries ihk ihv =>
    obtain ⟨⟨-, hdistinct⟩, hentries⟩ := wellFormed_map.mp hf
    have hself : ∀ a ∈ entries, ∀ b ∈ entries, sameKey a.1 b.1 = true ↔ Same a.1 b.1 :=
      fun a ha b hb => ihk a ha (hentries a ha).1 (hentries b hb).1
    rw [sameKey_map, Same, alike_map]
    constructor
    · rintro ⟨others, ⟨hlength, hfound⟩, rfl⟩
      obtain ⟨-, hothers⟩ := wellFormed_map.mp hg
      obtain ⟨bs, hbs, hperm⟩ := exists_perm_of_found hself
        (fun a ha b hb => ihk a ha (hentries a ha).1 (hothers b hb).1)
        (fun a ha b hb => ihv a ha (hentries a ha).2 (hothers b hb).2) hdistinct hlength hfound
      exact ⟨bs, others, hbs, hperm, rfl⟩
    · rintro ⟨bs, others, hbs, hperm, rfl⟩
      obtain ⟨-, hothers⟩ := wellFormed_map.mp hg
      have hfound := found_of_forall₂ hself
        (fun a ha b hb => ihk a ha (hentries a ha).1 (hothers b hb).1)
        (fun a ha b hb => ihv a ha (hentries a ha).2 (hothers b hb).2) hdistinct hbs hperm
      exact ⟨others, ⟨hbs.length_eq.trans hperm.length_eq, hfound⟩, rfl⟩
  | _ => exact sameKey_atom rfl

theorem sameKey_symm (hf : f.WellFormed) (hg : g.WellFormed) : sameKey f g = sameKey g f := by
  rw [Bool.eq_iff_iff, sameKey_iff_same hf hg, sameKey_iff_same hg hf]
  exact ⟨same_symm, same_symm⟩

theorem isKeyable_canonical (f : Form) : f.canonical.isKeyable = f.isKeyable := by
  cases f <;> rfl

/-- What may be a key may be one in every order of its entries. -/
theorem isKeyable_of_same (h : Same f g) (hf : f.isKeyable = true) : g.isKeyable = true := by
  revert hf
  refine h.induction ?_ ?_ ?_ ?_
  · intro a b _ _ hab ha
    rw [← isKeyable_canonical, ← hab, isKeyable_canonical]
    exact ha
  · intro as bs items has
    refine allKeyable_iff.mpr fun b hb => ?_
    obtain ⟨a, ha, hab⟩ := exists_left_of_mem items hb
    exact hab (allKeyable_iff.mp has a ha)
  · intro as bs items has
    refine allKeyable_iff.mpr fun b hb => ?_
    obtain ⟨a, ha, hab⟩ := exists_left_of_mem items hb
    exact hab (allKeyable_iff.mp has a ha)
  · intro as bs cs _ entries perm has
    refine valuesKeyable_iff.mpr fun c hc => ?_
    obtain ⟨a, ha, -, hvalue⟩ := exists_left_of_mem entries (perm.mem_iff.mpr hc)
    exact hvalue (valuesKeyable_iff.mp has a ha)

/-- Keys that are distinct stay so in the same entries in another order. -/
theorem pairwise_of_sameEntry {others : List Entry} (hes : ∀ e ∈ es, e.1.WellFormed)
    (hothers : ∀ e ∈ others, e.1.WellFormed)
    (hdistinct : es.Pairwise fun a b => sameKey a.1 b.1 = false) {bs : List Entry}
    (hbs : List.Forall₂ SameEntry es bs) (hperm : bs.Perm others) :
    others.Pairwise fun a b => sameKey a.1 b.1 = false := by
  have hapart : es.Pairwise fun a b => ¬ Same a.1 b.1 := by
    refine hdistinct.imp_of_mem fun {a b} ha hb hab hsame => ?_
    rw [(sameKey_iff_same (hes a ha) (hes b hb)).mpr hsame] at hab
    cases hab
  have hbsapart : bs.Pairwise fun a b => ¬ Same a.1 b.1 :=
    pairwise_of_forall₂ hbs (fun a b c d hab hcd hac hbd =>
      hac (same_trans hab.1 (same_trans hbd (same_symm hcd.1)))) hapart
  have hothersapart : others.Pairwise fun a b => ¬ Same a.1 b.1 :=
    hbsapart.perm hperm fun h hsame => h (same_symm hsame)
  refine hothersapart.imp_of_mem fun {a b} ha hb hab => ?_
  rw [← Bool.not_eq_true, sameKey_iff_same (hothers a ha) (hothers b hb)]
  exact hab

/-- Forms that are the same as keys are well-formed together. -/
theorem wellFormed_of_same (h : Same f g) (hf : f.WellFormed) : g.WellFormed := by
  revert hf
  refine h.induction ?_ ?_ ?_ ?_
  · intro a b _ hb _ _
    exact wellFormed_atom hb
  · intro as bs items has
    refine wellFormed_list.mpr fun b hb => ?_
    obtain ⟨a, ha, hab⟩ := exists_left_of_mem items hb
    exact hab (wellFormed_list.mp has a ha)
  · intro as bs items has
    refine wellFormed_array.mpr fun b hb => ?_
    obtain ⟨a, ha, hab⟩ := exists_left_of_mem items hb
    exact hab (wellFormed_array.mp has a ha)
  · intro as bs cs hentries entries perm has
    obtain ⟨⟨hkeyable, hdistinct⟩, hinner⟩ := wellFormed_map.mp has
    have hcs : ∀ c ∈ cs, c.1.WellFormed ∧ c.2.WellFormed := by
      intro c hc
      obtain ⟨a, ha, hkey, hvalue⟩ := exists_left_of_mem entries (perm.mem_iff.mpr hc)
      exact ⟨hkey (hinner a ha).1, hvalue (hinner a ha).2⟩
    have hcskeyable : ∀ c ∈ cs, c.1.isKeyable = true := by
      intro c hc
      obtain ⟨a, ha, hac⟩ := exists_left_of_mem hentries (perm.mem_iff.mpr hc)
      exact isKeyable_of_same hac.1 (hkeyable a ha)
    have hcsdistinct := pairwise_of_sameEntry (fun a ha => (hinner a ha).1) (fun c hc => (hcs c hc).1)
      hdistinct hentries perm
    exact wellFormed_map.mpr ⟨⟨hcskeyable, hcsdistinct⟩, hcs⟩

/-! Equality. -/

/-- A form that is no NaN. -/
def NotNaN : Form → Prop
  | number value => value.isNaN = false
  | _ => True

instance : DecidablePred NotNaN
  | number value => inferInstanceAs (Decidable (value.isNaN = false))
  | symbol _ | keyword _ | nil | boolean _ | string _ | identifier _ | list _ | array _ | map _
  | lambda _ => isTrue trivial

theorem allEqual_eq (h : ∀ a ∈ as, ∀ g, equal a g = sameKey a g) :
    allEqual as bs = sameKeys as bs := by
  induction as generalizing bs with
  | nil => cases bs <;> rfl
  | cons a as ih =>
    cases bs with
    | nil => rfl
    | cons b bs =>
      rw [allEqual, sameKeys, h a List.mem_cons_self, ih fun c hc => h c (List.mem_cons_of_mem _ hc)]

theorem entriesEqual_eq {others : List Entry} (h : ∀ e ∈ es, ∀ g, equal e.2 g = sameKey e.2 g) :
    entriesEqual es others = entriesWithin es others := by
  induction es with
  | nil => rfl
  | cons e es ih =>
    rw [entriesEqual, entriesWithin, ih fun c hc => h c (List.mem_cons_of_mem _ hc), lookup?]
    cases others.find? fun other => sameKey e.1 other.1 with
    | none => rfl
    | some b =>
      dsimp only
      rw [h e List.mem_cons_self]

/-- Without NaN outside keys, forms are equal if they are the same as keys. -/
theorem equal_eq_of_outsideKeys (hf : OutsideKeys NotNaN f) : equal f g = sameKey f g := by
  induction f generalizing g with
  | number value =>
    have hvalue : value.isNaN = false := (outsideKeys_atom rfl).mp hf
    cases g <;> first | rfl | exact Number.equal_eq hvalue
  | list items ih =>
    have hitems := (outsideKeys_list.mp hf).2
    cases g <;> first | rfl | exact allEqual_eq fun a ha g => ih a ha (hitems a ha)
  | array items ih =>
    have hitems := (outsideKeys_array.mp hf).2
    cases g <;> first | rfl | exact allEqual_eq fun a ha g => ih a ha (hitems a ha)
  | map entries ihk ihv =>
    have hentries := (outsideKeys_map.mp hf).2
    cases g with
    | map others =>
      rw [equal, sameKey, entriesEqual_eq fun e he g => ihv e he (hentries e he)]
    | _ => rfl
  | _ => cases g <;> rfl

theorem equal_eq_sameKey (hf : Everywhere NotNaN f) : equal f g = sameKey f g :=
  equal_eq_of_outsideKeys hf.outsideKeys

end Sexpr.Form
