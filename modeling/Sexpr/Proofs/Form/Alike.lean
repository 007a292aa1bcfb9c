import Mathlib.Data.List.Perm.Basic
import Sexpr.Proofs.Form.Subforms

/-! Forms of one shape: related atoms at the same positions, but maps may hold their entries in
different orders. -/
namespace Sexpr

section Partners

variable {α β : Type} {R S : α → β → Prop} {as : List α} {bs : List β}

theorem forall₂_imp_of_mem (h : List.Forall₂ R as bs)
    (himp : ∀ a ∈ as, ∀ b ∈ bs, R a b → S a b) : List.Forall₂ S as bs := by
  obtain ⟨hlength, hzip⟩ := List.forall₂_iff_zip.mp h
  refine List.forall₂_iff_zip.mpr ⟨hlength, fun {a b} hm => ?_⟩
  obtain ⟨ha, hb⟩ := List.of_mem_zip hm
  exact himp a ha b hb (hzip hm)

theorem forall₂_congr_of_mem (h : ∀ a ∈ as, ∀ b ∈ bs, R a b ↔ S a b) :
    List.Forall₂ R as bs ↔ List.Forall₂ S as bs := by
  constructor
  · intro hR
    exact forall₂_imp_of_mem hR fun a ha b hb => (h a ha b hb).mp
  · intro hS
    exact forall₂_imp_of_mem hS fun a ha b hb => (h a ha b hb).mpr

/-- Transitivity need only hold at the members, as it does in an induction over forms. -/
theorem forall₂_trans_of_mem {R S T : α → α → Prop} {as bs cs : List α}
    (hR : List.Forall₂ R as bs) (hS : List.Forall₂ S bs cs)
    (htrans : ∀ a ∈ as, ∀ b c, R a b → S b c → T a c) : List.Forall₂ T as cs := by
  induction hR generalizing cs with
  | nil =>
    cases hS
    exact .nil
  | cons hab _ ih =>
    cases hS with
    | cons hbc hS =>
      have hhead := htrans _ List.mem_cons_self _ _ hab hbc
      exact .cons hhead (ih hS fun a ha => htrans a (List.mem_cons_of_mem _ ha))

theorem exists_left_of_mem (h : List.Forall₂ R as bs) {b : β} (hb : b ∈ bs) : ∃ a ∈ as, R a b := by
  induction h with
  | nil => cases hb
  | @cons a c as bs hac _ ih =>
    rcases List.mem_cons.mp hb with rfl | hb
    · exact ⟨a, List.mem_cons_self, hac⟩
    · obtain ⟨x, hx, hxb⟩ := ih hb
      exact ⟨x, List.mem_cons_of_mem _ hx, hxb⟩

theorem exists_right_of_mem (h : List.Forall₂ R as bs) {a : α} (ha : a ∈ as) : ∃ b ∈ bs, R a b :=
  exists_left_of_mem (R := flip R) (List.Forall₂.flip h) ha

/-- What holds of any two items on the one side holds of their partners. -/
theorem pairwise_of_forall₂ {P : α → α → Prop} {Q : β → β → Prop} (h : List.Forall₂ R as bs)
    (hPQ : ∀ a b c d, R a b → R c d → P a c → Q b d) (hP : as.Pairwise P) : bs.Pairwise Q := by
  induction h with
  | nil => exact .nil
  | cons hab hrest ih =>
    obtain ⟨hhead, htail⟩ := List.pairwise_cons.mp hP
    refine List.pairwise_cons.mpr ⟨fun d hd => ?_, ih htail⟩
    obtain ⟨c, hc, hcd⟩ := exists_left_of_mem hrest hd
    exact hPQ _ _ c d hab hcd (hhead c hc)

/-- If everything has a partner among no more than there are of them, and no two share one, then
all are partners. -/
theorem exists_perm_of_partners (hlength : bs.length ≤ as.length)
    (hpartner : ∀ a ∈ as, ∃ b ∈ bs, R a b)
    (hunique : as.Pairwise fun a c => ∀ b, R a b → ¬ R c b) :
    ∃ cs, List.Forall₂ R as cs ∧ cs.Perm bs := by
  induction as generalizing bs with
  | nil =>
    have : bs = [] := List.length_eq_zero_iff.mp (Nat.le_zero.mp hlength)
    exact ⟨[], .nil, by rw [this]⟩
  | cons a as ih =>
    obtain ⟨hhead, htail⟩ := List.pairwise_cons.mp hunique
    obtain ⟨b, hb, hab⟩ := hpartner a List.mem_cons_self
    obtain ⟨s, t, rfl⟩ := List.append_of_mem hb
    have hrest : ∀ c ∈ as, ∃ d ∈ s ++ t, R c d := by
      intro c hc
      obtain ⟨d, hd, hcd⟩ := hpartner c (List.mem_cons_of_mem _ hc)
      have hne : d ≠ b := by
        rintro rfl
        exact hhead c hc d hab hcd
      refine ⟨d, ?_, hcd⟩
      simpa [hne] using hd
    have hle : (s ++ t).length ≤ as.length := by
      simp only [List.length_append, List.length_cons] at hlength ⊢
      omega
    obtain ⟨cs, hcs, hperm⟩ := ih hle hrest htail
    exact ⟨b :: cs, .cons hab hcs, (hperm.cons b).trans List.perm_middle.symm⟩

end Partners

namespace Form

/-- Related atoms at the same positions. The entries of a map pair up in some order. -/
inductive Alike (R : Form → Form → Prop) : Form → Form → Prop where
  | atom {a b : Form} (ha : a.isAtom = true) (hb : b.isAtom = true) (h : R a b) : Alike R a b
  | list {as bs : List Form} (items : List.Forall₂ (Alike R) as bs) : Alike R (list as) (list bs)
  | array {as bs : List Form} (items : List.Forall₂ (Alike R) as bs) :
    Alike R (array as) (array bs)
  | map {as bs cs : List Entry} (keys : List.Forall₂ (fun a b => Alike R a.1 b.1) as bs)
      (values : List.Forall₂ (fun a b => Alike R a.2 b.2) as bs) (perm : bs.Perm cs) :
    Alike R (map as) (map cs)

/-- The same form, but for the order in which maps hold their entries. -/
def Reordered : Form → Form → Prop := Alike Eq

variable {R S : Form → Form → Prop} {f g h : Form} {as bs cs : List Form} {es : List Entry}

def EntryAlike (R : Form → Form → Prop) (a b : Entry) : Prop := Alike R a.1 b.1 ∧ Alike R a.2 b.2

theorem alike_atom (hf : f.isAtom = true) : Alike R f g ↔ g.isAtom = true ∧ R f g := by
  constructor
  · intro h
    cases h with
    | atom _ hg h => exact ⟨hg, h⟩
    | list | array | map => cases hf
  · rintro ⟨hg, h⟩
    exact .atom hf hg h

theorem alike_list : Alike R (list as) g ↔ ∃ bs, List.Forall₂ (Alike R) as bs ∧ g = list bs := by
  constructor
  · intro h
    cases h with
    | atom ha => cases ha
    | list items => exact ⟨_, items, rfl⟩
  · rintro ⟨bs, items, rfl⟩
    exact .list items

theorem alike_array : Alike R (array as) g ↔ ∃ bs, List.Forall₂ (Alike R) as bs ∧ g = array bs := by
  constructor
  · intro h
    cases h with
    | atom ha => cases ha
    | array items => exact ⟨_, items, rfl⟩
  · rintro ⟨bs, items, rfl⟩
    exact .array items

theorem alike_map : Alike R (map es) g ↔
    ∃ bs cs, List.Forall₂ (EntryAlike R) es bs ∧ bs.Perm cs ∧ g = map cs := by
  constructor
  · intro h
    cases h with
    | atom ha => cases ha
    | map keys values perm =>
      exact ⟨_, _, keys.mp (fun _ _ hk hv => ⟨hk, hv⟩) values, perm, rfl⟩
  · rintro ⟨bs, cs, entries, perm, rfl⟩
    exact .map (entries.imp fun _ _ h => h.1) (entries.imp fun _ _ h => h.2) perm

namespace Alike

/-- What holds of two alike forms as soon as it holds of the forms inside them. -/
@[elab_as_elim]
theorem induction {motive : Form → Form → Prop}
    (atom : ∀ a b, a.isAtom = true → b.isAtom = true → R a b → motive a b)
    (list : ∀ as bs, List.Forall₂ motive as bs → motive (Form.list as) (Form.list bs))
    (array : ∀ as bs, List.Forall₂ motive as bs → motive (Form.array as) (Form.array bs))
    (map : ∀ as bs cs, List.Forall₂ (EntryAlike R) as bs →
      List.Forall₂ (fun a b => motive a.1 b.1 ∧ motive a.2 b.2) as bs → bs.Perm cs →
        motive (Form.map as) (Form.map cs))
    (h : Alike R f g) : motive f g := by
  induction f generalizing g with
  | list items ih =>
    obtain ⟨bs, hitems, rfl⟩ := alike_list.mp h
    exact list items bs (forall₂_imp_of_mem hitems fun a ha b _ => ih a ha)
  | array items ih =>
    obtain ⟨bs, hitems, rfl⟩ := alike_array.mp h
    exact array items bs (forall₂_imp_of_mem hitems fun a ha b _ => ih a ha)
  | map entries ihk ihv =>
    obtain ⟨bs, cs, hentries, hperm, rfl⟩ := alike_map.mp h
    refine map entries bs cs hentries (forall₂_imp_of_mem hentries fun a ha b _ hab => ?_) hperm
    exact ⟨ihk a ha hab.1, ihv a ha hab.2⟩
  | _ =>
    obtain ⟨hg, h⟩ := (alike_atom rfl).mp h
    exact atom _ _ rfl hg h

theorem refl (hR : ∀ a, a.isAtom = true → R a a) (f : Form) : Alike R f f := by
  induction f with
  | list items ih => exact .list (List.forall₂_same.mpr ih)
  | array items ih => exact .array (List.forall₂_same.mpr ih)
  | map entries ihk ihv =>
    exact .map (List.forall₂_same.mpr ihk) (List.forall₂_same.mpr ihv) (.refl _)
  | _ => exact .atom rfl rfl (hR _ rfl)

theorem symm (hR : ∀ a b, R a b → R b a) (h : Alike R f g) : Alike R g f := by
  refine h.induction ?_ ?_ ?_ ?_
  · intro a b ha hb hab
    exact .atom hb ha (hR a b hab)
  · intro as bs items
    exact .list (List.Forall₂.flip items)
  · intro as bs items
    exact .array (List.Forall₂.flip items)
  · intro as bs cs _ entries perm
    have hback : List.Forall₂ (EntryAlike R) bs as := List.Forall₂.flip entries
    obtain ⟨ds, hds, hperm⟩ := List.perm_comp_forall₂ perm.symm hback
    exact alike_map.mpr ⟨ds, as, hds, hperm, rfl⟩

theorem trans (hR : ∀ a b c, R a b → R b c → R a c) (hfg : Alike R f g) (hgh : Alike R g h) :
    Alike R f h := by
  induction f generalizing g h with
  | list items ih =>
    obtain ⟨bs, hab, rfl⟩ := alike_list.mp hfg
    obtain ⟨cs, hbc, rfl⟩ := alike_list.mp hgh
    exact .list (forall₂_trans_of_mem hab hbc fun a ha b c => ih a ha)
  | array items ih =>
    obtain ⟨bs, hab, rfl⟩ := alike_array.mp hfg
    obtain ⟨cs, hbc, rfl⟩ := alike_array.mp hgh
    exact .array (forall₂_trans_of_mem hab hbc fun a ha b c => ih a ha)
  | map entries ihk ihv =>
    obtain ⟨bs, cs, hab, hbc, rfl⟩ := alike_map.mp hfg
    obtain ⟨ds, es, hcd, hde, hmap⟩ := alike_map.mp hgh
    cases hmap
    -- The second map pairs entries in the order of the first one's other side.
    obtain ⟨ds', hbd, hperm⟩ := List.perm_comp_forall₂ hbc hcd
    have had : List.Forall₂ (EntryAlike R) entries ds' := by
      refine forall₂_trans_of_mem hab hbd fun a ha b d hab hbd => ?_
      exact ⟨ihk a ha hab.1 hbd.1, ihv a ha hab.2 hbd.2⟩
    exact alike_map.mpr ⟨ds', es, had, hperm.trans hde, rfl⟩
  | _ =>
    obtain ⟨hg, hfg⟩ := (alike_atom rfl).mp hfg
    obtain ⟨hh, hgh⟩ := (alike_atom hg).mp hgh
    exact .atom rfl hh (hR _ _ _ hfg hgh)

theorem mono (hRS : ∀ a b, a.isAtom = true → R a b → S a b) (h : Alike R f g) : Alike S f g := by
  refine h.induction ?_ ?_ ?_ ?_
  · intro a b ha hb hab
    exact .atom ha hb (hRS a b ha hab)
  · intro as bs items
    exact .list items
  · intro as bs items
    exact .array items
  · intro as bs cs _ entries perm
    exact alike_map.mpr ⟨bs, cs, entries, perm, rfl⟩

/-- A bound on the depth of a form goes for every other of that shape. -/
theorem depth_le (h : Alike R f g) (n : Nat) (hf : f.depth ≤ n) : g.depth ≤ n := by
  revert n
  refine h.induction ?_ ?_ ?_ ?_
  · intro a b _ hb _ n _
    rw [depth_atom hb]
    exact Nat.zero_le n
  · intro as bs items n hn
    cases n with
    | zero => cases hn
    | succ n =>
      refine depth_list_le.mpr fun b hb => ?_
      obtain ⟨a, ha, hab⟩ := exists_left_of_mem items hb
      exact hab n (depth_list_le.mp hn a ha)
  · intro as bs items n hn
    cases n with
    | zero => cases hn
    | succ n =>
      refine depth_array_le.mpr fun b hb => ?_
      obtain ⟨a, ha, hab⟩ := exists_left_of_mem items hb
      exact hab n (depth_array_le.mp hn a ha)
  · intro as bs cs _ entries perm n hn
    cases n with
    | zero => cases hn
    | succ n =>
      refine depth_map_le.mpr fun c hc => ?_
      obtain ⟨a, ha, hkey, hvalue⟩ := exists_left_of_mem entries (perm.mem_iff.mpr hc)
      obtain ⟨hakey, havalue⟩ := depth_map_le.mp hn a ha
      exact ⟨hkey n hakey, hvalue n havalue⟩

/-- A property that only atoms can lack goes from one form to the other. -/
theorem everywhere {p : Form → Prop} (hp : ∀ f, f.isAtom = false → p f)
    (hR : ∀ a b, b.isAtom = true → R a b → p a → p b) (h : Alike R f g) (hf : Everywhere p f) :
    Everywhere p g := by
  revert hf
  refine h.induction ?_ ?_ ?_ ?_
  · intro a b ha hb hab hpa
    exact (everywhere_atom hb).mpr (hR a b hb hab ((everywhere_atom ha).mp hpa))
  · intro as bs items has
    refine everywhere_list.mpr ⟨hp _ rfl, fun b hb => ?_⟩
    obtain ⟨a, ha, hab⟩ := exists_left_of_mem items hb
    exact hab ((everywhere_list.mp has).2 a ha)
  · intro as bs items has
    refine everywhere_array.mpr ⟨hp _ rfl, fun b hb => ?_⟩
    obtain ⟨a, ha, hab⟩ := exists_left_of_mem items hb
    exact hab ((everywhere_array.mp has).2 a ha)
  · intro as bs cs _ entries perm has
    refine everywhere_map.mpr ⟨hp _ rfl, fun c hc => ?_⟩
    obtain ⟨a, ha, hkey, hvalue⟩ := exists_left_of_mem entries (perm.mem_iff.mpr hc)
    obtain ⟨hakey, havalue⟩ := (everywhere_map.mp has).2 a ha
    exact ⟨hkey hakey, hvalue havalue⟩

end Alike

theorem reordered_refl (f : Form) : Reordered f f := Alike.refl (fun _ _ => rfl) f

theorem reordered_map {es others : List Entry} (h : es.Perm others) :
    Reordered (map es) (map others) :=
  .map (List.forall₂_same.mpr fun e _ => reordered_refl e.1)
    (List.forall₂_same.mpr fun e _ => reordered_refl e.2) h

end Form
end Sexpr
