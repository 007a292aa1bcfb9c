import Sexpr.Proofs.Form.Congruence

/-! The laws of equality. It is sameness as keys but for what is not a number: a NaN outside the keys
of maps equals nothing, and inside a key it is the same as any other. -/
namespace Sexpr

theorem Number.isNaN_of_equal {x y : Number} (h : x.equal y = true) : x.isNaN = false := by
  cases hx : x.isNaN with
  | false => rfl
  | true => simp [equal, hx] at h

namespace Form

variable {f g h : Form} {as bs : List Form} {es others : List Entry}

theorem exists_equal_of_allEqual (h : allEqual as bs = true) :
    ∀ a ∈ as, ∃ b, equal a b = true := by
  induction as generalizing bs with
  | nil => simp
  | cons a as ih =>
    cases bs with
    | nil => cases h
    | cons b bs =>
      obtain ⟨hhead, htail⟩ := Bool.and_eq_true_iff.mp h
      exact List.forall_mem_cons.mpr ⟨⟨b, hhead⟩, ih htail⟩

theorem exists_equal_of_entriesEqual (h : entriesEqual es others = true) :
    ∀ e ∈ es, ∃ g, equal e.2 g = true := by
  induction es with
  | nil => simp
  | cons e es ih =>
    obtain ⟨hhead, htail⟩ := Bool.and_eq_true_iff.mp h
    refine List.forall_mem_cons.mpr ⟨?_, ih htail⟩
    cases hfound : lookup? e.1 others with
    | none => simp [hfound] at hhead
    | some other =>
      rw [hfound] at hhead
      exact ⟨other.2, hhead⟩

/-- What is equal to anything has no NaN outside keys. -/
theorem outsideKeys_of_equal (h : equal f g = true) : OutsideKeys NotNaN f := by
  induction f generalizing g with
  | number x =>
    cases g with
    | number y => exact (outsideKeys_atom rfl).mpr (Number.isNaN_of_equal h)
    | _ => cases h
  | list items ih =>
    cases g with
    | list others =>
      refine outsideKeys_list.mpr ⟨trivial, fun a ha => ?_⟩
      obtain ⟨b, hb⟩ := exists_equal_of_allEqual h a ha
      exact ih a ha hb
    | _ => cases h
  | array items ih =>
    cases g with
    | array others =>
      refine outsideKeys_array.mpr ⟨trivial, fun a ha => ?_⟩
      obtain ⟨b, hb⟩ := exists_equal_of_allEqual h a ha
      exact ih a ha hb
    | _ => cases h
  | map entries _ ihv =>
    cases g with
    | map others =>
      obtain ⟨-, hentries⟩ := Bool.and_eq_true_iff.mp h
      refine outsideKeys_map.mpr ⟨trivial, fun e he => ?_⟩
      obtain ⟨b, hb⟩ := exists_equal_of_entriesEqual hentries e he
      exact ihv e he hb
    | _ => cases h
  | _ => exact (outsideKeys_atom rfl).mpr trivial

theorem equal_iff : equal f g = true ↔ sameKey f g = true ∧ OutsideKeys NotNaN f := by
  constructor
  · intro h
    have hf := outsideKeys_of_equal h
    exact ⟨equal_eq_of_outsideKeys hf ▸ h, hf⟩
  · rintro ⟨h, hf⟩
    exact equal_eq_of_outsideKeys hf ▸ h

theorem notNaN_canonical (f : Form) : f.canonical.NotNaN ↔ f.NotNaN := by
  cases f with
  | number x =>
    change x.canonical.isNaN = false ↔ x.isNaN = false
    rw [Number.isNaN_canonical]
  | _ => exact Iff.rfl

/-- Forms that are the same as keys have NaN at the same places outside of theirs. -/
theorem outsideKeys_of_same (h : Same f g) (hf : OutsideKeys NotNaN f) : OutsideKeys NotNaN g := by
  revert hf
  refine h.induction ?_ ?_ ?_ ?_
  · intro a b ha hb hab hpa
    have hcanonical := (notNaN_canonical a).mpr ((outsideKeys_atom ha).mp hpa)
    rw [hab] at hcanonical
    exact (outsideKeys_atom hb).mpr ((notNaN_canonical b).mp hcanonical)
  · intro as bs items has
    refine outsideKeys_list.mpr ⟨trivial, fun b hb => ?_⟩
    obtain ⟨a, ha, hab⟩ := exists_left_of_mem items hb
    exact hab ((outsideKeys_list.mp has).2 a ha)
  · intro as bs items has
    refine outsideKeys_array.mpr ⟨trivial, fun b hb => ?_⟩
    obtain ⟨a, ha, hab⟩ := exists_left_of_mem items hb
    exact hab ((outsideKeys_array.mp has).2 a ha)
  · intro as bs cs _ entries perm has
    refine outsideKeys_map.mpr ⟨trivial, fun c hc => ?_⟩
    obtain ⟨a, ha, -, hvalue⟩ := exists_left_of_mem entries (perm.mem_iff.mpr hc)
    exact hvalue ((outsideKeys_map.mp has).2 a ha)

theorem equal_symm (hf : f.WellFormed) (hg : g.WellFormed) (h : equal f g = true) :
    equal g f = true := by
  obtain ⟨hsame, hnan⟩ := equal_iff.mp h
  have hgnan := outsideKeys_of_same ((sameKey_iff_same hf hg).mp hsame) hnan
  rw [sameKey_symm hf hg] at hsame
  exact equal_iff.mpr ⟨hsame, hgnan⟩

theorem equal_trans (hf : f.WellFormed) (hg : g.WellFormed) (hh : h.WellFormed)
    (hfg : equal f g = true) (hgh : equal g h = true) : equal f h = true := by
  obtain ⟨hsamefg, hnan⟩ := equal_iff.mp hfg
  obtain ⟨hsamegh, -⟩ := equal_iff.mp hgh
  exact equal_iff.mpr ⟨sameKey_trans hf hg hh hsamefg hsamegh, hnan⟩

theorem equal_refl_iff (hf : f.WellFormed) : equal f f = true ↔ OutsideKeys NotNaN f := by
  rw [equal_iff]
  exact and_iff_right (sameKey_refl hf)

/-- Equality is symmetric and transitive, forms without NaN outside keys are equal to themselves, and
among these forms equality is sameness as keys. -/
theorem equal_laws {f g h : Form} (hf : f.WellFormed) (hg : g.WellFormed) (hh : h.WellFormed) :
    ((f == g) = (g == f) ∧ ((f == g) = true → (g == h) = true → (f == h) = true)) ∧
      ((f == f) = true ↔ OutsideKeys NotNaN f) ∧
      ((f == g) = true ↔ sameKey f g = true ∧ OutsideKeys NotNaN f) := by
  refine ⟨⟨?_, equal_trans hf hg hh⟩, equal_refl_iff hf, equal_iff⟩
  rw [Bool.eq_iff_iff]
  exact ⟨equal_symm hf hg, equal_symm hg hf⟩

/-- A NaN is harmless inside a key, but not as a value. -/
theorem equal_laws_nan :
    let nan := number (.ofMagnitude false (Number.infinite + 1))
    let other := number (.ofMagnitude true (Number.infinite + 2))
    let f := map [(list [nan], nil), (number .zero, string "zero")]
    let g := map [(number (.ofMagnitude true 0), string "zero"), (list [other], nil)]
    (f.WellFormed ∧ g.WellFormed) ∧ (g == f) = true ∧
      (map [(nil, nan)] == map [(nil, nan)]) = false := by
  intro nan other f g
  have hf : f.WellFormed := by decide
  have hg : g.WellFormed := by decide
  have hnil : (map [(nil, nan)]).WellFormed := by decide
  obtain ⟨⟨hsymm, -⟩, -, hiff⟩ := equal_laws hf hg hf
  obtain ⟨-, hrefl, -⟩ := equal_laws hnil hnil hnil
  refine ⟨⟨hf, hg⟩, hsymm ▸ hiff.mpr (by decide), ?_⟩
  rw [Bool.eq_false_iff, ne_eq, hrefl]
  decide

end Form
end Sexpr
