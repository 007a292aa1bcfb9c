import Sexpr.Form.Hash
import Sexpr.Proofs.Form.Sameness

/-! Keys that are the same are written into a hasher in the same way, whatever order the entries of maps
are held in. So a table that looks for a key by its digest first does not miss it. -/
namespace Sexpr

theorem Number.canonical_canonical (x : Number) : x.canonical.canonical = x.canonical := by
  rcases canonical_cases x with ⟨-, h⟩ | ⟨-, h⟩ | h
  · rw [h]
    decide
  · rw [h]
    decide
  · rw [h, h]

/-- Sorting forgets the order of words. -/
theorem mergeSort_eq_of_perm {as bs : List UInt64} (h : as.Perm bs) :
    as.mergeSort (· ≤ ·) = bs.mergeSort (· ≤ ·) := by
  have htrans (a b c : UInt64) (hab : decide (a ≤ b) = true) (hbc : decide (b ≤ c) = true) :
      decide (a ≤ c) = true :=
    decide_eq_true (UInt64.le_trans (of_decide_eq_true hab) (of_decide_eq_true hbc))
  have htotal (a b : UInt64) : (decide (a ≤ b) || decide (b ≤ a)) = true := by
    rw [Bool.or_eq_true, decide_eq_true_eq, decide_eq_true_eq]
    exact UInt64.le_total a b
  have hsorted (ws : List UInt64) : (ws.mergeSort (· ≤ ·)).Pairwise (· ≤ ·) :=
    (List.pairwise_mergeSort htrans htotal ws).imp of_decide_eq_true
  have hperm : (as.mergeSort (· ≤ ·)).Perm (bs.mergeSort (· ≤ ·)) :=
    (List.mergeSort_perm as _).trans (h.trans (List.mergeSort_perm bs _).symm)
  exact hperm.eq_of_pairwise (fun _ _ _ _ => UInt64.le_antisymm) (hsorted as) (hsorted bs)

namespace Form

variable {f g : Form} {as bs : List Form} {es others : List Entry} {digest : Digest}

/-- What an atom writes is what it has in common with all atoms that are the same, if it is no
operation. -/
theorem hashWrites_canonical (hf : f.isKeyable = true) (hatom : f.isAtom = true) :
    f.canonical.hashWrites digest = f.hashWrites digest := by
  cases f with
  | number x =>
    rw [canonical, hashWrites, hashWrites, Number.canonical_canonical]
    rfl
  | identifier name | lambda operation => cases hf
  | list items | array items | map entries => cases hatom
  | _ => rfl

theorem itemWrites_congr
    (h : List.Forall₂ (fun a b => a.hashWrites digest = b.hashWrites digest) as bs) :
    itemWrites digest as = itemWrites digest bs := by
  induction h with
  | nil => rfl
  | cons hab _ ih => rw [itemWrites, itemWrites, hab, ih]

theorem entryDigests_congr (h : List.Forall₂ (fun a b => a.1.hashWrites digest = b.1.hashWrites digest ∧
      a.2.hashWrites digest = b.2.hashWrites digest) es others) :
    entryDigests digest es = entryDigests digest others := by
  induction h with
  | nil => rfl
  | cons hab _ ih => rw [entryDigests, entryDigests, hab.1, hab.2, ih]

theorem entryDigests_eq_map (digest : Digest) (es : List Entry) : entryDigests digest es =
    es.map fun e => digest (e.1.hashWrites digest ++ e.2.hashWrites digest) := by
  induction es with
  | nil => rfl
  | cons e es ih => rw [entryDigests, ih, List.map_cons]

theorem entryDigests_perm (h : es.Perm others) :
    (entryDigests digest es).Perm (entryDigests digest others) := by
  rw [entryDigests_eq_map, entryDigests_eq_map]
  exact h.map _

theorem hashWrites_list : (list as).hashWrites digest =
    .variant 7 :: .size as.length :: itemWrites digest as := by
  rw [hashWrites]
  rfl

theorem hashWrites_array : (array as).hashWrites digest =
    .variant 8 :: .size as.length :: itemWrites digest as := by
  rw [hashWrites]
  rfl

theorem hashWrites_map : (map es).hashWrites digest = .variant 9 :: .size es.length ::
    ((entryDigests digest es).mergeSort (· ≤ ·)).map .word := by
  rw [hashWrites]
  rfl

/-- Forms of one shape whose atoms are the same write the same. -/
theorem hashWrites_eq_of_same (h : Same f g) (hf : f.WellFormed) (hkeyable : f.isKeyable = true) :
    f.hashWrites digest = g.hashWrites digest := by
  revert hf hkeyable
  refine h.induction ?_ ?_ ?_ ?_
  · intro a b ha hb hab _ hkeyable
    have hbkeyable : b.isKeyable = true := by
      rw [← isKeyable_canonical, ← hab, isKeyable_canonical]
      exact hkeyable
    rw [← hashWrites_canonical hkeyable ha, hab, hashWrites_canonical hbkeyable hb]
  · intro as bs items hwell hkeyable
    have hitems := forall₂_imp_of_mem items fun a ha b _ hab =>
      hab (wellFormed_list.mp hwell a ha) (allKeyable_iff.mp hkeyable a ha)
    rw [hashWrites_list, hashWrites_list, items.length_eq, itemWrites_congr hitems]
  · intro as bs items hwell hkeyable
    have hitems := forall₂_imp_of_mem items fun a ha b _ hab =>
      hab (wellFormed_array.mp hwell a ha) (allKeyable_iff.mp hkeyable a ha)
    rw [hashWrites_array, hashWrites_array, items.length_eq, itemWrites_congr hitems]
  · intro as bs cs _ entries perm hwell hkeyable
    obtain ⟨⟨hkeys, -⟩, hinner⟩ := wellFormed_map.mp hwell
    have hvalues := valuesKeyable_iff.mp hkeyable
    have hentries := forall₂_imp_of_mem entries fun a ha b _ hab =>
      And.intro (hab.1 (hinner a ha).1 (hkeys a ha)) (hab.2 (hinner a ha).2 (hvalues a ha))
    have hlength : as.length = cs.length := entries.length_eq.trans perm.length_eq
    rw [hashWrites_map, hashWrites_map, hlength, entryDigests_congr hentries,
      mergeSort_eq_of_perm (entryDigests_perm perm)]

/-- Keys that are the same feed a hasher the same writes, however their maps are gone through, and
whatever a hasher gives for what an entry writes. -/
theorem hashWrites_eq_of_sameKey {a b a' b' : Form} (ha : a.WellFormed) (hb : b.WellFormed)
    (hkeyable : a.isKeyable = true) (hab : sameKey a b = true) (haa' : Reordered a a')
    (hbb' : Reordered b b') (digest : Digest) : a'.hashWrites digest = b'.hashWrites digest := by
  have hsame := (sameKey_iff_same ha hb).mp hab
  have ha' := same_of_reordered haa'
  have hacross := same_trans (same_trans (same_symm ha') hsame) (same_of_reordered hbb')
  exact hashWrites_eq_of_same hacross (wellFormed_of_same ha' ha) (isKeyable_of_same ha' hkeyable)

/-- Both zeros and two NaN, in maps that are held and gone through in opposite orders, one of them a
key. -/
theorem hashWrites_eq_of_sameKey_zeros :
    let nan := number (.ofMagnitude false (Number.infinite + 1))
    let other := number (.ofMagnitude true (Number.infinite + 2))
    let a := list [map [(number .zero, nan), (map [(nil, keyword "k")], string "")]]
    let b := list [map [(map [(nil, keyword "k")], string ""), (number (.ofMagnitude true 0), other)]]
    let b' := list [map [(number (.ofMagnitude true 0), other), (map [(nil, keyword "k")], string "")]]
    (a.WellFormed ∧ b.WellFormed ∧ a.isKeyable = true ∧ sameKey a b = true) ∧
      ∀ digest, a.hashWrites digest = b'.hashWrites digest := by
  intro nan other a b b'
  have ha : a.WellFormed := by decide
  have hb : b.WellFormed := by decide
  have hkeyable : a.isKeyable = true := by decide
  have hab : sameKey a b = true := by decide
  have hbb' : Reordered b b' := .list (.cons (reordered_map (.swap _ _ _)) .nil)
  exact ⟨⟨ha, hb, hkeyable, hab⟩, hashWrites_eq_of_sameKey ha hb hkeyable hab (reordered_refl a) hbb'⟩

end Form
end Sexpr
