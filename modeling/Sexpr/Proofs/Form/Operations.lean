import Sexpr.Proofs.Form.Built
import Sexpr.Proofs.Form.Equality

/-! Operations inside other forms. They are told apart by their ids alone, and to put them into some
other form does not change what they are equal to. -/
namespace Sexpr.Form

variable {f g : Lambda}

theorem equal_lambda : (lambda f == lambda g) = true ↔ f.id = g.id := by
  change (f.id == g.id) = true ↔ f.id = g.id
  exact beq_iff_eq

theorem everywhere_of_fill {p : Form → Prop} {a : Form} {c : Context}
    (h : Everywhere p (c.fill a)) : Everywhere p a := by
  induction c with
  | hole => exact h
  | item before inner after ih => exact ih ((everywhere_list.mp h).2 _ (by simp))
  | element before inner after ih => exact ih ((everywhere_array.mp h).2 _ (by simp))
  | key before inner value after ih => exact ih ((everywhere_map.mp h).2 (_, value) (by simp)).1
  | value before key inner after ih => exact ih ((everywhere_map.mp h).2 (key, _) (by simp)).2

theorem of_forall₂_middle {α : Type} {R : α → α → Prop} {a b : α} {before after : List α}
    (h : List.Forall₂ R (before ++ a :: after) (before ++ b :: after)) : R a b := by
  induction before with
  | nil => exact (List.forall₂_cons.mp h).1
  | cons c before ih => exact ih (List.forall₂_cons.mp h).2

/-- Two maps that differ in one value are the same as keys only if the two values are. -/
theorem sameKey_of_value {key a b : Form} {before after : List Entry}
    (hwell : (map (before ++ (key, a) :: after)).WellFormed)
    (h : sameKey (map (before ++ (key, a) :: after)) (map (before ++ (key, b) :: after)) = true) :
    sameKey a b = true := by
  obtain ⟨⟨-, hdistinct⟩, hentries⟩ := wellFormed_map.mp hwell
  obtain ⟨-, hwithin⟩ := Bool.and_eq_true_iff.mp h
  obtain ⟨found, hfound, hsame⟩ := entriesWithin_iff.mp hwithin (key, a) (by simp)
  obtain ⟨hmem, hkey⟩ := lookup?_eq_some hfound
  obtain ⟨-, hmiddle, hacross⟩ := List.pairwise_append.mp hdistinct
  rcases List.mem_append.mp hmem with hmem | hmem
  · have hapart := hacross found hmem (key, a) List.mem_cons_self
    have hwell := hentries found (List.mem_append_left _ hmem)
    rw [sameKey_symm hwell.1 (hentries (key, a) (by simp)).1, hkey] at hapart
    cases hapart
  · rcases List.mem_cons.mp hmem with rfl | hmem
    · exact hsame
    · rw [(List.pairwise_cons.mp hmiddle).1 found hmem] at hkey
      cases hkey

theorem id_eq_of_sameKey_fill {c : Context} (hwell : (c.fill (lambda f)).WellFormed)
    (h : sameKey (c.fill (lambda f)) (c.fill (lambda g)) = true) : f.id = g.id := by
  induction c with
  | hole => exact beq_iff_eq.mp h
  | item before inner after ih =>
    have hmiddle := of_forall₂_middle (R := fun a b => sameKey a b = true) (sameKeys_iff.mp h)
    exact ih (wellFormed_list.mp hwell _ (by simp)) hmiddle
  | element before inner after ih =>
    have hmiddle := of_forall₂_middle (R := fun a b => sameKey a b = true) (sameKeys_iff.mp h)
    exact ih (wellFormed_array.mp hwell _ (by simp)) hmiddle
  | key before inner value after ih =>
    -- No key of a map holds an operation.
    obtain ⟨⟨hkeys, -⟩, hentries⟩ := wellFormed_map.mp hwell
    have hkeyable := hkeys (inner.fill (lambda f), value) (by simp)
    have hplain := (isKeyable_iff (hentries (inner.fill (lambda f), value) (by simp)).1).mp hkeyable
    exact absurd ((everywhere_atom rfl).mp (everywhere_of_fill hplain)) not_false
  | value before key inner after ih =>
    have hinner := (wellFormed_map.mp hwell).2 (key, inner.fill (lambda f)) (by simp)
    exact ih hinner.2 (sameKey_of_value hwell h)

/-- Two forms that differ in one operation are equal just if it is the same one, and no NaN keeps
them apart. -/
theorem equal_fill_lambda {c : Context} (hwell : (c.fill (lambda f)).WellFormed) :
    (c.fill (lambda f) == c.fill (lambda g)) = true ↔
      (lambda f == lambda g) = true ∧ OutsideKeys NotNaN (c.fill (lambda f)) := by
  rw [equal_lambda]
  refine equal_iff.trans (and_congr_left fun _ => ⟨id_eq_of_sameKey_fill hwell, fun hid => ?_⟩)
  have hsame : sameKey (lambda f) (lambda g) = true := beq_iff_eq.mpr hid
  exact (sameKey_fill (wellFormed_atom rfl) (wellFormed_atom rfl) hwell hsame).2

end Sexpr.Form
