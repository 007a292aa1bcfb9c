import Sexpr.Proofs.Reader.Backslashes
import Sexpr.Proofs.Reader.RoundTrip

/-! Which forms are read again from the line that shows them. The line has the backslashes of the strings
it shows and no others. To be read from it these strings would need one more for each quote and each
backslash in them, so there is none. -/
namespace Sexpr

namespace Form

variable {f g : Form} {fs : List Form} {es : List Entry} {c : Char}

theorem count_print_atom (hatom : f.isAtom = true) (hf : f.Legible) :
    (f.print .plain).toList.count '\\' = f.weight (List.count '\\') := by
  have hother (hkeeps : Style.Keeps .plain f) (hne : ∀ value, f ≠ string value) :
      (f.print .plain).toList.count '\\' = 0 :=
    List.count_eq_zero.mpr (Token.notMem_of_denotes (denotes_print hatom hf hkeeps)
      (whole_print hatom hf hkeeps) hne)
  cases f with
  | string value =>
    rw [toList_print_string, List.count_cons_of_ne (by decide), List.count_append]
    rfl
  | _ => exact hother trivial (by simp)

theorem count_spaced (hc : c ≠ ' ') (texts : List String) :
    (spaced texts).toList.count c = (texts.map fun text => text.toList.count c).sum := by
  induction texts with
  | nil => rfl
  | cons text texts ih =>
    cases texts with
    | nil => simp [spaced]
    | cons next texts =>
      rw [List.map_cons, List.sum_cons, ← ih, spaced, String.intercalate_cons_cons,
        String.toList_append, String.toList_append, List.count_append, List.count_append]
      have hspace : (" ".toList).count c = 0 := List.count_eq_zero.mpr (by simpa using hc)
      rw [hspace, spaced]
      omega

theorem count_texts (hc : c ≠ ' ') {w : List Char → Nat}
    (h : ∀ f ∈ fs, (f.print .plain).toList.count c = f.total w) :
    (spaced (texts .plain fs)).toList.count c = itemsTotal w fs := by
  rw [count_spaced hc, texts_eq_map, List.map_map, itemsTotal]
  exact congrArg List.sum (List.map_congr_left h)

theorem count_entryTexts (hc : c ≠ ' ') {w : List Char → Nat}
    (h : ∀ e ∈ es, (e.1.print .plain).toList.count c = e.1.total w ∧
      (e.2.print .plain).toList.count c = e.2.total w) :
    (spaced (entryTexts .plain es)).toList.count c = entriesTotal w es := by
  rw [count_spaced hc]
  induction es with
  | nil => rfl
  | cons e es ih =>
    obtain ⟨⟨hkey, hvalue⟩, hes⟩ := List.forall_mem_cons.mp h
    rw [entryTexts, List.map_cons, List.map_cons, List.sum_cons, List.sum_cons, hkey, hvalue, ih hes,
      entriesTotal_cons, Nat.add_assoc]

theorem count_delimited (start close text : String) (hs : c ∉ start.toList) (hc : c ∉ close.toList) :
    (start ++ text ++ close).toList.count c = text.toList.count c := by
  rw [String.toList_append, String.toList_append, List.count_append, List.count_append,
    List.count_eq_zero.mpr hs, List.count_eq_zero.mpr hc, Nat.zero_add, Nat.add_zero]

theorem count_print (hf : Everywhere Legible f) :
    (f.print .plain).toList.count '\\' = f.total (List.count '\\') := by
  induction f with
  | list items ih =>
    have hitems := (everywhere_list.mp hf).2
    rw [print, count_delimited _ _ _ (by decide) (by decide), total_list]
    exact count_texts (by decide) fun a ha => ih a ha (hitems a ha)
  | array items ih =>
    have hitems := (everywhere_array.mp hf).2
    rw [print, count_delimited _ _ _ (by decide) (by decide), total_array]
    exact count_texts (by decide) fun a ha => ih a ha (hitems a ha)
  | map entries ihk ihv =>
    have hentries := (everywhere_map.mp hf).2
    rw [print, count_delimited _ _ _ (by decide) (by decide), total_map]
    exact count_entryTexts (by decide) fun e he =>
      ⟨ihk e he (hentries e he).1, ihv e he (hentries e he).2⟩
  | _ => rw [count_print_atom rfl ((everywhere_atom rfl).mp hf), total_atom rfl]

/-- Equal forms are the same as keys, if one of them is legible. -/
theorem same_of_equal {levels : Nat} (h : (f == g) = true) (hf : f.Fits levels)
    (hg : g.WellFormed) : Same f g := by
  change equal f g = true at h
  rw [equal_eq_sameKey (everywhere_notNaN hf.legible)] at h
  exact (sameKey_iff_same hf.wellFormed hg).mp h

end Form

/-- Forms that can be read from their line, whatever the order of entries, hold neither quotes nor
backslashes in their strings. -/
theorem escapes_eq_zero_of_read [Visiting] {fs gs rs : List Form} (hread : read (Form.line gs) = .ok rs)
    (hrs : List.Forall₂ Form.Same rs fs) (hgs : List.Forall₂ Form.Same fs gs)
    (hlegible : ∀ g ∈ gs, Form.Everywhere Form.Legible g) : Form.itemsTotal Form.escapes fs = 0 := by
  have hsum : Form.itemsTotal Text.Quoted.needs fs =
      Form.itemsTotal Form.escapes fs + Form.itemsTotal (List.count '\\') fs :=
    Form.itemsTotal_add Form.escapes (List.count '\\') fs
  -- The line has one backslash for each of the strings', but to be read they need two, and one a quote.
  have hle : Form.itemsTotal Text.Quoted.needs fs ≤ Form.itemsTotal (List.count '\\') fs := by
    calc Form.itemsTotal Text.Quoted.needs fs = Form.itemsTotal Text.Quoted.needs rs :=
          (Form.itemsTotal_of_same hrs).symm
      _ ≤ (Form.line gs).toList.count '\\' := needs_le_of_read hread
      _ = Form.itemsTotal (List.count '\\') gs :=
          Form.count_texts (by decide) fun g hg => Form.count_print (hlegible g hg)
      _ = Form.itemsTotal (List.count '\\') fs := (Form.itemsTotal_of_same hgs).symm
  omega

/-- The line of some forms, with the entries of maps in any order, is read to forms equal to them just
if they are readable and no string in them holds a quote or a backslash. -/
theorem read_line_iff_readable_verbatim [Visiting] {fs gs : List Form} (hw : ∀ f ∈ fs, f.WellFormed)
    (h : List.Forall₂ Form.Reordered fs gs) :
    (∃ rs, read (Form.line gs) = .ok rs ∧ List.Forall₂ (fun r f => (r == f) = true) rs fs) ↔
      ∀ f ∈ fs, f.Readable ∧ Form.Everywhere Form.Verbatim f := by
  have hgs : List.Forall₂ Form.Same fs gs := h.imp fun _ _ => Form.same_of_reordered
  have hfits (hfs : ∀ f ∈ fs, f.Fits maxDepth) : ∀ g ∈ gs, g.Fits maxDepth := by
    intro g hg
    obtain ⟨f, hf, hfg⟩ := exists_left_of_mem hgs hg
    exact Form.fits_of_same hfg (hfs f hf)
  constructor
  · rintro ⟨rs, hread, hequal⟩
    have hrs : List.Forall₂ Form.Same rs fs := forall₂_imp_of_mem hequal fun r hr f hf hrf =>
      Form.same_of_equal hrf (fits_of_read hread r hr) (hw f hf)
    have hfs : ∀ f ∈ fs, f.Fits maxDepth := by
      intro f hf
      obtain ⟨r, hr, hrf⟩ := exists_left_of_mem hrs hf
      exact Form.fits_of_same hrf (fits_of_read hread r hr)
    have hzero := escapes_eq_zero_of_read hread hrs hgs fun g hg => (hfits hfs g hg).legible
    have hverbatim := Form.forall_everywhere_verbatim_iff.mpr hzero
    exact fun f hf => ⟨(hfs f hf).readable, hverbatim f hf⟩
  · intro hfs
    have hfsfits : ∀ f ∈ fs, f.Fits maxDepth := fun f hf => (hfs f hf).1.fits (hw f hf)
    have hzero := Form.forall_everywhere_verbatim_iff.mp fun f hf => (hfs f hf).2
    rw [Form.itemsTotal_of_same hgs] at hzero
    have hkeeps : ∀ g ∈ gs, Form.Everywhere (Form.Style.Keeps .plain) g :=
      Form.forall_everywhere_verbatim_iff.mpr hzero
    refine ⟨gs, read_texts (hfits hfsfits) hkeeps, List.Forall₂.flip ?_⟩
    exact forall₂_imp_of_mem h fun f hf g _ hfg => Form.equal_of_reordered hfg (hfsfits f hf)

/-- A parenthesis, a comment sign and a line feed do no harm between quotes, but a quote does. -/
theorem read_line_iff_readable_verbatim_strings :
    (∃ rs, read (Form.line [.map [(.keyword "", .nil), (.string "(", .string ";\n")]]) = .ok rs ∧
        List.Forall₂ (fun r f => (r == f) = true) rs
          [.map [(.string "(", .string ";\n"), (.keyword "", .nil)]]) ∧
      ¬ ∃ rs, read (Form.line [.string "a\" \"b"]) = .ok rs ∧
        List.Forall₂ (fun r f => (r == f) = true) rs [.string "a\" \"b"] := by
  constructor
  · refine (read_line_iff_readable_verbatim ?_ (.cons (Form.reordered_map (.swap _ _ _)) .nil)).mpr ?_
    · decide
    · refine List.forall_mem_singleton.mpr ⟨⟨?_, by decide⟩, by decide⟩
      simp [Form.Everywhere, Form.subforms, Form.entrySubforms, Form.Legible]
  · intro hread
    have hboth := (read_line_iff_readable_verbatim (by decide)
      (.cons (Form.reordered_refl _) .nil)).mp hread _ List.mem_cons_self
    exact absurd hboth.2 (by decide)

end Sexpr
