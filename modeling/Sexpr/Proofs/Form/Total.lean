import Mathlib.Algebra.BigOperators.Group.List.Basic
import Mathlib.Algebra.GroupWithZero.Nat
import Sexpr.Proofs.Form.Readable

/-! What the strings inside a form weigh together, keys and values included. The order of entries does
not matter, and an entry put into a map adds no more than its own weight. -/
namespace Sexpr.Form

/-- The weight of a string; no other form has one of its own. -/
def weight (w : List Char → Nat) : Form → Nat
  | string value => w value.toList
  | _ => 0

def total (w : List Char → Nat) (f : Form) : Nat := (f.subforms.map (weight w)).sum

def itemsTotal (w : List Char → Nat) (fs : List Form) : Nat := (fs.map (total w)).sum

def entriesTotal (w : List Char → Nat) (es : List Entry) : Nat :=
  (es.map fun e => total w e.1 + total w e.2).sum

/-- How many characters of a string would end it, or start an escape, if they stood there as they are. -/
def escapes (s : List Char) : Nat := s.count '"' + s.count '\\'

variable {w : List Char → Nat} {f g : Form} {fs gs items : List Form} {es entries : List Entry}

@[simp]
theorem itemsTotal_cons : itemsTotal w (f :: fs) = total w f + itemsTotal w fs := List.sum_cons

@[simp]
theorem itemsTotal_reverse : itemsTotal w fs.reverse = itemsTotal w fs := by
  rw [itemsTotal, List.map_reverse, List.sum_reverse, itemsTotal]

@[simp]
theorem entriesTotal_nil : entriesTotal w [] = 0 := rfl

@[simp]
theorem entriesTotal_cons {e : Entry} :
    entriesTotal w (e :: es) = total w e.1 + total w e.2 + entriesTotal w es := List.sum_cons

theorem total_atom (h : f.isAtom = true) : total w f = weight w f := by
  cases f <;> first | rfl | cases h

theorem sum_itemSubforms : ((itemSubforms items).map (weight w)).sum = itemsTotal w items := by
  induction items with
  | nil => rfl
  | cons f fs ih => rw [itemSubforms, List.map_append, List.sum_append, ih, itemsTotal_cons, total]

theorem sum_entrySubforms :
    ((entrySubforms entries).map (weight w)).sum = entriesTotal w entries := by
  induction entries with
  | nil => rfl
  | cons e es ih =>
    rw [entrySubforms, List.map_append, List.sum_append, List.map_append, List.sum_append, ih,
      entriesTotal_cons, total, total]

@[simp]
theorem total_list : total w (list items) = itemsTotal w items :=
  (Nat.zero_add _).trans sum_itemSubforms

@[simp]
theorem total_array : total w (array items) = itemsTotal w items :=
  (Nat.zero_add _).trans sum_itemSubforms

/-- Keys weigh as much as values. -/
@[simp]
theorem total_map : total w (map entries) = entriesTotal w entries :=
  (Nat.zero_add _).trans sum_entrySubforms

/-- To stand for all atoms that are the same is to weigh what they weigh. -/
theorem weight_canonical (f : Form) : weight w f.canonical = weight w f := by
  cases f <;> rfl

theorem itemsTotal_congr (h : List.Forall₂ (fun f g => total w f = total w g) fs gs) :
    itemsTotal w fs = itemsTotal w gs := by
  induction h with
  | nil => rfl
  | cons hfg _ ih => rw [itemsTotal_cons, itemsTotal_cons, hfg, ih]

theorem entriesTotal_congr {others : List Entry} (h : List.Forall₂ (fun a b =>
      total w a.1 = total w b.1 ∧ total w a.2 = total w b.2) es others) :
    entriesTotal w es = entriesTotal w others := by
  induction h with
  | nil => rfl
  | cons hab _ ih => rw [entriesTotal_cons, entriesTotal_cons, hab.1, hab.2, ih]

/-- Forms that are the same as keys weigh the same. -/
theorem total_of_same (h : Same f g) : total w f = total w g := by
  refine h.induction ?_ ?_ ?_ ?_
  · intro a b ha hb hab
    rw [total_atom ha, total_atom hb, ← weight_canonical, hab, weight_canonical]
  · intro as bs items
    rw [total_list, total_list, itemsTotal_congr items]
  · intro as bs items
    rw [total_array, total_array, itemsTotal_congr items]
  · intro as bs cs _ entries perm
    rw [total_map, total_map, entriesTotal_congr entries]
    exact (perm.map _).sum_eq

theorem itemsTotal_of_same (h : List.Forall₂ Same fs gs) : itemsTotal w fs = itemsTotal w gs :=
  itemsTotal_congr (h.imp fun _ _ => total_of_same)

/-- The value that was there before is lost, and so is the spelling of a key that was there. -/
theorem entriesTotal_putEntry_le (key value : Form) (es : List Entry) :
    entriesTotal w (putEntry key value es) ≤ entriesTotal w es + (total w key + total w value) := by
  induction es with
  | nil => simp [putEntry]
  | cons e es ih =>
    rw [putEntry]
    split
    · simp only [entriesTotal_cons]
      omega
    · simp only [entriesTotal_cons]
      omega

theorem itemsTotal_add (w v : List Char → Nat) (fs : List Form) :
    itemsTotal (fun s => w s + v s) fs = itemsTotal w fs + itemsTotal v fs := by
  have htotal (f : Form) : total (fun s => w s + v s) f = total w f + total v f := by
    rw [total, total, total, ← List.sum_map_add]
    congr 2
    funext g
    cases g <;> rfl
  rw [itemsTotal, itemsTotal, itemsTotal, ← List.sum_map_add]
  exact congrArg List.sum (List.map_congr_left fun f _ => htotal f)

theorem verbatim_iff : f.Verbatim ↔ weight escapes f = 0 := by
  cases f with
  | string value =>
    rw [weight, escapes, Nat.add_eq_zero_iff, List.count_eq_zero, List.count_eq_zero]
    exact Iff.rfl
  | _ => exact iff_of_true trivial rfl

/-- No string inside has a quote or a backslash in it just if there is nothing to escape at all. -/
theorem everywhere_verbatim_iff : Everywhere Verbatim f ↔ total escapes f = 0 := by
  rw [total, List.sum_eq_zero_iff_forall_eq_nat, List.forall_mem_map]
  exact forall₂_congr fun g _ => verbatim_iff

theorem forall_everywhere_verbatim_iff :
    (∀ f ∈ fs, Everywhere Verbatim f) ↔ itemsTotal escapes fs = 0 := by
  rw [itemsTotal, List.sum_eq_zero_iff_forall_eq_nat, List.forall_mem_map]
  exact forall₂_congr fun f _ => everywhere_verbatim_iff

end Sexpr.Form
