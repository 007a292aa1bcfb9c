import Sexpr.Form.Printer
import Sexpr.Proofs.Form.Building

/-! The order in which a map is built from its entries does not show, and neither does the one in which
they are gone through: not in what is found under a key, not in the length of the text, and not where
the map is a key itself. Runs that go through them in orders of their own show reordered forms, and all
of these. -/
namespace Sexpr

/-- The orders for all positions inside a form and one for its own entries make an order. -/
@[reducible]
def Visiting.joined (own : List Entry → List Entry) (hown : ∀ es, (own es).Perm es)
    (inner : Nat → Visiting) : Visiting where
  visit
    | [] => own
    | position :: path => (inner position).visit path
  perm
    | [] => hown
    | position :: path => (inner position).perm path

namespace Form

variable {f g q : Form} {as bs : List Form} {e : Entry} {es others : List Entry} {style : Style}

/-! Lookups. -/

theorem lookup?_eq_some_iff (hes : (map es).WellFormed) (hq : q.WellFormed) :
    lookup? q es = some e ↔ e ∈ es ∧ sameKey q e.1 = true := by
  refine ⟨lookup?_eq_some, fun ⟨he, hqe⟩ => ?_⟩
  obtain ⟨⟨-, hdistinct⟩, hinner⟩ := wellFormed_map.mp hes
  obtain ⟨found, hfound⟩ : ∃ found, lookup? q es = some found :=
    Option.isSome_iff_exists.mp (List.find?_isSome.mpr ⟨e, he, hqe⟩)
  obtain ⟨hmem, hqfound⟩ := lookup?_eq_some hfound
  have hewell := (hinner e he).1
  have hfoundwell := (hinner found hmem).1
  have hsame : sameKey found.1 e.1 = true := by
    rwa [← sameKey_congr hq hfoundwell hewell hqfound]
  have hback : sameKey e.1 found.1 = true := by rwa [sameKey_symm hewell hfoundwell]
  rw [hfound, eq_of_sameKey hdistinct hmem he hsame hback]

theorem lookup?_perm (hes : (map es).WellFormed) (hothers : (map others).WellFormed)
    (hperm : es.Perm others) (hq : q.WellFormed) : lookup? q es = lookup? q others := by
  ext e
  rw [lookup?_eq_some_iff hes hq, lookup?_eq_some_iff hothers hq, hperm.mem_iff]

theorem get?_perm (hes : (map es).WellFormed) (hothers : (map others).WellFormed)
    (hperm : es.Perm others) (hq : q.WellFormed) : (map es).get? q = (map others).get? q := by
  rw [get?, get?, lookup?_perm hes hothers hperm hq]

/-- An entry is found under every key that is the same as its own. -/
theorem get?_of_sameKey {key value : Form} (hes : (map es).WellFormed) (hq : q.WellFormed)
    (hmem : (key, value) ∈ es) (hsame : sameKey key q = true) : (map es).get? q = some value := by
  obtain ⟨⟨hkeyable, -⟩, hinner⟩ := wellFormed_map.mp hes
  have hkey := (hinner _ hmem).1
  have hqkeyable : q.isKeyable = true := by
    rw [← isKeyable_congr hkey hq hsame]
    exact hkeyable _ hmem
  have hback : sameKey q key = true := by rwa [sameKey_symm hq hkey]
  rw [get?, if_pos hqkeyable, (lookup?_eq_some_iff hes hq).mpr ⟨hmem, hback⟩]
  rfl

/-! Lengths of texts. -/

theorem utf8ByteSize_spaced (texts : List String) : (spaced texts).utf8ByteSize =
    (texts.map String.utf8ByteSize).sum + (texts.length - 1) := by
  induction texts with
  | nil => rfl
  | cons text texts ih =>
    cases texts with
    | nil => simp [spaced]
    | cons next texts =>
      have hspace : " ".utf8ByteSize = 1 := rfl
      rw [spaced] at ih
      rw [spaced, String.intercalate_cons_cons, String.utf8ByteSize_append,
        String.utf8ByteSize_append, ih, hspace]
      simp only [List.map_cons, List.sum_cons, List.length_cons]
      omega

/-- Only the lengths of the texts matter, and not their order. -/
theorem utf8ByteSize_spaced_of_perm {texts others : List String}
    (h : (texts.map String.utf8ByteSize).Perm (others.map String.utf8ByteSize)) :
    (spaced texts).utf8ByteSize = (spaced others).utf8ByteSize := by
  have hlength : texts.length = others.length := by simpa using h.length_eq
  rw [utf8ByteSize_spaced, utf8ByteSize_spaced, h.sum_eq, hlength]

theorem map_utf8ByteSize_texts (h : List.Forall₂
      (fun a b => (a.print style).utf8ByteSize = (b.print style).utf8ByteSize) as bs) :
    (texts style as).map String.utf8ByteSize = (texts style bs).map String.utf8ByteSize := by
  induction h with
  | nil => rfl
  | cons hab _ ih => rw [texts, texts, List.map_cons, List.map_cons, hab, ih]

theorem map_utf8ByteSize_entryTexts (h : List.Forall₂ (fun a b : Entry =>
      (a.1.print style).utf8ByteSize = (b.1.print style).utf8ByteSize ∧
      (a.2.print style).utf8ByteSize = (b.2.print style).utf8ByteSize) es others) :
    (entryTexts style es).map String.utf8ByteSize =
      (entryTexts style others).map String.utf8ByteSize := by
  induction h with
  | nil => rfl
  | cons hab _ ih => simp only [entryTexts, List.map_cons, hab.1, hab.2, ih]

theorem entryTexts_eq_flatMap (style : Style) (es : List Entry) :
    entryTexts style es = es.flatMap fun e => [e.1.print style, e.2.print style] := by
  induction es with
  | nil => rfl
  | cons e es ih => rw [entryTexts, ih]; rfl

theorem entryTexts_perm (h : es.Perm others) :
    (entryTexts style es).Perm (entryTexts style others) := by
  rw [entryTexts_eq_flatMap, entryTexts_eq_flatMap]
  exact h.flatMap_right _

theorem utf8ByteSize_delimited (start close : String) {text other : String}
    (h : text.utf8ByteSize = other.utf8ByteSize) :
    (start ++ text ++ close).utf8ByteSize = (start ++ other ++ close).utf8ByteSize := by
  simp only [String.utf8ByteSize_append, h]

/-- However the entries of the maps inside a form are gone through, its text has the same length. -/
theorem utf8ByteSize_print_of_reordered (style : Style) (h : Reordered f g) :
    (f.print style).utf8ByteSize = (g.print style).utf8ByteSize := by
  refine h.induction ?_ ?_ ?_ ?_
  · rintro a _ - - rfl
    rfl
  · intro as bs items
    rw [print, print]
    refine utf8ByteSize_delimited _ _ (utf8ByteSize_spaced_of_perm ?_)
    rw [map_utf8ByteSize_texts items]
  · intro as bs items
    rw [print, print]
    refine utf8ByteSize_delimited _ _ (utf8ByteSize_spaced_of_perm ?_)
    rw [map_utf8ByteSize_texts items]
  · intro as bs cs _ entries perm
    rw [print, print]
    refine utf8ByteSize_delimited _ _ (utf8ByteSize_spaced_of_perm ?_)
    rw [map_utf8ByteSize_entryTexts entries]
    exact (entryTexts_perm perm).map _

/-! The orders of runs. -/

theorem forall₂_itemsVisited (v : Visiting) (h : ∀ f ∈ as, ∀ v, Reordered f (f.visited v)) :
    List.Forall₂ Reordered as (itemsVisited v as) := by
  induction as with
  | nil => exact .nil
  | cons f fs ih =>
    obtain ⟨hf, hfs⟩ := List.forall_mem_cons.mp h
    exact .cons (hf _) (ih hfs)

theorem forall₂_entriesVisited (v : Visiting) (hkeys : ∀ e ∈ es, ∀ v, Reordered e.1 (e.1.visited v))
    (hvalues : ∀ e ∈ es, ∀ v, Reordered e.2 (e.2.visited v)) :
    List.Forall₂ (EntryAlike Eq) es (entriesVisited v es) := by
  induction es with
  | nil => exact .nil
  | cons e es ih =>
    obtain ⟨hkey, hkeys⟩ := List.forall_mem_cons.mp hkeys
    obtain ⟨hvalue, hvalues⟩ := List.forall_mem_cons.mp hvalues
    exact .cons ⟨hkey _, hvalue _⟩ (ih hkeys hvalues)

/-- A run only puts entries into another order. -/
theorem reordered_visited (v : Visiting) (f : Form) : Reordered f (f.visited v) := by
  induction f generalizing v with
  | list items ih => exact .list (forall₂_itemsVisited v ih)
  | array items ih => exact .array (forall₂_itemsVisited v ih)
  | map entries ihk ihv =>
    exact alike_map.mpr ⟨_, _, forall₂_entriesVisited v ihk ihv, (v.perm [] _).symm, rfl⟩
  | _ => exact reordered_refl _

theorem exists_itemsVisited (h : List.Forall₂ (fun a b => ∃ v, a.visited v = b) as bs) :
    ∃ inner : Nat → Visiting, ∀ v : Visiting, (∀ i < as.length, v.inside i = inner i) →
      itemsVisited v as = bs := by
  induction h with
  | nil => exact ⟨fun _ => .stored, fun _ _ => rfl⟩
  | @cons a b as bs ha _ ih =>
    obtain ⟨first, rfl⟩ := ha
    obtain ⟨inner, hinner⟩ := ih
    refine ⟨fun i => if i = as.length then first else inner i, fun v hv => ?_⟩
    have hfirst : v.inside as.length = first := (hv _ (Nat.lt_succ_self _)).trans (if_pos rfl)
    have hrest : itemsVisited v as = bs := hinner v fun i hi =>
      (hv i (Nat.lt_succ_of_lt hi)).trans (if_neg (Nat.ne_of_lt hi))
    rw [itemsVisited, hfirst, hrest]

theorem exists_entriesVisited (h : List.Forall₂ (fun a b : Entry =>
      (∃ v, a.1.visited v = b.1) ∧ ∃ v, a.2.visited v = b.2) es others) :
    ∃ inner : Nat → Visiting, ∀ v : Visiting, (∀ i < 2 * es.length, v.inside i = inner i) →
      entriesVisited v es = others := by
  induction h with
  | nil => exact ⟨fun _ => .stored, fun _ _ => rfl⟩
  | @cons a b as bs hab _ ih =>
    obtain ⟨⟨key, hkey⟩, value, hvalue⟩ := hab
    obtain ⟨inner, hinner⟩ := ih
    refine ⟨fun i => if i = 2 * as.length then key
      else if i = 2 * as.length + 1 then value else inner i, fun v hv => ?_⟩
    have hlength : 2 * (a :: as).length = 2 * as.length + 2 := by rw [List.length_cons]; omega
    rw [hlength] at hv
    have hfirst : v.inside (2 * as.length) = key := (hv _ (by omega)).trans (if_pos rfl)
    have hsecond : v.inside (2 * as.length + 1) = value :=
      (hv _ (by omega)).trans ((if_neg (by omega)).trans (if_pos rfl))
    have hrest : entriesVisited v as = bs := hinner v fun i hi =>
      (hv i (by omega)).trans ((if_neg (by omega)).trans (if_neg (by omega)))
    obtain ⟨k, x⟩ := a
    rw [entriesVisited, hfirst, hsecond, hrest, hkey, hvalue]

/-- The forms that runs show in place of one are all that differ from it in the order of entries. -/
theorem exists_visited_iff : (∃ v, f.visited v = g) ↔ Reordered f g := by
  constructor
  · rintro ⟨v, rfl⟩
    exact reordered_visited v f
  · intro h
    refine h.induction ?_ ?_ ?_ ?_
    · rintro a _ ha - rfl
      refine ⟨.stored, ?_⟩
      cases a with
      | list | array | map => cases ha
      | _ => rfl
    · intro as bs items
      obtain ⟨inner, hinner⟩ := exists_itemsVisited items
      exact ⟨.joined id (fun es => .refl es) inner, congrArg list (hinner _ fun _ _ => rfl)⟩
    · intro as bs items
      obtain ⟨inner, hinner⟩ := exists_itemsVisited items
      exact ⟨.joined id (fun es => .refl es) inner, congrArg array (hinner _ fun _ _ => rfl)⟩
    · intro as bs cs _ entries perm
      classical
      obtain ⟨inner, hinner⟩ := exists_entriesVisited entries
      let own (es : List Entry) : List Entry := if es = bs then cs else es
      have hown : ∀ es, (own es).Perm es := by
        intro es
        by_cases hes : es = bs
        · rw [hes]
          exact (List.Perm.of_eq (if_pos rfl)).trans perm.symm
        · exact List.Perm.of_eq (if_neg hes)
      refine ⟨.joined own hown inner, ?_⟩
      have hentries : entriesVisited (.joined own hown inner) as = bs := hinner _ fun _ _ => rfl
      rw [visited, hentries]
      exact congrArg map (if_pos rfl)

/-- Whatever the order, the text that a run shows has the same length. -/
theorem utf8ByteSize_shown (v w : Visiting) (f : Form) :
    (@shown v f).utf8ByteSize = (@shown w f).utf8ByteSize :=
  (utf8ByteSize_print_of_reordered .plain (reordered_visited v f)).symm.trans
    (utf8ByteSize_print_of_reordered .plain (reordered_visited w f))

/-! Maps as keys. -/

/-- Where one of two maps of the same entries is a key, or a part of one, the other finds the value. -/
theorem get?_fill_of_perm {ps qs table : List Entry} {c : Context} {value : Form}
    (hps : (map ps).WellFormed) (hqs : (map qs).WellFormed) (hperm : ps.Perm qs)
    (htable : (map table).WellFormed) (hmem : (c.fill (map ps), value) ∈ table) :
    (map table).get? (c.fill (map qs)) = some value := by
  have hsame : sameKey (map ps) (map qs) = true :=
    (sameKey_iff_same hps hqs).mpr (same_of_reordered (reordered_map hperm))
  have hfill := ((wellFormed_map.mp htable).2 _ hmem).1
  obtain ⟨hother, hfillsame⟩ := sameKey_fill hps hqs hfill hsame
  exact get?_of_sameKey htable hother hmem hfillsame

theorem isKeyable_map (h : ∀ e ∈ es, e.2.isKeyable = true) : (map es).isKeyable = true :=
  valuesKeyable_iff.mpr h

/-- From the same entries in any two orders, with distinct keys, two maps are built that cannot be told
apart: they have the same length, hold the same values under the same keys, and their texts in either
style are equally long, in whatever order entries are gone through, here and in the maps inside. If
they may be keys, they are the same key, alone and as parts of others. -/
theorem ofEntries?_perm {ps qs : List Entry} (hwell : ∀ p ∈ ps, EntryWellFormed p)
    (hkeyable : ∀ p ∈ ps, p.1.isKeyable = true)
    (hdistinct : ps.Pairwise fun a b => sameKey a.1 b.1 = false) (hperm : ps.Perm qs) :
    ∃ m n, ofEntries? ps = .ok m ∧ ofEntries? qs = .ok n ∧
      m.length? = n.length? ∧
      (∀ q : Form, q.WellFormed → m.get? q = n.get? q) ∧
      (∀ style m' n', Reordered m m' → Reordered n n' →
        (m'.print style).utf8ByteSize = (n'.print style).utf8ByteSize) ∧
      ((∀ p ∈ ps, p.2.isKeyable = true) →
        m.isKeyable = true ∧ n.isKeyable = true ∧ sameKey m n = true ∧
        ∀ (c : Context) (table : List Entry) (value : Form), (map table).WellFormed →
          ((c.fill m, value) ∈ table → (map table).get? (c.fill n) = some value) ∧
          ((c.fill n, value) ∈ table → (map table).get? (c.fill m) = some value)) := by
  have hps : (map ps).WellFormed := wellFormed_map.mpr ⟨⟨hkeyable, hdistinct⟩, hwell⟩
  have hreordered := reordered_map hperm
  have hqs : (map qs).WellFormed := wellFormed_of_same (same_of_reordered hreordered) hps
  refine ⟨map ps, map qs, ofEntries?_entries hps, ofEntries?_entries hqs, ?_, ?_, ?_, ?_⟩
  · exact congrArg some hperm.length_eq
  · intro q hq
    exact get?_perm hps hqs hperm hq
  · intro style m' n' hm hn
    rw [← utf8ByteSize_print_of_reordered style hm, ← utf8ByteSize_print_of_reordered style hn,
      utf8ByteSize_print_of_reordered style hreordered]
  · intro hvalues
    have hothers : ∀ q ∈ qs, q.2.isKeyable = true := fun q hq => hvalues q (hperm.mem_iff.mpr hq)
    refine ⟨isKeyable_map hvalues, isKeyable_map hothers, ?_, fun c table value htable => ?_⟩
    · exact (sameKey_iff_same hps hqs).mpr (same_of_reordered hreordered)
    · exact ⟨get?_fill_of_perm hps hqs hperm htable, get?_fill_of_perm hqs hps hperm.symm htable⟩

/-- A map that is a key of both maps, and held the other way round where it is asked for and printed. -/
theorem ofEntries?_perm_nested :
    let inner := map [(nil, boolean true), (string "s", keyword "v")]
    let turned := map [(string "s", keyword "v"), (nil, boolean true)]
    let ps : List Entry := [(inner, string "é"), (number .zero, nil), (keyword "k", list [inner])]
    let qs : List Entry := [(keyword "k", list [inner]), (inner, string "é"), (number .zero, nil)]
    let shown := map [(keyword "k", list [turned]), (turned, string "é"), (number .zero, nil)]
    ((∀ p ∈ ps, EntryWellFormed p) ∧ (∀ p ∈ ps, p.1.isKeyable = true) ∧
      (ps.Pairwise fun a b => sameKey a.1 b.1 = false) ∧ ps.Perm qs ∧
      ∀ p ∈ ps, p.2.isKeyable = true) ∧
    (map ps).get? turned = (map qs).get? turned ∧
    ((map ps).print .readable).utf8ByteSize = (shown.print .readable).utf8ByteSize ∧
    (map [(list [map ps], string "found")]).get? (list [map qs]) = some (string "found") := by
  intro inner turned ps qs shown
  have hps : (map ps).WellFormed := by decide
  obtain ⟨⟨hkeyable, hdistinct⟩, hwell⟩ := wellFormed_map.mp hps
  have hvalues : ∀ p ∈ ps, p.2.isKeyable = true := by decide
  have hperm : ps.Perm qs :=
    List.perm_append_singleton (keyword "k", list [inner]) [(inner, string "é"), (number .zero, nil)]
  obtain ⟨m, n, hm, hn, -, hget, hsize, hkeys⟩ := ofEntries?_perm hwell hkeyable hdistinct hperm
  cases hm.symm.trans (rfl : ofEntries? ps = .ok (map ps))
  cases hn.symm.trans (rfl : ofEntries? qs = .ok (map qs))
  have hinner : Reordered inner turned := reordered_map (.swap _ _ _)
  have hshown : Reordered (map qs) shown := by
    have hentries : List.Forall₂ (EntryAlike Eq) qs
        [(keyword "k", list [turned]), (turned, string "é"), (number .zero, nil)] :=
      .cons ⟨reordered_refl _, .list (.cons hinner .nil)⟩
        (.cons ⟨hinner, reordered_refl _⟩ (.cons ⟨reordered_refl _, reordered_refl _⟩ .nil))
    exact alike_map.mpr ⟨_, _, hentries, .refl _, rfl⟩
  refine ⟨⟨hwell, hkeyable, hdistinct, hperm, hvalues⟩, hget turned (by decide), ?_, ?_⟩
  · exact hsize .readable _ _ (reordered_refl _) hshown
  · exact ((hkeys hvalues).2.2.2 (.item [] .hole []) _ _ (by decide)).1 List.mem_cons_self

end Form
end Sexpr
