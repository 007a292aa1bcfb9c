import Sexpr.Proofs.Form.Entries

/-! Sameness as keys is an equivalence, and a key can be put for another that is the same: in lookups,
in what maps are built from, and anywhere inside a form. -/
namespace Sexpr.Form

variable {f g h key value : Form} {es others ps qs : List Entry}

theorem same_refl (f : Form) : Same f f :=
  Alike.refl (R := fun a b => a.canonical = b.canonical) (fun _ _ => rfl) f

theorem sameKey_refl (hf : f.WellFormed) : sameKey f f = true :=
  (sameKey_iff_same hf hf).mpr (same_refl f)

theorem sameKey_trans (hf : f.WellFormed) (hg : g.WellFormed) (hh : h.WellFormed)
    (hfg : sameKey f g = true) (hgh : sameKey g h = true) : sameKey f h = true := by
  have hfg := (sameKey_iff_same hf hg).mp hfg
  have hgh := (sameKey_iff_same hg hh).mp hgh
  exact (sameKey_iff_same hf hh).mpr (same_trans hfg hgh)

/-- Keys that are the same are the same as the same keys. -/
theorem sameKey_congr (hf : f.WellFormed) (hg : g.WellFormed) (hh : h.WellFormed)
    (hfg : sameKey f g = true) : sameKey f h = sameKey g h := by
  have hgf : sameKey g f = true := by rwa [sameKey_symm hg hf]
  rw [Bool.eq_iff_iff]
  exact ⟨sameKey_trans hg hf hh hgf, sameKey_trans hf hg hh hfg⟩

theorem lookup?_congr (hf : f.WellFormed) (hg : g.WellFormed)
    (hes : ∀ e ∈ es, e.1.WellFormed) (hfg : sameKey f g = true) : lookup? f es = lookup? g es := by
  induction es with
  | nil => rfl
  | cons e es ih =>
    obtain ⟨he, hes⟩ := List.forall_mem_cons.mp hes
    have hrest := ih hes
    unfold lookup? at hrest ⊢
    rw [List.find?_cons, List.find?_cons, sameKey_congr hf hg he hfg, hrest]

theorem isKeyable_congr (hf : f.WellFormed) (hg : g.WellFormed) (hfg : sameKey f g = true) :
    f.isKeyable = g.isKeyable := by
  have hsame := (sameKey_iff_same hf hg).mp hfg
  rw [Bool.eq_iff_iff]
  exact ⟨isKeyable_of_same hsame, isKeyable_of_same (same_symm hsame)⟩

theorem get?_congr {m : Form} (hm : m.WellFormed) (hf : f.WellFormed) (hg : g.WellFormed)
    (hfg : sameKey f g = true) : m.get? f = m.get? g := by
  cases m with
  | map es =>
    have hes : ∀ e ∈ es, e.1.WellFormed := fun e he => ((wellFormed_map.mp hm).2 e he).1
    rw [get?, get?, isKeyable_congr hf hg hfg, lookup?_congr hf hg hes hfg]
  | _ => rfl

/-! Building maps. -/

/-- Keys and values of well-formed entries. -/
def EntryWellFormed (e : Entry) : Prop := e.1.WellFormed ∧ e.2.WellFormed

theorem sameEntry_refl (e : Entry) : SameEntry e e := ⟨same_refl e.1, same_refl e.2⟩

theorem putEntry_congr {a b : Entry} (ha : a.1.WellFormed) (hb : b.1.WellFormed)
    (hab : SameEntry a b) (hes : ∀ e ∈ es, e.1.WellFormed) (hothers : ∀ e ∈ others, e.1.WellFormed)
    (h : List.Forall₂ SameEntry es others) :
    List.Forall₂ SameEntry (putEntry a.1 a.2 es) (putEntry b.1 b.2 others) := by
  induction h with
  | nil => exact .cons hab .nil
  | @cons e other es others he _ ih =>
    obtain ⟨hewf, hes⟩ := List.forall_mem_cons.mp hes
    obtain ⟨howf, hothers⟩ := List.forall_mem_cons.mp hothers
    have hkey : sameKey a.1 e.1 = sameKey b.1 other.1 := by
      have hab := (sameKey_iff_same ha hb).mpr hab.1
      have he := (sameKey_iff_same hewf howf).mpr he.1
      rw [sameKey_congr ha hb hewf hab, sameKey_symm hb hewf, sameKey_symm hb howf,
        sameKey_congr hewf howf hb he]
    unfold putEntry
    rw [hkey]
    split
    · exact .cons ⟨he.1, hab.2⟩ ‹_›
    · exact .cons he (ih hes hothers)

theorem wellFormed_of_mem_putEntry {a : Entry} (ha : a.1.WellFormed)
    (hes : ∀ e ∈ es, e.1.WellFormed) : ∀ e ∈ putEntry a.1 a.2 es, e.1.WellFormed := by
  intro e he
  have hentries : ∀ e ∈ es, e.1.WellFormed ∧ True := fun e he => ⟨hes e he, trivial⟩
  exact (forall_mem_putEntry (q := fun _ => True) ha trivial hentries e he).1

theorem putAll_congr (hps : ∀ e ∈ ps, e.1.WellFormed) (hqs : ∀ e ∈ qs, e.1.WellFormed)
    (h : List.Forall₂ SameEntry ps qs) (hes : ∀ e ∈ es, e.1.WellFormed)
    (hothers : ∀ e ∈ others, e.1.WellFormed) (hstart : List.Forall₂ SameEntry es others) :
    List.Forall₂ SameEntry (putAll es ps) (putAll others qs) := by
  induction h generalizing es others with
  | nil => exact hstart
  | cons hab _ ih =>
    obtain ⟨ha, hps⟩ := List.forall_mem_cons.mp hps
    obtain ⟨hb, hqs⟩ := List.forall_mem_cons.mp hqs
    exact ih hps hqs (wellFormed_of_mem_putEntry ha hes) (wellFormed_of_mem_putEntry hb hothers)
      (putEntry_congr ha hb hab hes hothers hstart)

/-- Maps built from the same keys and values, in the same order, are the same. -/
theorem sameKey_ofEntries? {m : Form} (hps : ∀ e ∈ ps, EntryWellFormed e)
    (hqs : ∀ e ∈ qs, EntryWellFormed e) (h : List.Forall₂ SameEntry ps qs)
    (hm : ofEntries? ps = .ok m) : ∃ n, ofEntries? qs = .ok n ∧ sameKey m n = true := by
  obtain ⟨hkeyable, rfl⟩ := ofEntries?_eq_ok_iff.mp hm
  have hqskeyable : ∀ b ∈ qs, b.1.isKeyable = true := by
    intro b hb
    obtain ⟨a, ha, hab⟩ := exists_left_of_mem h hb
    exact isKeyable_of_same hab.1 (hkeyable a ha)
  have hn := ofEntries?_of_keyable hqskeyable
  refine ⟨_, hn, ?_⟩
  have hentries := putAll_congr (fun e he => (hps e he).1) (fun e he => (hqs e he).1) h
    (List.forall_mem_nil _) (List.forall_mem_nil _) .nil
  refine (sameKey_iff_same (wellFormed_ofEntries? hm hps) (wellFormed_ofEntries? hn hqs)).mpr ?_
  exact alike_map.mpr ⟨_, _, hentries, .refl _, rfl⟩

theorem forall₂_replace {α : Type} {R : α → α → Prop} (hR : ∀ a, R a a) {a b : α} (h : R a b)
    (before after : List α) : List.Forall₂ R (before ++ a :: after) (before ++ b :: after) :=
  List.rel_append (List.forall₂_same.mpr fun c _ => hR c)
    (.cons h (List.forall₂_same.mpr fun c _ => hR c))

theorem sameKey_ofEntries?_replace {a b : Entry} {before after : List Entry} {m : Form}
    (ha : EntryWellFormed a) (hb : EntryWellFormed b) (hab : SameEntry a b)
    (hrest : ∀ e ∈ before ++ after, EntryWellFormed e)
    (hm : ofEntries? (before ++ a :: after) = .ok m) :
    ∃ n, ofEntries? (before ++ b :: after) = .ok n ∧ sameKey m n = true := by
  have hwell : ∀ c, EntryWellFormed c → ∀ e ∈ before ++ c :: after, EntryWellFormed e := by
    intro c hc e he
    rcases List.mem_cons.mp (List.perm_middle.mem_iff.mp he) with rfl | he
    · exact hc
    · exact hrest e he
  exact sameKey_ofEntries? (hwell a ha) (hwell b hb)
    (forall₂_replace sameEntry_refl hab before after) hm

/-! Places inside a form. -/

/-- A form with a place left open in it. -/
inductive Context where
  | hole
  | item (before : List Form) (inner : Context) (after : List Form)
  | element (before : List Form) (inner : Context) (after : List Form)
  | key (before : List Entry) (inner : Context) (value : Form) (after : List Entry)
  | value (before : List Entry) (key : Form) (inner : Context) (after : List Entry)

/-- The form with another one in its open place. -/
def Context.fill (f : Form) : Context → Form
  | .hole => f
  | .item before inner after => list (before ++ inner.fill f :: after)
  | .element before inner after => array (before ++ inner.fill f :: after)
  | .key before inner value after => map (before ++ (inner.fill f, value) :: after)
  | .value before key inner after => map (before ++ (key, inner.fill f) :: after)

theorem same_fill (c : Context) (h : Same f g) : Same (c.fill f) (c.fill g) := by
  induction c with
  | hole => exact h
  | item before inner after ih => exact .list (forall₂_replace same_refl ih before after)
  | element before inner after ih => exact .array (forall₂_replace same_refl ih before after)
  | key before inner value after ih =>
    have hentry : SameEntry (inner.fill f, value) (inner.fill g, value) := ⟨ih, same_refl value⟩
    exact alike_map.mpr ⟨_, _, forall₂_replace sameEntry_refl hentry before after, .refl _, rfl⟩
  | value before key inner after ih =>
    have hentry : SameEntry (key, inner.fill f) (key, inner.fill g) := ⟨same_refl key, ih⟩
    exact alike_map.mpr ⟨_, _, forall₂_replace sameEntry_refl hentry before after, .refl _, rfl⟩

/-- A form that is the same as a key can stand in its place. -/
theorem sameKey_fill {c : Context} (hf : f.WellFormed) (hg : g.WellFormed)
    (hfill : (c.fill f).WellFormed) (hfg : sameKey f g = true) :
    (c.fill g).WellFormed ∧ sameKey (c.fill f) (c.fill g) = true := by
  have hsame := same_fill c ((sameKey_iff_same hf hg).mp hfg)
  have hgfill := wellFormed_of_same hsame hfill
  exact ⟨hgfill, (sameKey_iff_same hfill hgfill).mpr hsame⟩

/-- Sameness as keys is an equivalence, and what is the same as a key can be put for it in lookups,
inside other forms and among the entries that maps are built from. -/
theorem sameKey_equivalence_congruence {a b c : Form} (ha : a.WellFormed) (hb : b.WellFormed)
    (hc : c.WellFormed) :
    sameKey a a = true ∧ sameKey a b = sameKey b a ∧
      (sameKey a b = true → sameKey b c = true → sameKey a c = true) ∧
      (sameKey a b = true →
        (∀ m : Form, m.WellFormed → m.get? a = m.get? b) ∧
        (∀ context : Context, (context.fill a).WellFormed →
          sameKey (context.fill a) (context.fill b) = true) ∧
        ∀ (before after : List Entry) (other m : Form),
          (∀ e ∈ before ++ after, EntryWellFormed e) → other.WellFormed →
          (ofEntries? (before ++ (a, other) :: after) = .ok m →
            ∃ n, ofEntries? (before ++ (b, other) :: after) = .ok n ∧ sameKey m n = true) ∧
          (ofEntries? (before ++ (other, a) :: after) = .ok m →
            ∃ n, ofEntries? (before ++ (other, b) :: after) = .ok n ∧ sameKey m n = true)) := by
  refine ⟨sameKey_refl ha, sameKey_symm ha hb, sameKey_trans ha hb hc, ?_⟩
  intro hab
  have hsame := (sameKey_iff_same ha hb).mp hab
  refine ⟨?_, ?_, ?_⟩
  · intro m hm
    exact get?_congr hm ha hb hab
  · intro context hfill
    exact (sameKey_fill ha hb hfill hab).2
  · intro before after other m hrest hother
    constructor
    · exact sameKey_ofEntries?_replace ⟨ha, hother⟩ ⟨hb, hother⟩ ⟨hsame, same_refl other⟩ hrest
    · exact sameKey_ofEntries?_replace ⟨hother, ha⟩ ⟨hother, hb⟩ ⟨same_refl other, hsame⟩ hrest

/-- Both zeros as keys and two different NaN as values, in a map that is itself a key. -/
theorem sameKey_equivalence_congruence_zeros :
    let a := map [(number (.ofMagnitude false 0), number (.ofMagnitude false (Number.infinite + 1)))]
    let b := map [(number (.ofMagnitude true 0), number (.ofMagnitude true (Number.infinite + 2)))]
    (a.WellFormed ∧ b.WellFormed ∧ sameKey a b = true) ∧
      sameKey b a = true ∧ get? (map [(a, string "found")]) b = some (string "found") ∧
      sameKey (list [nil, map [(a, nil)]]) (list [nil, map [(b, nil)]]) = true := by
  intro a b
  have ha : a.WellFormed := by decide
  have hb : b.WellFormed := by decide
  have hab : sameKey a b = true := by decide
  obtain ⟨-, hsymm, -, hcongr⟩ := sameKey_equivalence_congruence ha hb ha
  obtain ⟨hget, hfill, -⟩ := hcongr hab
  refine ⟨⟨ha, hb, hab⟩, hsymm ▸ hab, ?_, ?_⟩
  · exact (hget (map [(a, string "found")]) (by decide)).symm.trans rfl
  · exact hfill (.item [nil] (.key [] .hole nil []) []) (by decide)

end Sexpr.Form
