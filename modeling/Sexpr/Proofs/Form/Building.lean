import Mathlib.Data.Set.Card
import Sexpr.Proofs.Form.Congruence

/-! What a map holds that has been built from entries: for each class of keys that are the same one
entry, with the first of these keys and the last of their values. -/
namespace Sexpr.Form

variable {q key value : Form} {es pairs : List Entry}

theorem lookup?_nil (q : Form) : lookup? q [] = none := rfl

theorem lookup?_cons (q : Form) (e : Entry) (es : List Entry) :
    lookup? q (e :: es) = if sameKey q e.1 = true then some e else lookup? q es := by
  unfold lookup?
  rw [List.find?_cons]
  cases sameKey q e.1 <;> rfl

theorem lookup?_append (q : Form) (es others : List Entry) :
    lookup? q (es ++ others) = (lookup? q es).or (lookup? q others) := List.find?_append

/-- What is found under a key that has been put in is the value put in last, under the key that was
there first. -/
theorem lookup?_putEntry (hq : q.WellFormed) (hkey : key.WellFormed)
    (hes : ∀ e ∈ es, e.1.WellFormed) :
    lookup? q (putEntry key value es) =
      if sameKey q key = true then some (((lookup? q es).map Prod.fst).getD key, value)
      else lookup? q es := by
  induction es with
  | nil => rw [putEntry, lookup?_cons, lookup?_nil]; rfl
  | cons e es ih =>
    obtain ⟨he, hes⟩ := List.forall_mem_cons.mp hes
    rw [putEntry]
    cases hfound : sameKey key e.1 with
    | true =>
      have hsame : sameKey q e.1 = sameKey q key := by
        rw [sameKey_symm hq he, sameKey_symm hq hkey, sameKey_congr hkey he hq hfound]
      rw [if_pos rfl, lookup?_cons, lookup?_cons, hsame]
      split <;> rfl
    | false =>
      rw [if_neg Bool.false_ne_true, lookup?_cons, lookup?_cons, ih hes]
      by_cases hqe : sameKey q e.1 = true
      · have hqkey : ¬ sameKey q key = true := by
          intro hqkey
          rw [sameKey_congr hq hkey he hqkey, hfound] at hqe
          cases hqe
        simp [hqe, hqkey]
      · simp [hqe]

section Keys

variable (hq : q.WellFormed) (hpairs : ∀ e ∈ pairs, e.1.WellFormed)
  (hes : ∀ e ∈ es, e.1.WellFormed)

include hq hpairs hes

/-- The last value wins, over those put in before it and over what was there. -/
theorem lookup?_putAll_value : (lookup? q (putAll es pairs)).map Prod.snd =
    ((lookup? q pairs.reverse).map Prod.snd).or ((lookup? q es).map Prod.snd) := by
  induction pairs generalizing es with
  | nil => rfl
  | cons a pairs ih =>
    obtain ⟨ha, hpairs⟩ := List.forall_mem_cons.mp hpairs
    rw [putAll_cons, ih hpairs (wellFormed_of_mem_putEntry ha hes), lookup?_putEntry hq ha hes,
      List.reverse_cons, lookup?_append, lookup?_cons, lookup?_nil]
    cases lookup? q pairs.reverse <;> by_cases hqa : sameKey q a.1 = true <;> simp [hqa]

/-- The first spelling of a key stays, and one that was there already comes first of all. -/
theorem lookup?_putAll_key : (lookup? q (putAll es pairs)).map Prod.fst =
    ((lookup? q es).map Prod.fst).or ((lookup? q pairs).map Prod.fst) := by
  induction pairs generalizing es with
  | nil => exact (Option.or_none).symm
  | cons a pairs ih =>
    obtain ⟨ha, hpairs⟩ := List.forall_mem_cons.mp hpairs
    rw [putAll_cons, ih hpairs (wellFormed_of_mem_putEntry ha hes), lookup?_putEntry hq ha hes,
      lookup?_cons]
    cases lookup? q es <;> by_cases hqa : sameKey q a.1 = true <;> simp [hqa]

end Keys

theorem pairwise_putAll (hpairs : ∀ e ∈ pairs, e.1.WellFormed) (hes : ∀ e ∈ es, e.1.WellFormed)
    (hdistinct : es.Pairwise fun a b => sameKey a.1 b.1 = false) :
    (putAll es pairs).Pairwise fun a b => sameKey a.1 b.1 = false := by
  induction pairs generalizing es with
  | nil => exact hdistinct
  | cons a pairs ih =>
    obtain ⟨ha, hpairs⟩ := List.forall_mem_cons.mp hpairs
    exact ih hpairs (wellFormed_of_mem_putEntry ha hes) (pairwise_putEntry ha hes hdistinct)

/-! Classes. -/

/-- The entries whose keys are the same as a key. -/
def classOf (pairs : List Entry) (key : Form) : List Entry :=
  pairs.filter fun e => sameKey key e.1

/-- The classes of entries whose keys are the same. -/
def classes (pairs : List Entry) : Set (List Entry) := {c | ∃ e ∈ pairs, c = classOf pairs e.1}

theorem classOf_congr {key other : Form} (hkey : key.WellFormed) (hother : other.WellFormed)
    (hpairs : ∀ e ∈ pairs, e.1.WellFormed) (h : sameKey key other = true) :
    classOf pairs key = classOf pairs other := by
  refine List.filter_congr fun e he => ?_
  rw [sameKey_congr hkey hother (hpairs e he) h]

theorem ncard_mem_of_nodup {α : Type} {l : List α} (h : l.Nodup) : {a | a ∈ l}.ncard = l.length := by
  classical
  rw [← List.coe_toFinset, Set.ncard_coe_finset, List.toFinset_card_of_nodup h]

section Classes

variable (hpairs : ∀ e ∈ pairs, e.1.WellFormed)

include hpairs

theorem wellFormed_of_mem_putAll {x : Entry} (hx : x ∈ putAll [] pairs) : x.1.WellFormed := by
  obtain ⟨e, he, heq⟩ := (mem_putAll_nil hx).1
  rw [heq]
  exact hpairs e he

/-- No key that is put in is lost, though it may stand there in another spelling. -/
theorem exists_sameKey_of_mem {e : Entry} (he : e ∈ pairs) :
    ∃ x ∈ putAll [] pairs, sameKey e.1 x.1 = true := by
  have hfirst := lookup?_putAll_key (hpairs e he) hpairs (List.forall_mem_nil _)
  have hsome : (lookup? e.1 pairs).isSome = true :=
    List.find?_isSome.mpr ⟨e, he, sameKey_refl (hpairs e he)⟩
  have hfound : (lookup? e.1 (putAll [] pairs)).isSome = true := by
    rw [← Option.isSome_map (f := Prod.fst), hfirst]
    simpa [lookup?_nil] using hsome
  obtain ⟨x, hx⟩ := Option.isSome_iff_exists.mp hfound
  exact ⟨x, lookup?_eq_some hx⟩

/-- One representative of each class is in the map. -/
theorem classes_eq :
    classes pairs = {c | c ∈ (putAll [] pairs).map fun x => classOf pairs x.1} := by
  ext c
  constructor
  · rintro ⟨e, he, rfl⟩
    obtain ⟨x, hx, hsame⟩ := exists_sameKey_of_mem hpairs he
    have hclass := classOf_congr (hpairs e he) (wellFormed_of_mem_putAll hpairs hx) hpairs hsame
    exact List.mem_map.mpr ⟨x, hx, hclass.symm⟩
  · intro hc
    obtain ⟨x, hx, rfl⟩ := List.mem_map.mp hc
    obtain ⟨e, he, heq⟩ := (mem_putAll_nil hx).1
    exact ⟨e, he, by rw [heq]⟩

theorem nodup_classOf : ((putAll [] pairs).map fun x => classOf pairs x.1).Nodup := by
  have hdistinct := pairwise_putAll hpairs (List.forall_mem_nil _) .nil
  refine List.pairwise_map.mpr (hdistinct.imp_of_mem ?_)
  intro x y hx hy hxy heq
  -- The entry that the first key comes from is in its class, and so in that of the second.
  obtain ⟨e, he, hex⟩ := (mem_putAll_nil hx).1
  have hself : e ∈ classOf pairs x.1 :=
    List.mem_filter.mpr ⟨he, by rw [hex]; exact sameKey_refl (hpairs e he)⟩
  rw [heq] at hself
  have hyx := (List.mem_filter.mp hself).2
  have hywell := wellFormed_of_mem_putAll hpairs hy
  rw [← hex, sameKey_symm hywell (wellFormed_of_mem_putAll hpairs hx), hxy] at hyx
  cases hyx

/-- The keys of the map stand for the classes, each for another. -/
theorem length_putAll : (putAll [] pairs).length = (classes pairs).ncard := by
  rw [classes_eq hpairs, ncard_mem_of_nodup (nodup_classOf hpairs), List.length_map]

end Classes

end Sexpr.Form
