import Sexpr.Proofs.Registry.History
import Sexpr.Proofs.Text.Bytes

/-! Each name means the last operation registered under it, and whatever is asked of a registry by
name agrees on which names those are. -/
namespace Sexpr.Registry

variable {r : Registry} {ops : List Operation} {op : Operation} {name : String} {f : Lambda}
  {actions : List Action}

/-- The last operation of a name. -/
def named? (name : String) (ops : List Operation) : Option Operation :=
  ops.reverse.find? (·.name == name)

theorem named?_append_self (ops : List Operation) (op : Operation) :
    named? op.name (ops ++ [op]) = some op := by
  simp [named?]

theorem named?_eq_none_iff : named? name ops = none ↔ ∀ op ∈ ops, op.name ≠ name := by
  simp [named?]

theorem named?_append_of_ne (ops : List Operation) {more : List Operation}
    (h : ∀ op ∈ more, op.name ≠ name) : named? name (ops ++ more) = named? name ops := by
  have hmore : named? name more = none := named?_eq_none_iff.mpr h
  rw [named?] at hmore
  rw [named?, List.reverse_append, List.find?_append, hmore, Option.none_or, named?]

theorem named?_eq_some_iff : named? name ops = some op ↔ op.name = name ∧
    ∃ before after, ops = before ++ op :: after ∧ ∀ other ∈ after, other.name ≠ name := by
  rw [named?, List.find?_eq_some_iff_append, beq_iff_eq]
  refine and_congr_right fun _ => ⟨?_, ?_⟩
  · rintro ⟨as, bs, heq, hne⟩
    refine ⟨bs.reverse, as.reverse, ?_, fun other hmem => ?_⟩
    · simpa using congrArg List.reverse heq
    · simpa using hne other (List.mem_reverse.mp hmem)
  · rintro ⟨before, after, rfl, hne⟩
    refine ⟨after.reverse, before.reverse, by simp, fun other hmem => ?_⟩
    simpa using hne other (List.mem_reverse.mp hmem)

/-! What is found under a name. -/

theorem find_register (r : Registry) (op : Operation) (name : String) :
    (r.register op).find name =
      if op.name = name then .ok ⟨r.operations.size, name⟩ else r.find name := by
  split
  case isTrue h => rw [← h, find_register_self]
  case isFalse h => exact find_register_of_ne r (Ne.symm h)

/-- A registry in which each name is bound once, to the last of some operations that has it. -/
structure Consistent (ops : List Operation) (r : Registry) : Prop where
  distinct : (r.bindings.map Prod.fst).Nodup
  absent : ∀ name, named? name ops = none → r.find name = .error (.undefinedOperation name)
  present : ∀ name op, named? name ops = some op →
    ∃ f, r.find name = .ok f ∧ f.name = name ∧ r.resolve f = .ok op

theorem consistent_empty : Consistent [] empty where
  distinct := List.nodup_nil
  absent _ _ := rfl
  present _ _ h := by cases h

theorem Consistent.define (h : Consistent ops r) (op : Operation) :
    Consistent ops (r.define op).2 where
  distinct := h.distinct
  absent := h.absent
  present name known hknown := by
    obtain ⟨f, hf, hname, hop⟩ := h.present name known hknown
    exact ⟨f, hf, hname, ((Extends.refl r).define op).resolve hop⟩

theorem distinct_register (h : (r.bindings.map Prod.fst).Nodup) (op : Operation) :
    ((r.register op).bindings.map Prod.fst).Nodup := by
  refine List.nodup_cons.mpr ⟨by simp, ?_⟩
  exact List.Nodup.sublist (List.filter_sublist.map Prod.fst) h

/-- What is registered last takes the name over, and every other name keeps what it means. -/
theorem Consistent.register (h : Consistent ops r) (op : Operation) :
    Consistent (ops ++ [op]) (r.register op) where
  distinct := distinct_register h.distinct op
  absent name hnone := by
    have hne : op.name ≠ name := named?_eq_none_iff.mp hnone op (by simp)
    rw [named?_append_of_ne ops (by simpa using hne)] at hnone
    rw [find_register, if_neg hne]
    exact h.absent name hnone
  present name last hlast := by
    rw [find_register]
    by_cases hname : op.name = name
    · subst hname
      cases (named?_append_self ops op).symm.trans hlast
      exact ⟨_, if_pos rfl, rfl, resolve_register_self r op⟩
    · rw [named?_append_of_ne ops (by simpa using hname)] at hlast
      obtain ⟨f, hf, hfname, hop⟩ := h.present name last hlast
      exact ⟨f, by rw [if_neg hname, hf], hfname, ((Extends.refl r).register op).resolve hop⟩

theorem consistent_reached (h : Reached ops r) : Consistent ops r :=
  reached_induction (fun op h => h.register op) (fun op h => h.define op) consistent_empty h

/-- What is registered under other names does not touch what is found under this one. -/
theorem find_run_of_ne (r : Registry) (h : ∀ op ∈ registered actions, op.name ≠ name) :
    (r.run actions).find name = r.find name := by
  refine run_induction (P := fun ops s => (∀ op ∈ ops, op.name ≠ name) → s.find name = r.find name)
    ?_ (fun _ ih => ih) (fun _ => rfl) actions h
  intro ops s op ih hne
  rw [find_register, if_neg (hne op (by simp))]
  exact ih fun other hmem => hne other (by simp [hmem])

/-! All that can be asked goes through what is found. -/

theorem get_of_find (hf : r.find name = .ok f) : r.get name = r.resolve f := by
  rw [get, hf]

/-- What a name that means an operation answers. -/
structure Answers (r : Registry) (name : String) (op : Operation) : Prop where
  get : r.get name = .ok op
  call : ∀ args, r.call name args = op.run args
  describe : r.describe name = .ok op.description
  lambda : ∃ f, r.lambda name = .ok (.lambda f) ∧ f.name = op.name ∧
    ∀ args, r.apply f args = op.run args

/-- What a name that means nothing answers. -/
structure Refuses (r : Registry) (name : String) : Prop where
  get : r.get name = .error (.undefinedOperation name)
  call : ∀ args, r.call name args = .error (.undefinedOperation name)
  describe : r.describe name = .error (.undefinedOperation name)
  lambda : r.lambda name = .error (.undefinedOperation name)

theorem answers_of_find (hf : r.find name = .ok f) (hname : f.name = op.name)
    (hop : r.resolve f = .ok op) : r.Answers name op := by
  have hget : r.get name = .ok op := (get_of_find hf).trans hop
  exact {
    get := hget
    call args := by rw [Registry.call, hget]
    describe := by rw [Registry.describe, hget]; rfl
    lambda := ⟨f, by rw [Registry.lambda, hf]; rfl, hname, fun args => by rw [apply, hop]⟩ }

theorem refuses_of_find (hf : r.find name = .error (.undefinedOperation name)) :
    r.Refuses name := by
  have hget : r.get name = .error (.undefinedOperation name) := by rw [Registry.get, hf]
  exact {
    get := hget
    call args := by rw [Registry.call, hget]
    describe := by rw [Registry.describe, hget]; rfl
    lambda := by rw [Registry.lambda, hf]; rfl }

theorem Consistent.answers (h : Consistent ops r) (hop : named? name ops = some op) :
    r.Answers name op := by
  obtain ⟨f, hf, hname, hresolve⟩ := h.present name op hop
  exact answers_of_find hf (hname.trans (named?_eq_some_iff.mp hop).1.symm) hresolve

theorem Consistent.refuses (h : Consistent ops r) (hnone : named? name ops = none) :
    r.Refuses name := refuses_of_find (h.absent name hnone)

/-! The names, and how many there are. -/

theorem mem_names : name ∈ r.names ↔ ∃ b ∈ r.bindings, b.1 = name := by
  rw [names, List.mem_mergeSort, List.mem_map]

theorem has_iff_mem_names : r.has name = true ↔ name ∈ r.names := by
  simp only [has, List.lookup_isSome_iff, mem_names, beq_iff_eq, @eq_comm _ name]

/-- A name is known just if something is found under it. -/
theorem has_iff_find : r.has name = true ↔ ∃ f, r.find name = .ok f := by
  rw [has, find]
  cases r.bindings.lookup name <;> simp

theorem Consistent.mem_names_iff (h : Consistent ops r) :
    name ∈ r.names ↔ ∃ op ∈ ops, op.name = name := by
  rw [← has_iff_mem_names, has_iff_find]
  constructor
  · rintro ⟨f, hf⟩
    by_contra hno
    have hnone : named? name ops = none :=
      named?_eq_none_iff.mpr fun op hmem hname => hno ⟨op, hmem, hname⟩
    cases hf.symm.trans (h.absent name hnone)
  · rintro ⟨op, hmem, hname⟩
    cases hlast : named? name ops with
    | none => exact absurd hname (named?_eq_none_iff.mp hlast op hmem)
    | some last =>
      obtain ⟨f, hf, -⟩ := h.present name last hlast
      exact ⟨f, hf⟩

/-- Either a name means something, or it means nothing to anyone who asks. -/
theorem Consistent.answers_or_refuses (h : Consistent ops r) (name : String) :
    (name ∈ r.names ∧ ∃ op, named? name ops = some op ∧ r.Answers name op) ∨
      (name ∉ r.names ∧ r.Refuses name) := by
  rw [h.mem_names_iff]
  cases hop : named? name ops with
  | none =>
    refine .inr ⟨?_, h.refuses hop⟩
    rintro ⟨op, hmem, hname⟩
    exact named?_eq_none_iff.mp hop op hmem hname
  | some op =>
    obtain ⟨hname, before, after, rfl, -⟩ := named?_eq_some_iff.mp hop
    exact .inl ⟨⟨op, by simp, hname⟩, op, rfl, h.answers hop⟩

theorem count_eq_length_names (r : Registry) : r.count = r.names.length := by
  rw [count, names, List.length_mergeSort, List.length_map]

/-- Sorted and without repetition is strictly ascending, by bytes as by characters. -/
theorem names_ascending (h : (r.bindings.map Prod.fst).Nodup) :
    r.names.Pairwise fun a b => Text.bytes a < Text.bytes b := by
  have hsorted : r.names.Pairwise (· ≤ ·) := by
    have := @List.pairwise_mergeSort String (fun a b => decide (a ≤ b))
      (fun a b c hab hbc => by simpa using le_trans (by simpa using hab) (by simpa using hbc))
      (fun a b => by simpa using le_total a b) (r.bindings.map Prod.fst)
    simpa [names] using this
  have hdistinct : r.names.Nodup := (List.mergeSort_perm _ _).nodup_iff.mpr h
  exact hsorted.imp₂ (fun a b hle hne => Text.bytes_lt (lt_of_le_of_ne hle hne)) hdistinct

theorem Consistent.succeeds_iff (h : Consistent ops r) (name : String) :
    ((∃ op, r.get name = .ok op) ↔ name ∈ r.names) ∧
    ((∃ f, r.lambda name = .ok f) ↔ name ∈ r.names) ∧
    ((∃ text, r.describe name = .ok text) ↔ name ∈ r.names) := by
  rcases h.answers_or_refuses name with ⟨hmem, op, -, hop⟩ | ⟨hnot, hno⟩
  · obtain ⟨f, hf, -⟩ := hop.lambda
    exact ⟨iff_of_true ⟨op, hop.get⟩ hmem, iff_of_true ⟨_, hf⟩ hmem,
      iff_of_true ⟨_, hop.describe⟩ hmem⟩
  · exact ⟨iff_of_false (by simp [hno.get]) hnot, iff_of_false (by simp [hno.lambda]) hnot,
      iff_of_false (by simp [hno.describe]) hnot⟩

/-- What a name answers does not change when something is registered under others. -/
theorem answers_run (h : Reached ops r) (hop : r.Answers name op)
    (hmore : ∀ op ∈ registered actions, op.name ≠ name) : (r.run actions).Answers name op := by
  rcases (consistent_reached h).answers_or_refuses name with ⟨-, last, hlast, hanswers⟩ | ⟨-, hno⟩
  · cases hop.get.symm.trans hanswers.get
    refine (consistent_reached (reached_run h actions)).answers ?_
    rwa [named?_append_of_ne ops hmore]
  · cases hop.get.symm.trans hno.get

/-- Whatever has been registered, in whatever order and how often: the names are those registered, in
ascending order; what is asked by a name succeeds for just these names, and for each of them answers
as the last operation registered under it, whatever else is registered later. -/
theorem names_consistent (h : Reached ops r) :
    (r.names.Pairwise fun a b => Text.bytes a < Text.bytes b) ∧
    (∀ name, name ∈ r.names ↔ ∃ op ∈ ops, op.name = name) ∧
    r.count = r.names.length ∧
    ∀ name,
      (r.has name = true ↔ name ∈ r.names) ∧
      ((∃ op, r.get name = .ok op) ↔ name ∈ r.names) ∧
      ((∃ f, r.lambda name = .ok f) ↔ name ∈ r.names) ∧
      ((∃ text, r.describe name = .ok text) ↔ name ∈ r.names) ∧
      (name ∉ r.names → r.Refuses name) ∧
      (∀ op, named? name ops = some op → r.Answers name op) ∧
      ∀ more, (∀ op ∈ registered more, op.name ≠ name) →
        (r.run more).lambda name = r.lambda name ∧
        ∀ op, r.Answers name op → (r.run more).Answers name op := by
  have hr := consistent_reached h
  refine ⟨names_ascending hr.distinct, fun _ => hr.mem_names_iff, count_eq_length_names r,
    fun name => ?_⟩
  obtain ⟨hget, hlambda, hdescribe⟩ := hr.succeeds_iff name
  refine ⟨has_iff_mem_names, hget, hlambda, hdescribe, fun hnot => ?_, fun op => hr.answers,
    fun more hmore => ⟨?_, fun op hop => answers_run h hop hmore⟩⟩
  · exact (hr.answers_or_refuses name).elim (fun h => absurd h.1 hnot) And.right
  · rw [lambda, lambda, find_run_of_ne r hmore]

/-- An operation of its own under the name of a core one. -/
def echo : Operation := .unary "+" "Returns its first argument" .ok

theorem names_consistent_overwritten :
    let actions : List Action :=
      [.register echo, .registerAll Core.Group.arithmetic.operations, .call "+" [], .register echo]
    (core.run actions).count = (core.run actions).names.length ∧
      (core.run actions).Answers "+" echo := by
  intro actions
  obtain ⟨-, -, hcount, hname⟩ := names_consistent (reached_run .core actions)
  exact ⟨hcount, (hname "+").2.2.2.2.2.1 echo rfl⟩

end Sexpr.Registry
