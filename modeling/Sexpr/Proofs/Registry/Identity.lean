import Sexpr.Proofs.Form.Operations
import Sexpr.Proofs.Registry.Names

/-! Operations as values. Each definition has an id of its own, under which it stays, so an operation
that was taken as a value is told from all others and goes on to do what it did. -/
namespace Sexpr.Registry

variable {r : Registry} {ops : List Operation} {op : Operation} {n m : String} {f g : Lambda}
  {a b : Form} {actions : List Action}

theorem lambda_eq_ok_iff : r.lambda n = .ok a ↔ ∃ f, r.find n = .ok f ∧ a = .lambda f := by
  rw [lambda]
  cases r.find n <;> simp [Except.map, eq_comm]

theorem Consistent.of_find (h : Consistent ops r) (hf : r.find n = .ok f) :
    ∃ op, named? n ops = some op ∧ r.resolve f = .ok op := by
  cases hop : named? n ops with
  | none => cases hf.symm.trans (h.absent n hop)
  | some op =>
    obtain ⟨found, hfound, -, hresolve⟩ := h.present n op hop
    cases hf.symm.trans hfound
    exact ⟨op, rfl, hresolve⟩

theorem id_lt_of_resolve (h : r.resolve f = .ok op) : f.id < r.operations.size :=
  (Array.getElem?_eq_some_iff.mp (resolve_eq_ok_iff.mp h)).1

/-- No two names are bound to one id. -/
theorem Consistent.name_eq (h : Consistent ops r) (hf : r.find n = .ok f) (hg : r.find m = .ok g)
    (hid : f.id = g.id) : n = m := by
  obtain ⟨op, hop, hfop⟩ := h.of_find hf
  obtain ⟨other, hother, hgop⟩ := h.of_find hg
  rw [resolve_eq_ok_iff, hid, resolve_eq_ok_iff.mp hgop] at hfop
  cases hfop
  exact (named?_eq_some_iff.mp hop).1.symm.trans (named?_eq_some_iff.mp hother).1

/-- What is registered later has ids that were not there before. -/
theorem size_le_of_registered (hn : ∃ op ∈ registered actions, op.name = n)
    (hf : (r.run actions).find n = .ok f) : r.operations.size ≤ f.id := by
  have hrun := run_induction
    (P := fun ops s => Extends r s ∧
      ∀ name f, (∃ op ∈ ops, op.name = name) → s.find name = .ok f → r.operations.size ≤ f.id)
    (r := r) ?_ ?_ ⟨Extends.refl r, by simp⟩ actions
  · exact hrun.2 n f hn hf
  · intro ops s op ⟨hext, ih⟩
    refine ⟨hext.register op, fun name f hname hf => ?_⟩
    rw [find_register] at hf
    split at hf
    · cases hf
      exact hext.size_le
    · next hne =>
      obtain ⟨other, hmem, rfl⟩ := hname
      rcases List.mem_append.mp hmem with hmem | hmem
      · exact ih _ f ⟨other, hmem, rfl⟩ hf
      · exact absurd (by rw [List.mem_singleton.mp hmem]) hne
  · intro ops s op ⟨hext, ih⟩
    exact ⟨hext.define op, ih⟩

theorem id_eq_iff (h : Reached ops r) (hf : r.find n = .ok f)
    (hg : (r.run actions).find m = .ok g) :
    f.id = g.id ↔ n = m ∧ ∀ op ∈ registered actions, op.name ≠ n := by
  have hr := consistent_reached h
  obtain ⟨op, -, hop⟩ := hr.of_find hf
  have hlt := id_lt_of_resolve hop
  constructor
  · intro hid
    have hnot : ∀ op ∈ registered actions, op.name ≠ m := by
      intro op hmem hname
      exact absurd (size_le_of_registered ⟨op, hmem, hname⟩ hg) (Nat.not_le.mpr (hid ▸ hlt))
    rw [find_run_of_ne r hnot] at hg
    cases hr.name_eq hf hg hid
    exact ⟨rfl, hnot⟩
  · rintro ⟨rfl, hnot⟩
    rw [find_run_of_ne r hnot, hf] at hg
    cases hg
    rfl

/-- An operation that was taken as a value does what its name did at that moment. -/
theorem apply_run (h : Consistent ops r) (hf : r.find n = .ok f) (args : List Form) :
    (r.run actions).apply f args = r.call n args := by
  obtain ⟨op, -, hop⟩ := h.of_find hf
  rw [apply, (extends_run r actions).resolve hop, call, get_of_find hf, hop]

/-! Operations that are defined without a name. -/

theorem resolve_define (r : Registry) (op : Operation) :
    (r.define op).2.resolve (r.define op).1 = .ok op :=
  resolve_register_self r op

theorem id_define_lt (r : Registry) (op other : Operation) :
    (r.define op).1.id < (((r.define op).2.run actions).define other).1.id := by
  have hsize := (extends_run (r.define op).2 actions).size_le
  rw [define, Array.size_push] at hsize
  exact hsize

theorem apply_define (r : Registry) (op : Operation) (args : List Form) :
    ((r.define op).2.run actions).apply (r.define op).1 args = op.run args := by
  rw [apply, (extends_run _ actions).resolve (resolve_define r op)]

/-- Two operations taken by name at two moments are equal just if they were taken by the same name and
nothing was registered under it in between, and the earlier one does forever what its name did when it
was taken. Operations defined apart are never equal, whatever their names and whatever they do, and
to put an operation into some other form does not change what it is equal to. -/
theorem lambda_identity (h : Reached ops r) (later : List Action) :
    (∀ n m a b, r.lambda n = .ok a → (r.run later).lambda m = .ok b →
      ((a == b) = true ↔ n = m ∧ ∀ op ∈ registered later, op.name ≠ n) ∧ (b == a) = (a == b)) ∧
    (∀ n a, r.lambda n = .ok a →
      ∃ f, a = .lambda f ∧ ∀ args, (r.run later).apply f args = r.call n args) ∧
    (∀ op other,
      let f := (r.define op).1
      let s := (r.define op).2.run later
      let g := (s.define other).1
      (Form.lambda f == .lambda g) = false ∧ (Form.lambda g == .lambda f) = false ∧
        ∀ args, s.apply f args = op.run args) ∧
    ∀ (c : Form.Context) (f g : Lambda), (c.fill (.lambda f)).WellFormed →
      ((c.fill (.lambda f) == c.fill (.lambda g)) = true ↔
        (Form.lambda f == .lambda g) = true ∧ (c.fill (.lambda f)).OutsideKeys Form.NotNaN) := by
  refine ⟨fun n m a b ha hb => ?_, fun n a ha => ?_, fun op other => ?_, fun c f g hwell => ?_⟩
  · obtain ⟨f, hf, rfl⟩ := lambda_eq_ok_iff.mp ha
    obtain ⟨g, hg, rfl⟩ := lambda_eq_ok_iff.mp hb
    refine ⟨Form.equal_lambda.trans (id_eq_iff h hf hg), ?_⟩
    rw [Bool.eq_iff_iff, Form.equal_lambda, Form.equal_lambda, eq_comm]
  · obtain ⟨f, hf, rfl⟩ := lambda_eq_ok_iff.mp ha
    exact ⟨f, rfl, apply_run (consistent_reached h) hf⟩
  · intro f s g
    have hne : f.id ≠ g.id := Nat.ne_of_lt (id_define_lt r op other)
    refine ⟨?_, ?_, apply_define r op⟩
    · rwa [Bool.eq_false_iff, ne_eq, Form.equal_lambda]
    · rw [Bool.eq_false_iff, ne_eq, Form.equal_lambda]
      exact hne.symm
  · exact Form.equal_fill_lambda hwell

/-- To register a group anew makes other operations of it, with the same names, and leaves the rest. -/
theorem lambda_identity_group :
    let again := core.run [.registerAll Core.Group.arithmetic.operations]
    let plus := Form.lambda ⟨0, "+"⟩
    let other := Form.lambda ⟨9, "+"⟩
    let count := Form.lambda ⟨6, "count"⟩
    (core.lambda "+" = .ok plus ∧ again.lambda "+" = .ok other) ∧ (plus == other) = false ∧
      (core.lambda "count" = .ok count ∧ again.lambda "count" = .ok count) ∧
      (Form.array [.nil, count] == .array [.nil, count]) = true := by
  intro again plus other count
  obtain ⟨hequal, -, -, hfill⟩ := lambda_identity .core [.registerAll Core.Group.arithmetic.operations]
  have hplus : core.lambda "+" = .ok plus := rfl
  have hother : again.lambda "+" = .ok other := rfl
  have hcount : core.lambda "count" = .ok count := rfl
  have hagain : again.lambda "count" = .ok count := rfl
  refine ⟨⟨hplus, hother⟩, ?_, ⟨hcount, hagain⟩, ?_⟩
  · rw [Bool.eq_false_iff, ne_eq, (hequal _ _ _ _ hplus hother).1]
    rintro ⟨-, hnot⟩
    exact absurd hnot (by decide)
  · have hsame := (hequal _ _ _ _ hcount hagain).1.mpr ⟨rfl, by decide⟩
    exact (hfill (.element [.nil] .hole []) ⟨6, "count"⟩ ⟨6, "count"⟩ (by decide)).mpr
      ⟨hsame, by decide⟩

end Sexpr.Registry
