import Sexpr.Form.Key

/-! Induction over forms, and what the recursions over lists of forms and of entries say of their
members. -/
namespace Sexpr.Form

/-- What holds of a form as soon as it holds of its items, or of its keys and values, holds of all. -/
@[elab_as_elim, induction_eliminator]
theorem induction {motive : Form → Prop} (symbol : ∀ name, motive (symbol name))
    (keyword : ∀ name, motive (keyword name)) (number : ∀ value, motive (number value))
    (nil : motive nil) (boolean : ∀ value, motive (boolean value))
    (string : ∀ value, motive (string value)) (identifier : ∀ name, motive (identifier name))
    (list : ∀ items, (∀ f ∈ items, motive f) → motive (list items))
    (array : ∀ items, (∀ f ∈ items, motive f) → motive (array items))
    (map : ∀ entries, (∀ e ∈ entries, motive e.1) → (∀ e ∈ entries, motive e.2) →
      motive (map entries))
    (lambda : ∀ operation, motive (lambda operation)) (f : Form) : motive f := by
  refine @Form.rec motive (fun fs => ∀ f ∈ fs, motive f)
    (fun es => (∀ e ∈ es, motive e.1) ∧ ∀ e ∈ es, motive e.2) (fun e => motive e.1 ∧ motive e.2)
    symbol keyword number nil boolean string identifier list array (fun es h => map es h.1 h.2)
    lambda ?_ ?_ ?_ ?_ ?_ f
  · simp
  · intro g gs hg hgs
    simpa using ⟨hg, hgs⟩
  · simp
  · intro e es he hes
    exact ⟨List.forall_mem_cons.mpr ⟨he.1, hes.1⟩, List.forall_mem_cons.mpr ⟨he.2, hes.2⟩⟩
  · intro key value hk hv
    exact ⟨hk, hv⟩

theorem allKeyable_iff {fs : List Form} : allKeyable fs = true ↔ ∀ f ∈ fs, f.isKeyable = true := by
  induction fs with
  | nil => simp [allKeyable]
  | cons f fs ih => simp [allKeyable, ih]

theorem valuesKeyable_iff {es : List Entry} :
    valuesKeyable es = true ↔ ∀ e ∈ es, e.2.isKeyable = true := by
  induction es with
  | nil => simp [valuesKeyable]
  | cons e es ih => simp [valuesKeyable, ih]

end Sexpr.Form
