import Sexpr.Proofs.Form.Built
import Sexpr.Proofs.Registry.History

/-! What is replied, through whatever registry and after whatever has been done with it. As long as every
operation makes its replies out of its arguments, nothing that is not well-formed ever comes back. -/
namespace Sexpr

/-- An operation whose replies are built out of its arguments. -/
def Operation.Builds (op : Operation) : Prop :=
  ∀ args reply, op.run args = .ok reply → Built args reply.value

theorem Core.builds {op : Operation} (hop : op ∈ Core.operations) : op.Builds :=
  fun _ _ h => .core hop (fun _ ha => .given ha) h

namespace Registry

/-- A registry of nothing but operations whose replies are built out of their arguments. -/
def Builds (r : Registry) : Prop := ∀ op ∈ r.operations, op.Builds

variable {r : Registry} {args : List Form} {reply : Reply}

theorem builds_empty : empty.Builds := by
  intro op hop
  exact absurd hop (Array.not_mem_empty op)

/-- An operation that is brought in stands beside those that are there, under a name or not. -/
theorem builds_define {op : Operation} (hr : r.Builds) (hop : op.Builds) : (r.define op).2.Builds := by
  intro other hother
  rcases Array.mem_push.mp hother with h | rfl
  · exact hr other h
  · exact hop

theorem builds_registerAll {ops : List Operation} (hr : r.Builds) (hops : ∀ op ∈ ops, op.Builds) :
    (r.registerAll ops).Builds := by
  induction ops generalizing r with
  | nil => exact hr
  | cons op ops ih =>
    obtain ⟨hop, hops⟩ := List.forall_mem_cons.mp hops
    exact ih (builds_define hr hop) hops

theorem builds_core : core.Builds := builds_registerAll builds_empty fun _ => Core.builds

/-- A value means one of the operations of the registry, if any. -/
theorem mem_of_resolve {f : Lambda} {op : Operation} (h : r.resolve f = .ok op) :
    op ∈ r.operations :=
  Array.mem_of_getElem? (resolve_eq_ok_iff.mp h)

theorem built_of_apply {f : Lambda} (hr : r.Builds) (h : r.apply f args = .ok reply) :
    Built args reply.value := by
  unfold apply at h
  split at h
  · exact hr _ (mem_of_resolve ‹_›) args reply h
  · cases h

theorem built_of_call {name : String} (hr : r.Builds) (h : r.call name args = .ok reply) :
    Built args reply.value := by
  unfold call at h
  split at h
  · rename_i op hop
    unfold get at hop
    split at hop
    · exact hr op (mem_of_resolve hop) args reply h
    · cases hop
  · cases h

/-! What is done with a registry. -/

/-- What an action brings in, under a name or without one. -/
def Action.defined : Action → List Operation
  | register op | define op => [op]
  | registerAll ops => ops
  | find _ | call _ _ | apply _ _ => []

variable {actions : List Action}

theorem builds_step {action : Action} (hr : r.Builds) (h : ∀ op ∈ action.defined, op.Builds) :
    (r.step action).Builds := by
  cases action with
  | register op | define op => exact builds_define hr (h op List.mem_cons_self)
  | registerAll ops => exact builds_registerAll hr h
  | find | call | apply => exact hr

/-- Replies are built out of arguments as long as only such operations are brought in. -/
theorem builds_run (hr : r.Builds) (h : ∀ action ∈ actions, ∀ op ∈ action.defined, op.Builds) :
    (r.run actions).Builds := by
  induction actions generalizing r with
  | nil => exact hr
  | cons action actions ih =>
    obtain ⟨haction, hactions⟩ := List.forall_mem_cons.mp h
    exact ih (builds_step hr haction) hactions

/-- Whatever is done with the core operations and with others that make their replies out of their
arguments: to well-formed arguments every reply is well-formed, whether an operation is called by its
name or as a value, and so its maps have distinct keys without an identifier or an operation in them. -/
theorem wellFormed_reply_of_run (h : ∀ action ∈ actions, ∀ op ∈ action.defined, op.Builds)
    (hargs : ∀ a ∈ args, a.WellFormed) :
    (∀ name reply, (core.run actions).call name args = .ok reply →
      reply.value.WellFormed ∧ Form.Everywhere Form.PlainKeys reply.value) ∧
    ∀ f reply, (core.run actions).apply f args = .ok reply →
      reply.value.WellFormed ∧ Form.Everywhere Form.PlainKeys reply.value := by
  have hbuilds := builds_run builds_core h
  have hreply {f : Form} (hf : Built args f) :
      f.WellFormed ∧ Form.Everywhere Form.PlainKeys f := by
    have hwell := wellFormed_of_built hf hargs
    exact ⟨hwell, Form.everywhere_plainKeys hwell⟩
  constructor
  · intro name reply hcall
    exact hreply (built_of_call hbuilds hcall)
  · intro f reply happly
    exact hreply (built_of_apply hbuilds happly)

end Registry

end Sexpr
