import Sexpr.Proofs.Reader.Atoms
import Sexpr.Proofs.Reader.Simulation

/-! What the stack machine holds at every moment: legible forms with distinct keys, none nested deeper
than the open forms around it leave room for. So all that is read is readable. -/
namespace Sexpr

namespace Frame

def Fits (levels : Nat) : Frame → Prop
  | list items | array items => ∀ f ∈ items, f.Fits levels
  | map entries key =>
    (entries.Pairwise fun a b => Form.sameKey a.1 b.1 = false) ∧
      (∀ e ∈ entries, e.1.Fits levels ∧ e.2.Fits levels) ∧ ∀ k ∈ key, k.Fits levels

end Frame

namespace Machine

/-- Each open form leaves one level less to the forms inside. -/
def FramesFit : List Frame → Prop
  | [] => True
  | frame :: frames => frame.Fits (maxDepth - (frames.length + 1)) ∧ FramesFit frames

structure Invariant (m : Machine) : Prop where
  bound : m.frames.length ≤ maxDepth
  frames : FramesFit m.frames
  found : ∀ f ∈ m.found, f.Fits maxDepth

end Machine

namespace Frame

variable {frame : Frame} {f : Form} {levels : Nat}

theorem fits_close [Visiting] (hframe : frame.Fits levels) (h : frame.close = .ok f) :
    f.Fits (levels + 1) := by
  cases frame with
  | list items =>
    cases h
    exact Form.fits_list.mpr fun f hf => hframe f (List.mem_reverse.mp hf)
  | array items =>
    cases h
    exact Form.fits_array.mpr fun f hf => hframe f (List.mem_reverse.mp hf)
  | map entries key =>
    cases key with
    | some key => cases h
    | none =>
      cases h
      exact Form.fits_map.mpr ⟨hframe.1, hframe.2.1⟩

theorem fits_add (hframe : frame.Fits levels) (hf : f.Fits levels) : (frame.add f).Fits levels := by
  cases frame with
  | list items | array items => exact List.forall_mem_cons.mpr ⟨hf, hframe⟩
  | map entries key =>
    obtain ⟨hdistinct, hentries, hkey⟩ := hframe
    cases key with
    | none => exact ⟨hdistinct, hentries, fun k hk => by cases hk; exact hf⟩
    | some key =>
      have hkey : key.Fits levels := hkey key rfl
      have hkeys : ∀ e ∈ entries, e.1.WellFormed := fun e he => (hentries e he).1.wellFormed
      exact ⟨Form.pairwise_putEntry hkey.wellFormed hkeys hdistinct,
        Form.forall_mem_putEntry hkey hf hentries, fun k hk => by cases hk⟩

theorem fits_opened {t : Token} (h : opened? t = some frame) : frame.Fits levels := by
  rcases Machine.opened_cases h with ⟨-, rfl⟩ | ⟨-, rfl⟩ | ⟨-, rfl⟩ <;> simp [Fits]

end Frame

namespace Machine

variable {m n : Machine} {t : Token}

theorem invariant_start : start.Invariant := by
  refine ⟨Nat.zero_le _, trivial, fun f hf => ?_⟩
  cases hf

/-- A form that fits where it is delivered goes to the innermost open form, or to those that are done. -/
theorem invariant_deliver {f : Form} (hm : m.Invariant) (hf : f.Fits (maxDepth - m.frames.length)) :
    (m.deliver f).Invariant := by
  obtain ⟨frames, found⟩ := m
  obtain ⟨hbound, hframes, hfound⟩ := hm
  cases frames with
  | nil => exact ⟨hbound, trivial, List.forall_mem_cons.mpr ⟨hf, hfound⟩⟩
  | cons frame frames => exact ⟨hbound, ⟨Frame.fits_add hframes.1 hf, hframes.2⟩, hfound⟩

variable [Visiting]

/-- All that a step can do: close the innermost form, open another, or deliver an atom. -/
theorem step_cases (h : m.step t = .ok n) :
    (∃ frame frames f, m.frames = frame :: frames ∧ frame.close = .ok f ∧
        n = deliver f ⟨frames, m.found⟩) ∨
      (∃ frame, Frame.opened? t = some frame ∧ m.frames.length < maxDepth ∧
        n = { m with frames := frame :: m.frames }) ∨
      ∃ f, t.Denotes f ∧ n = m.deliver f := by
  by_cases hc : m.closes t
  · obtain ⟨frame, hframe, rfl⟩ := hc
    obtain ⟨frames, found⟩ := m
    cases frames with
    | nil => cases hframe
    | cons inner frames =>
      cases hframe
      rw [step_closer] at h
      cases hclose : frame.close with
      | error e =>
        rw [hclose] at h
        cases h
      | ok f =>
        rw [hclose] at h
        cases h
        exact .inl ⟨frame, frames, f, rfl, hclose, rfl⟩
  · rw [step_eq_take hc] at h
    cases hs : Statement.ofToken? t with
    | some kind =>
      rw [take_statement hs] at h
      cases h
    | none =>
      cases hl : Token.isCloser t with
      | true =>
        rw [take_closer hs hl] at h
        cases h
      | false =>
        cases ho : Frame.opened? t with
        | some frame =>
          by_cases hdepth : m.frames.length < maxDepth
          · rw [take_opened_of_lt hs ho hdepth] at h
            cases h
            exact .inr (.inl ⟨frame, rfl, hdepth, rfl⟩)
          · rw [take_opened_of_le hs ho (Nat.not_lt.mp hdepth)] at h
            cases h
        | none =>
          rw [take_atom hs hl ho] at h
          cases hf : Form.ofToken t with
          | error e =>
            rw [hf] at h
            cases h
          | ok f =>
            rw [hf] at h
            cases h
            exact .inr (.inr ⟨f, ⟨Token.notMem_delimiters_iff.mpr ⟨hl, ho⟩, hs, hf⟩, rfl⟩)

theorem step_of_run_cons {tokens : List Token} (h : m.run (t :: tokens) = .ok n) :
    ∃ m', m.step t = .ok m' ∧ m'.run tokens = .ok n := by
  rw [run] at h
  cases hstep : m.step t with
  | error e =>
    rw [hstep] at h
    cases h
  | ok m' =>
    rw [hstep] at h
    exact ⟨m', rfl, h⟩

theorem invariant_step (hm : m.Invariant) (ht : Token.Whole t) (h : m.step t = .ok n) :
    n.Invariant := by
  rcases step_cases h with ⟨frame, frames, f, hframes, hclose, rfl⟩ | ⟨frame, ho, hdepth, rfl⟩ |
    ⟨f, hf, rfl⟩
  · obtain ⟨hbound, hfit, hfound⟩ := hm
    rw [hframes, List.length_cons] at hbound
    rw [hframes] at hfit
    have hf := Frame.fits_close hfit.1 hclose
    have hlevels : maxDepth - (frames.length + 1) + 1 = maxDepth - frames.length := by omega
    rw [hlevels] at hf
    exact invariant_deliver ⟨Nat.le_of_succ_le hbound, hfit.2, hfound⟩ hf
  · exact ⟨hdepth, ⟨Frame.fits_opened ho, hm.frames⟩, hm.found⟩
  · have hlegible := Form.legible_of_denotes hf ht
    exact invariant_deliver hm (Form.fits_atom (Form.isAtom_of_denotes hf) hlegible)

theorem invariant_run {tokens : List Token} (hm : m.Invariant) (ht : ∀ t ∈ tokens, Token.Whole t)
    (h : m.run tokens = .ok n) : n.Invariant := by
  induction tokens generalizing m with
  | nil =>
    cases h
    exact hm
  | cons t tokens ih =>
    obtain ⟨ht, hrest⟩ := List.forall_mem_cons.mp ht
    obtain ⟨m', hstep, h⟩ := step_of_run_cons h
    exact ih (invariant_step hm ht hstep) hrest h

end Machine

/-- Whatever is read from a text can be read again, and its maps have distinct keys. -/
theorem fits_of_read [Visiting] {text : String} {fs : List Form} (h : read text = .ok fs) :
    ∀ f ∈ fs, f.Fits maxDepth := by
  have hrun := readTokens_eq_ok_iff.mp h
  have hinvariant := Machine.invariant_run Machine.invariant_start
    (fun t => Token.whole_of_mem_tokenize) hrun
  exact fun f hf => hinvariant.found f (List.mem_reverse.mpr hf)

end Sexpr
