import Sexpr.Proofs.Form.Total
import Sexpr.Proofs.Reader.Invariant

/-! How many backslashes it takes to write strings down. Each quote and each backslash of a string that is
read has a backslash of the text before it, and no backslash stands before two of them. So a text has
at least as many as the strings read from it need. -/
namespace Sexpr

namespace Text.Quoted

/-- How many backslashes stand between the quotes at least: one before each quote of the string, and two
for each of its backslashes. -/
def needs (s : List Char) : Nat := Form.escapes s + s.count '\\'

variable {c d e : Char} {s read value : List Char}

theorem needs_cons : needs (c :: s) = needs [c] + needs s := by
  simp only [needs, Form.escapes, List.count_cons, List.count_nil]
  omega

theorem needs_of_ne (hq : c ≠ '"') (hb : c ≠ '\\') : needs [c] = 0 := by
  simp [needs, Form.escapes, hq, hb]

theorem needs_le_of_unescape? (h : unescape? d = some e) : needs [e] ≤ 1 + [d].count '\\' := by
  rw [unescape?] at h
  split_ifs at h with hq hn hb <;> cases h
  · rw [hq]
    decide
  · rw [hn]
    decide
  · rw [hb]
    decide

theorem decodeOnto_escape (h : decodeOnto read ('\\' :: d :: s) = .ok value) :
    ∃ e, unescape? d = some e ∧ decodeOnto (e :: read) s = .ok value := by
  rw [decodeOnto] at h
  simp only [if_true] at h
  cases he : unescape? d with
  | none =>
    rw [he] at h
    cases h
  | some e =>
    rw [he] at h
    exact ⟨e, rfl, h⟩

theorem needs_le_of_decodeOnto {body : List Char} (hbody : Token.StringBody body)
    (h : decodeOnto read body = .ok value) : needs value ≤ needs read + body.count '\\' := by
  -- Each escape pays for the character it stands for, and what is plain costs nothing.
  induction hbody generalizing read with
  | nil =>
    cases h
    simp [needs, Form.escapes]
  | plain hq hb _ ih =>
    rw [decodeOnto_plain hb] at h
    have hle := ih h
    rw [needs_cons, needs_of_ne hq hb] at hle
    rw [List.count_cons_of_ne hb]
    omega
  | @escape d s _ _ ih =>
    obtain ⟨e, he, h⟩ := decodeOnto_escape h
    have hle := ih h
    have hchar := needs_le_of_unescape? he
    rw [needs_cons] at hle
    rw [List.count_cons_self, ← List.singleton_append, List.count_append]
    omega

end Text.Quoted

namespace Token

variable {t : Token} {f : Form} {s : List Char}

theorem exists_body (hw : Whole t) (ht : t.toList = '"' :: s) :
    ∃ body, StringBody body ∧ t.toList = '"' :: (body ++ ['"']) := by
  rcases whole_shape hw with hbody | ⟨d, hd, heq⟩ | hall
  · exact hbody
  · cases ht.symm.trans heq
    cases hd
  · rw [ht] at hall
    exact absurd (hall '"' List.mem_cons_self) (by decide)

/-- Between the quotes of a token that stands for a string lies an encoding of that string. -/
theorem body_of_denotes {value : String} (h : t.Denotes (.string value)) (hw : Whole t) :
    ∃ body, StringBody body ∧ t.toList = '"' :: (body ++ ['"']) ∧
      Text.Quoted.decode body = .ok value.toList := by
  obtain ⟨s, hs⟩ : ∃ s, t.toList = '"' :: s := by
    rcases Form.ofToken_cases h.form with ⟨x, -, hf⟩ | ⟨name, -, hf⟩ | ⟨s, value, hs, -⟩ | hf |
      ⟨b, hf⟩ | ⟨-, -, -, -, -, hf⟩
    · cases hf
    · cases hf
    · exact ⟨s, hs⟩
    · cases hf
    · cases hf
    · cases hf
  obtain ⟨body, hbody, ht⟩ := exists_body hw hs
  obtain ⟨decoded, hdecode, hf⟩ := (Form.ofToken_quoted ht).mp h.form
  cases hf
  refine ⟨body, hbody, ht, ?_⟩
  rw [String.toList_ofList, hdecode]

theorem weight_needs_le (h : t.Denotes f) (hw : Whole t) :
    f.weight Text.Quoted.needs ≤ t.toList.count '\\' := by
  cases f with
  | string value =>
    obtain ⟨body, hbody, ht, hdecode⟩ := body_of_denotes h hw
    have hle := Text.Quoted.needs_le_of_decodeOnto hbody hdecode
    have hnil : Text.Quoted.needs [] = 0 := rfl
    rw [hnil] at hle
    rw [ht, List.count_cons_of_ne (by decide), List.count_append]
    change Text.Quoted.needs value.toList ≤ _
    omega
  | _ => exact Nat.zero_le _

/-- Only strings are written with backslashes. -/
theorem notMem_of_denotes (h : t.Denotes f) (hw : Whole t) (hf : ∀ value, f ≠ .string value) :
    '\\' ∉ t.toList := by
  rcases whole_shape hw with ⟨body, -, ht⟩ | ⟨d, hd, ht⟩ | hall
  · obtain ⟨decoded, -, hstring⟩ := (Form.ofToken_quoted ht).mp h.form
    exact absurd hstring (hf _)
  · rw [ht, List.mem_singleton]
    rintro rfl
    cases hd
  · intro hmem
    exact absurd (hall _ hmem) (by decide)

/-- What lies between tokens is no part of any. -/
theorem sum_count_le_of_covered {ts : List Token} (h : Covered s ts) (c : Char) :
    (ts.map fun t => t.toList.count c).sum ≤ s.count c := by
  induction h with
  | nil => exact Nat.le_refl 0
  | token _ _ ih =>
    rw [List.map_cons, List.sum_cons, String.toList_ofList, List.count_append]
    exact Nat.add_le_add_left ih _
  | blank _ _ ih | comma _ ih | unmatched _ _ ih => exact ih.trans List.count_le_count_cons
  | comment _ _ _ ih =>
    rw [List.count_append]
    exact Nat.le_add_left_of_le ih

end Token

namespace Frame

def total (w : List Char → Nat) : Frame → Nat
  | list items | array items => Form.itemsTotal w items
  | map entries none => Form.entriesTotal w entries
  | map entries (some key) => Form.entriesTotal w entries + key.total w

variable {w : List Char → Nat} {frame : Frame} {f : Form}

theorem total_close [Visiting] (h : frame.close = .ok f) : f.total w = frame.total w := by
  cases frame with
  | list items | array items =>
    cases h
    simp [total]
  | map entries key =>
    cases key with
    | none =>
      cases h
      simp [total]
    | some key => cases h

theorem total_add_le (frame : Frame) (f : Form) : (frame.add f).total w ≤ frame.total w + f.total w := by
  cases frame with
  | list items | array items => exact Nat.le_of_eq (Nat.add_comm _ _)
  | map entries key =>
    cases key with
    | none => exact Nat.le_refl _
    | some key =>
      have hput := Form.entriesTotal_putEntry_le (w := w) key f entries
      rwa [← Nat.add_assoc] at hput

theorem total_opened {t : Token} (h : opened? t = some frame) : frame.total w = 0 := by
  rcases Machine.opened_cases h with ⟨-, rfl⟩ | ⟨-, rfl⟩ | ⟨-, rfl⟩ <;> rfl

end Frame

namespace Machine

/-- What the strings weigh that the open forms and the whole ones hold. -/
def total (w : List Char → Nat) (m : Machine) : Nat :=
  (m.frames.map (Frame.total w)).sum + Form.itemsTotal w m.found

variable {w : List Char → Nat} {m n : Machine} {t : Token}

theorem total_deliver_le (f : Form) (m : Machine) :
    (m.deliver f).total w ≤ m.total w + f.total w := by
  obtain ⟨frames, found⟩ := m
  cases frames with
  | nil =>
    simp only [deliver, total, Form.itemsTotal_cons]
    omega
  | cons frame frames =>
    have hadd := frame.total_add_le (w := w) f
    simp only [deliver, total, List.map_cons, List.sum_cons]
    omega

section Cost

variable {cost : Token → Nat} (hcost : ∀ t f, Token.Whole t → t.Denotes f → f.weight w ≤ cost t)

include hcost

/-- A step brings in no more than its token pays for; to close a form brings in nothing. -/
theorem total_step_le [Visiting] (ht : Token.Whole t) (h : m.step t = .ok n) :
    n.total w ≤ m.total w + cost t := by
  rcases step_cases h with ⟨frame, frames, f, hframes, hclose, rfl⟩ | ⟨frame, ho, -, rfl⟩ |
    ⟨f, hf, rfl⟩
  · have hdeliver := total_deliver_le (w := w) f ⟨frames, m.found⟩
    have hframe := Frame.total_close (w := w) hclose
    simp only [total, hframes, List.map_cons, List.sum_cons] at hdeliver ⊢
    omega
  · have hopened := Frame.total_opened (w := w) ho
    simp only [total, List.map_cons, List.sum_cons]
    omega
  · have hdeliver := total_deliver_le (w := w) f m
    have hpaid := hcost t f ht hf
    rw [Form.total_atom (Form.isAtom_of_denotes hf)] at hdeliver
    omega

theorem total_run_le [Visiting] {tokens : List Token} (ht : ∀ t ∈ tokens, Token.Whole t)
    (h : m.run tokens = .ok n) : n.total w ≤ m.total w + (tokens.map cost).sum := by
  induction tokens generalizing m with
  | nil =>
    cases h
    exact Nat.le_refl _
  | cons t tokens ih =>
    obtain ⟨ht, hrest⟩ := List.forall_mem_cons.mp ht
    obtain ⟨m', hstep, h⟩ := step_of_run_cons h
    have hhead := total_step_le hcost ht hstep
    have htail := ih hrest h
    rw [List.map_cons, List.sum_cons]
    omega

end Cost

end Machine

/-- The strings read from a text need no more backslashes than it has. -/
theorem needs_le_of_read [Visiting] {text : String} {fs : List Form} (h : read text = .ok fs) :
    Form.itemsTotal Text.Quoted.needs fs ≤ text.toList.count '\\' := by
  have hcost (t : Token) (f : Form) (ht : t.Whole) (hf : t.Denotes f) :
      f.weight Text.Quoted.needs ≤ t.toList.count '\\' := Token.weight_needs_le hf ht
  have hrun := Machine.total_run_le hcost (fun t => Token.whole_of_mem_tokenize)
    (readTokens_eq_ok_iff.mp h)
  have hcovered := Token.sum_count_le_of_covered (covered_scan text.toList) '\\'
  have hstart : Machine.start.total Text.Quoted.needs = 0 := rfl
  rw [hstart, Nat.zero_add, Machine.total, List.map_nil, List.sum_nil, Nat.zero_add,
    Form.itemsTotal_reverse] at hrun
  exact hrun.trans hcovered

end Sexpr
