import Sexpr.Core.Arithmetic
import Sexpr.Proofs.Number.ReadBack

/-! What arithmetic makes of its arguments, whatever single sums, differences, products and quotients
are: the first argument that is no number decides before any of them is worked out, and a zero among
the divisors before any quotient counts. -/
namespace Sexpr

theorem Number.isZero_iff {x : Number} :
    x.isZero = true ↔ x = .zero ∨ x = .ofMagnitude true 0 := by
  constructor
  · intro h
    have hx := ofMagnitude_magnitude x
    rw [eq_of_beq h] at hx
    cases hnegative : x.negative with
    | false => exact .inl (by rw [← hx, hnegative]; rfl)
    | true => exact .inr (by rw [← hx, hnegative])
  · rintro (rfl | rfl) <;> decide

namespace Core.Arithmetic

variable {op : Arithmetic} {numbers : List Number} {args after : List Form} {f : Form}

/-- A form that is no number. -/
def NotNumber (f : Form) : Prop := ∀ n, f ≠ .number n

/-- All arguments are numbers, or there is a first one that is not. -/
theorem numbers_or_first_other (args : List Form) :
    (∃ numbers : List Number, args = numbers.map .number) ∨
      ∃ (numbers : List Number) (f : Form) (after : List Form),
        args = numbers.map .number ++ f :: after ∧ NotNumber f := by
  induction args with
  | nil => exact .inl ⟨[], rfl⟩
  | cons f args ih =>
    by_cases hf : ∃ n, f = .number n
    · obtain ⟨n, rfl⟩ := hf
      rcases ih with ⟨numbers, rfl⟩ | ⟨numbers, g, after, rfl, hg⟩
      · exact .inl ⟨n :: numbers, rfl⟩
      · exact .inr ⟨n :: numbers, g, after, rfl, hg⟩
    · exact .inr ⟨[], f, args, rfl, fun n hn => hf ⟨n, hn⟩⟩

/-- The error names the type of the argument, not its text. -/
theorem number_of_notNumber (hf : NotNumber f) :
    op.number f = .error (.invalidArgument ("non-numeric " ++ f.typeName) op.symbol) := by
  cases f with
  | number n => exact absurd rfl (hf n)
  | _ => rfl

theorem mapM_number (op : Arithmetic) (numbers : List Number) :
    (numbers.map Form.number).mapM op.number = .ok numbers := by
  induction numbers with
  | nil => rfl
  | cons n numbers ih =>
    rw [List.map_cons, List.mapM_cons, ih]
    rfl

/-- The first argument that is no number is the one reported, whatever comes after it. -/
theorem mapM_number_first_other (hf : NotNumber f) (numbers : List Number) (after : List Form) :
    (numbers.map Form.number ++ f :: after).mapM op.number =
      .error (.invalidArgument ("non-numeric " ++ f.typeName) op.symbol) := by
  induction numbers with
  | nil =>
    rw [List.map_nil, List.nil_append, List.mapM_cons, number_of_notNumber hf]
    rfl
  | cons n numbers ih =>
    rw [List.map_cons, List.cons_append, List.mapM_cons, ih]
    rfl

theorem compute_numbers (op : Arithmetic) (first : Number) (rest : List Number) :
    op.compute ((first :: rest).map .number) = .ok (.number (op.reduce first rest)) := by
  rw [List.map_cons, compute]
  simp only [number, mapM_number]

theorem compute_first_other (hf : NotNumber f) (numbers : List Number) (after : List Form) :
    op.compute (numbers.map .number ++ f :: after) =
      .error (.invalidArgument ("non-numeric " ++ f.typeName) op.symbol) := by
  cases numbers with
  | nil =>
    rw [List.map_nil, List.nil_append, compute]
    simp only [number_of_notNumber hf]
  | cons n numbers =>
    rw [List.map_cons, List.cons_append, compute]
    simp only [number, mapM_number_first_other hf]

/-! Numbers alone. -/

theorem foldlM_ok {α β ε : Type} (g : α → β → α) (seed : α) (bs : List β) :
    bs.foldlM (fun a b => (.ok (g a b) : Except ε α)) seed = .ok (bs.foldl g seed) :=
  List.foldlM_pure

/-- Whether a zero of either sign is among some divisors. -/
def HasZero (divisors : List Number) : Prop :=
  Number.zero ∈ divisors ∨ Number.ofMagnitude true 0 ∈ divisors

instance : DecidablePred HasZero := fun divisors =>
  inferInstanceAs (Decidable (Number.zero ∈ divisors ∨ Number.ofMagnitude true 0 ∈ divisors))

/-- Zeros of either sign count. -/
theorem hasZero_iff {divisors : List Number} :
    HasZero divisors ↔ ∃ n ∈ divisors, n.isZero = true := by
  constructor
  · rintro (h | h)
    · exact ⟨_, h, by decide⟩
    · exact ⟨_, h, by decide⟩
  · rintro ⟨n, hmem, hn⟩
    rcases Number.isZero_iff.mp hn with rfl | rfl
    · exact .inl hmem
    · exact .inr hmem

/-- Division stops at the first divisor that is a zero. -/
theorem foldlM_divide (seed : Number) (divisors : List Number) :
    divisors.foldlM divide.combine seed =
      if HasZero divisors then .error (.divisionByZero divide.symbol)
      else .ok (divisors.foldl Number.div seed) := by
  simp only [hasZero_iff]
  induction divisors generalizing seed with
  | nil => rfl
  | cons n divisors ih =>
    rw [List.foldlM_cons, combine]
    cases hn : n.isZero with
    | true => simp [hn, bind, Except.bind]
    | false =>
      have hrest := ih (seed.div n)
      simpa [hn, bind, Except.bind] using hrest

/-- What numbers come to: the fold of all of them from zero or from one, or of those after the first from
the first. A zero among the divisors makes the whole a zero without a sign. -/
def folded (op : Arithmetic) (first : Number) (rest : List Number) : Number :=
  match op with
  | add => (first :: rest).foldl Number.add .zero
  | subtract => rest.foldl Number.sub first
  | multiply => (first :: rest).foldl Number.mul .one
  | divide => if HasZero rest then .zero else rest.foldl Number.div first

theorem reduce_eq_folded (op : Arithmetic) (first : Number) (rest : List Number) :
    op.reduce first rest = op.folded first rest := by
  cases op with
  | add =>
    have h : (first :: rest).foldlM add.combine .zero = .ok _ := foldlM_ok Number.add .zero _
    simp only [reduce, start, h, folded]
  | subtract =>
    have h : rest.foldlM subtract.combine first = .ok _ := foldlM_ok Number.sub first rest
    simp only [reduce, start, h, folded]
  | multiply =>
    have h : (first :: rest).foldlM multiply.combine .one = .ok _ := foldlM_ok Number.mul .one _
    simp only [reduce, start, h, folded]
  | divide =>
    simp only [reduce, start, foldlM_divide, folded]
    by_cases h : HasZero rest
    · rw [if_pos h, if_pos h]
    · rw [if_neg h, if_neg h]

/-! Any arguments. -/

theorem compute_nil (op : Arithmetic) :
    op.compute [] = .error (.wrongArity op.symbol "at least one" 0) := rfl

theorem compute_cases (op : Arithmetic) (args : List Form) :
    (args = [] ∧ op.compute args = .error (.wrongArity op.symbol "at least one" 0)) ∨
    (∃ (numbers : List Number) (f : Form) (after : List Form),
      args = numbers.map .number ++ f :: after ∧ NotNumber f ∧ op.compute args =
        .error (.invalidArgument ("non-numeric " ++ f.typeName) op.symbol)) ∨
    ∃ first rest, args = (first :: rest).map .number ∧
      op.compute args = .ok (.number (op.folded first rest)) := by
  rcases numbers_or_first_other args with ⟨numbers, rfl⟩ | ⟨numbers, f, after, rfl, hf⟩
  · cases numbers with
    | nil => exact .inl ⟨rfl, compute_nil op⟩
    | cons first rest =>
      have hcompute := compute_numbers op first rest
      rw [reduce_eq_folded] at hcompute
      exact .inr (.inr ⟨first, rest, rfl, hcompute⟩)
  · exact .inr (.inl ⟨numbers, f, after, rfl, hf, compute_first_other hf numbers after⟩)

theorem compute_eq_arity_iff : op.compute args = .error (.wrongArity op.symbol "at least one" 0) ↔
    args = [] := by
  constructor
  · intro h
    rcases compute_cases op args with ⟨hargs, -⟩ | ⟨_, _, _, -, -, hother⟩ | ⟨_, _, -, hnumber⟩
    · exact hargs
    · cases hother.symm.trans h
    · cases hnumber.symm.trans h
  · rintro rfl
    exact compute_nil op

theorem compute_eq_invalid_iff {argument operation : String} :
    op.compute args = .error (.invalidArgument argument operation) ↔
      operation = op.symbol ∧ ∃ (numbers : List Number) (f : Form) (after : List Form),
        args = numbers.map .number ++ f :: after ∧ NotNumber f ∧
          argument = "non-numeric " ++ f.typeName := by
  constructor
  · intro h
    rcases compute_cases op args with ⟨-, hempty⟩ | ⟨numbers, f, after, hargs, hf, hother⟩ |
      ⟨_, _, -, hnumber⟩
    · cases hempty.symm.trans h
    · cases hother.symm.trans h
      exact ⟨rfl, numbers, f, after, hargs, hf, rfl⟩
    · cases hnumber.symm.trans h
  · rintro ⟨rfl, numbers, f, after, rfl, hf, rfl⟩
    exact compute_first_other hf numbers after

theorem compute_eq_ok_iff {result : Form} : op.compute args = .ok result ↔
    ∃ first rest, args = (first :: rest).map .number ∧ result = .number (op.folded first rest) := by
  constructor
  · intro h
    rcases compute_cases op args with ⟨-, hempty⟩ | ⟨_, _, _, -, -, hother⟩ |
      ⟨first, rest, hargs, hnumber⟩
    · cases hempty.symm.trans h
    · cases hother.symm.trans h
    · cases hnumber.symm.trans h
      exact ⟨first, rest, hargs, rfl⟩
  · rintro ⟨first, rest, rfl, rfl⟩
    rw [compute_numbers, reduce_eq_folded]

theorem exists_invalid_iff :
    (∃ argument, op.compute args = .error (.invalidArgument argument op.symbol)) ↔
      ∃ f ∈ args, NotNumber f := by
  constructor
  · rintro ⟨argument, h⟩
    obtain ⟨-, numbers, f, after, rfl, hf, -⟩ := compute_eq_invalid_iff.mp h
    exact ⟨f, by simp, hf⟩
  · rintro ⟨f, hmem, hf⟩
    rcases numbers_or_first_other args with ⟨numbers, rfl⟩ | ⟨numbers, g, after, rfl, hg⟩
    · obtain ⟨n, -, hn⟩ := List.mem_map.mp hmem
      exact absurd hn.symm (hf n)
    · exact ⟨_, compute_first_other hg numbers after⟩

theorem compute_error_cases {e : Error} (h : op.compute args = .error e) :
    e = .wrongArity op.symbol "at least one" 0 ∨
      ∃ argument, e = .invalidArgument argument op.symbol := by
  rcases compute_cases op args with ⟨-, hempty⟩ | ⟨_, _, _, -, -, hother⟩ | ⟨_, _, -, hnumber⟩
  · cases hempty.symm.trans h
    exact .inl rfl
  · cases hother.symm.trans h
    exact .inr ⟨_, rfl⟩
  · cases hnumber.symm.trans h

/-- Every list of arguments has one outcome of three, told by the arguments alone. No arguments are
refused; else the first one that is no number is, whatever zeros stand before it; and numbers alone
come to a number. A division by zero is never reported. -/
theorem compute_outcome (op : Arithmetic) (args : List Form) :
    (op.compute args = .error (.wrongArity op.symbol "at least one" 0) ↔ args = []) ∧
    ((∃ argument, op.compute args = .error (.invalidArgument argument op.symbol)) ↔
      ∃ f ∈ args, NotNumber f) ∧
    (∀ argument operation, op.compute args = .error (.invalidArgument argument operation) ↔
      operation = op.symbol ∧ ∃ (numbers : List Number) (f : Form) (after : List Form),
        args = numbers.map .number ++ f :: after ∧ NotNumber f ∧
          argument = "non-numeric " ++ f.typeName) ∧
    (∀ result, op.compute args = .ok result ↔ ∃ first rest,
      args = (first :: rest).map .number ∧ result = .number (op.folded first rest)) ∧
    (∀ e, op.compute args = .error e → e = .wrongArity op.symbol "at least one" 0 ∨
      ∃ argument, e = .invalidArgument argument op.symbol) ∧
    ∀ operation, op.compute args ≠ .error (.divisionByZero operation) := by
  refine ⟨compute_eq_arity_iff, exists_invalid_iff, fun _ _ => compute_eq_invalid_iff,
    fun _ => compute_eq_ok_iff, fun _ => compute_error_cases, fun operation h => ?_⟩
  rcases compute_error_cases h with h | ⟨_, h⟩ <;> cases h

end Core.Arithmetic
end Sexpr
