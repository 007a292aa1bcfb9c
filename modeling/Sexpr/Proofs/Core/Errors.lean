import Sexpr.Proofs.Core.Reduction
import Sexpr.Proofs.Registry.Names

/-! How the core operations fail. Each holds its arguments to the arity it states, before it looks at any
of them, and names itself in its errors; of the rest some fail for no arguments and some never. -/
namespace Sexpr

/-- A form that has a length: a list, an array, a map or a string. -/
def Form.IsCollection : Form → Prop
  | list _ | array _ | map _ | string _ => True
  | _ => False

/-- The names of the operations that need one argument at least. -/
def Core.arithmeticNames : List String := ["+", "-", "*", "/"]

/-- What an operation reports when it fails: its own name, and the number of arguments where it is not
the one that it states. Without such a number only arithmetic asks for arguments. -/
structure Operation.Reports (op : Operation) : Prop where
  named : ∀ args e, op.run args = .error e →
    (∃ expected found, e = .wrongArity op.name expected found) ∨
      ∃ argument, e = .invalidArgument argument op.name
  unfit : ∀ n, op.arity = some n → ∀ args, args.length ≠ n →
    op.run args = .error (.wrongArity op.name (toString n) args.length)
  fit : ∀ n, op.arity = some n → ∀ args, args.length = n → ∀ expected found,
    op.run args ≠ .error (.wrongArity op.name expected found)
  variadic : op.arity = none → ∀ args,
    (∃ expected found, op.run args = .error (.wrongArity op.name expected found)) ↔
      op.name ∈ Core.arithmeticNames ∧ args = []

section

variable {name description : String} {run : Form → Except Error Form} {args : List Form} {e : Error}

theorem eq_error_of_map {α β : Type} {f : α → β} {x : Except Error α} (h : x.map f = .error e) :
    x = .error e := by
  cases x with
  | error _ =>
    cases h
    rfl
  | ok _ => cases h

namespace Operation

/-- An operation on one argument reports the number of its arguments if it does so itself of a single
one that it refuses. -/
theorem reports_unary (h : ∀ arg e, run arg = .error e → ∃ argument, e = .invalidArgument argument name) :
    (unary name description run).Reports where
  named args e he := by
    by_cases hlength : args.length = 1
    · obtain ⟨arg, rfl⟩ := List.length_eq_one_iff.mp hlength
      exact .inr (h arg e (eq_error_of_map he))
    · cases (unary_run_of_length_ne hlength).symm.trans he
      exact .inl ⟨_, _, rfl⟩
  unfit n hn args hne := by
    cases hn
    exact unary_run_of_length_ne hne
  fit n hn args hlength expected found he := by
    cases hn
    obtain ⟨arg, rfl⟩ := List.length_eq_one_iff.mp hlength
    obtain ⟨argument, hargument⟩ := h arg _ (eq_error_of_map he)
    cases hargument
  variadic hnone := by cases hnone

/-- So does one that never fails. -/
theorem reports_of_ok {op : Operation} (harity : op.arity = none)
    (hname : op.name ∉ Core.arithmeticNames) (h : ∀ args, ∃ reply, op.run args = .ok reply) :
    op.Reports where
  named args e he := by
    obtain ⟨reply, hreply⟩ := h args
    cases hreply.symm.trans he
  unfit n hn := by cases harity.symm.trans hn
  fit n hn := by cases harity.symm.trans hn
  variadic _ args := by
    obtain ⟨reply, hreply⟩ := h args
    simp [hreply, hname]

end Operation

namespace Core

theorem Arithmetic.reports (op : Arithmetic) : op.operation.Reports where
  named args e he := by
    rcases compute_error_cases (eq_error_of_map he) with rfl | ⟨argument, rfl⟩
    · exact .inl ⟨_, _, rfl⟩
    · exact .inr ⟨argument, rfl⟩
  unfit n hn := by cases hn
  fit n hn := by cases hn
  variadic _ args := by
    have hname : op.operation.name ∈ arithmeticNames := by cases op <;> decide
    simp only [hname, true_and]
    constructor
    · rintro ⟨expected, found, h⟩
      have hcompute : op.compute args = .error (.wrongArity op.symbol expected found) :=
        eq_error_of_map h
      rcases compute_error_cases hcompute with heq | ⟨_, heq⟩
      · rw [heq] at hcompute
        exact compute_eq_arity_iff.mp hcompute
      · cases heq
    · rintro rfl
      exact ⟨_, _, rfl⟩

theorem Sequence.count_reports : Sequence.count.Reports := by
  refine Operation.reports_unary fun arg e he => ?_
  split at he
  · cases he
  · cases he
    exact ⟨_, rfl⟩

theorem Predicate.isVector_reports : Predicate.isVector.Reports := by
  refine Operation.reports_unary fun arg e he => ?_
  split at he <;> cases he

theorem Predicate.isEmpty_reports : Predicate.isEmpty.Reports := by
  refine Operation.reports_unary fun arg e he => ?_
  split at he
  · cases he
  · cases he
    exact ⟨_, rfl⟩
  · cases he

theorem reports {op : Operation} (hop : op ∈ operations) : op.Reports := by
  obtain ⟨group, -, hop⟩ := List.mem_flatMap.mp hop
  cases group with
  | arithmetic =>
    obtain ⟨a, -, rfl⟩ := List.mem_map.mp hop
    exact a.reports
  | output =>
    cases List.mem_singleton.mp hop
    exact Operation.reports_of_ok rfl (by decide) fun _ => ⟨_, rfl⟩
  | sequence =>
    rcases List.mem_pair.mp hop with rfl | rfl
    · exact Operation.reports_of_ok rfl (by decide) fun _ => ⟨_, rfl⟩
    · exact Sequence.count_reports
  | predicate =>
    rcases List.mem_pair.mp hop with rfl | rfl
    · exact Predicate.isVector_reports
    · exact Predicate.isEmpty_reports

end Core

end

/-! Whole numbers, as counts are. -/

namespace Number

/-- The magnitude nearest to a whole number other than zero counts doublings. -/
theorem nearestMagnitude_pos {n : Nat} (hn : n ≠ 0) : 0 < nearestMagnitude n 1 := by
  have hleast : 2 ^ 53 ≤ n * 2 ^ places / 1 := by
    rw [Nat.div_one]
    calc 2 ^ 53 ≤ 2 ^ places := Nat.pow_le_pow_right (by decide) (by decide)
      _ ≤ n * 2 ^ places := Nat.le_mul_of_pos_left _ (Nat.pos_of_ne_zero hn)
  have hlog : 53 ≤ (n * 2 ^ places / 1).log2 := (Nat.le_log2 (by omega)).mpr hleast
  rw [nearestMagnitude_eq, nearestOn]
  exact Nat.add_pos_left (Nat.mul_pos (by omega) (by decide)) _

theorem magnitude_eq_zero_of_ofMagnitude {m : Nat} (hm : m ≤ infinite)
    (h : ofMagnitude false m = zero) : m = 0 := by
  have hlt : m < 2 ^ 64 := Nat.lt_of_le_of_lt hm (by decide)
  have hbits : m % 2 ^ 64 = 0 := by
    simpa [zero, ofMagnitude] using congrArg (fun x : Number => x.bits.toNat) h
  rwa [Nat.mod_eq_of_lt hlt] at hbits

/-- Of the whole numbers none but zero comes to a zero. -/
theorem ofNat_eq_zero_iff {n : Nat} : ofNat n = zero ↔ n = 0 := by
  constructor
  · intro h
    have hmin := magnitude_eq_zero_of_ofMagnitude (Nat.min_le_left _ _) h
    by_contra hne
    have hpos := nearestMagnitude_pos hne
    have hinfinite : 0 < infinite := by decide
    omega
  · rintro rfl
    decide +kernel

end Number

/-! Calls by name. -/

namespace Registry

variable {name : String} {op : Operation} {f : Form}

theorem core_answers (h : named? name Core.operations = some op) : core.Answers name op :=
  (consistent_reached .core).answers h

/-- A name is that of a core operation, or nobody knows it. -/
theorem core_cases (name : String) :
    (core.has name = true ∧ ∃ op, op.name = name ∧ op.Reports ∧ core.Answers name op) ∨
      (core.has name = false ∧ core.Refuses name) := by
  rcases (consistent_reached .core).answers_or_refuses name with ⟨hmem, op, hop, hanswers⟩ |
    ⟨hnot, hrefuses⟩
  · obtain ⟨hname, before, after, heq, -⟩ := named?_eq_some_iff.mp hop
    have hreports : op.Reports := Core.reports (heq ▸ by simp)
    exact .inl ⟨has_iff_mem_names.mpr hmem, op, hname, hreports, hanswers⟩
  · rw [← has_iff_mem_names, Bool.not_eq_true] at hnot
    exact .inr ⟨hnot, hrefuses⟩

/-- What is got under a name is a core operation of that name. -/
theorem core_get (h : core.get name = .ok op) :
    op.name = name ∧ op.Reports ∧ ∀ args, core.call name args = op.run args := by
  rcases core_cases name with ⟨-, known, hname, hreports, hanswers⟩ | ⟨-, hrefuses⟩
  · cases hanswers.get.symm.trans h
    exact ⟨hname, hreports, hanswers.call⟩
  · cases hrefuses.get.symm.trans h

theorem call_count (f : Form) : core.call "count" [f] =
    match f.length? with
    | some n => .ok { value := .number (Number.ofNat n) }
    | none => .error (.invalidArgument f.typeName "count") := by
  have hanswers : core.Answers "count" Core.Sequence.count := core_answers rfl
  rw [hanswers.call]
  refine (Operation.unary_run_singleton f).trans ?_
  cases f.length? <;> simp [Except.map]

theorem isCollection_iff : f.IsCollection ↔ ∃ n, f.length? = some n := by
  cases f <;> simp [Form.IsCollection, Form.length?]

theorem call_count_error_iff : (∃ e, core.call "count" [f] = .error e) ↔ ¬ f.IsCollection := by
  rw [call_count, isCollection_iff]
  cases f.length? <;> simp

theorem call_count_eq_zero_iff :
    core.call "count" [f] = .ok { value := .number .zero } ↔ f.length? = some 0 := by
  rw [call_count]
  cases f.length? with
  | none => simp
  | some n => simp [Number.ofNat_eq_zero_iff]

theorem call_isEmpty_cases (f : Form) :
    (f = .nil ∧ core.call "empty?" [f] = .ok { value := .boolean true }) ∨
    ((∃ operation, f = .lambda operation) ∧
      core.call "empty?" [f] = .error (.invalidArgument "lambda" "empty?")) ∨
    (f ≠ .nil ∧ (∀ operation, f ≠ .lambda operation) ∧
      core.call "empty?" [f] = .ok { value := .boolean (f.length? == some 0) }) := by
  have hanswers : core.Answers "empty?" Core.Predicate.isEmpty := core_answers rfl
  rw [hanswers.call]
  cases f with
  | nil => exact .inl ⟨rfl, rfl⟩
  | lambda operation => exact .inr (.inl ⟨⟨operation, rfl⟩, rfl⟩)
  | _ => exact .inr (.inr ⟨nofun, nofun, rfl⟩)

theorem call_isEmpty_error_iff :
    (∃ e, core.call "empty?" [f] = .error e) ↔ ∃ operation, f = .lambda operation := by
  rcases call_isEmpty_cases f with ⟨rfl, h⟩ | ⟨hlambda, h⟩ | ⟨-, hother, h⟩
  · simp [h]
  · simp [h, hlambda]
  · simp [h, hother]

/-- Empty is what counts none, and what is nothing at all. -/
theorem call_isEmpty_eq_true_iff : core.call "empty?" [f] = .ok { value := .boolean true } ↔
    f = .nil ∨ core.call "count" [f] = .ok { value := .number .zero } := by
  rw [call_count_eq_zero_iff]
  rcases call_isEmpty_cases f with ⟨rfl, h⟩ | ⟨⟨operation, rfl⟩, h⟩ | ⟨hnil, -, h⟩
  · simp [h]
  · simp [h, Form.length?]
  · simp [h, hnil]

theorem call_isEmpty_eq_false (hlambda : ∀ operation, f ≠ .lambda operation)
    (htrue : core.call "empty?" [f] ≠ .ok { value := .boolean true }) :
    core.call "empty?" [f] = .ok { value := .boolean false } := by
  rcases call_isEmpty_cases f with ⟨-, h⟩ | ⟨⟨operation, rfl⟩, -⟩ | ⟨-, -, h⟩
  · exact absurd h htrue
  · exact absurd rfl (hlambda operation)
  · cases hempty : f.length? == some 0 with
    | true => exact absurd (hempty ▸ h) htrue
    | false => rw [h, hempty]

/-! All core operations together. -/

theorem core_error_cases {args : List Form} {e : Error} (h : core.call name args = .error e) :
    (e = .undefinedOperation name ∧ core.has name = false) ∨
      core.has name = true ∧ ((∃ expected found, e = .wrongArity name expected found) ∨
        ∃ argument, e = .invalidArgument argument name) := by
  rcases core_cases name with ⟨hhas, op, rfl, hreports, hanswers⟩ | ⟨hhas, hrefuses⟩
  · exact .inr ⟨hhas, hreports.named args e ((hanswers.call args).symm.trans h)⟩
  · cases (hrefuses.call args).symm.trans h
    exact .inl ⟨rfl, hhas⟩

theorem core_undefined_iff {args : List Form} :
    core.call name args = .error (.undefinedOperation name) ↔ core.has name = false := by
  constructor
  · intro h
    rcases core_error_cases h with ⟨-, hhas⟩ | ⟨-, ⟨_, _, he⟩ | ⟨_, he⟩⟩
    · exact hhas
    · cases he
    · cases he
  · intro hhas
    rcases core_cases name with ⟨hother, -⟩ | ⟨-, hrefuses⟩
    · cases hhas.symm.trans hother
    · exact hrefuses.call args

theorem core_arity_iff {args : List Form} {n : Nat} (hop : core.get name = .ok op)
    (hn : op.arity = some n) :
    (∃ expected found, core.call name args = .error (.wrongArity name expected found)) ↔
      args.length ≠ n := by
  obtain ⟨rfl, hreports, hcall⟩ := core_get hop
  rw [hcall]
  constructor
  · rintro ⟨expected, found, h⟩ hlength
    exact hreports.fit n hn args hlength expected found h
  · intro hne
    exact ⟨_, _, hreports.unfit n hn args hne⟩

/-- However a core operation is called, by whatever name, its errors are of three kinds: nobody knows
the name, the number of arguments is wrong, or an argument is; and each tells the name that was called.
Where an operation states an arity, any other number of arguments is what it reports, and where it
states none, only arithmetic reports that there are no arguments at all. -/
theorem core_errors (name : String) (args : List Form) :
    (∀ e, core.call name args = .error e → e.phase = .evaluation ∧
      ((e = .undefinedOperation name ∧ core.has name = false) ∨
        core.has name = true ∧ ((∃ expected found, e = .wrongArity name expected found) ∨
          ∃ argument, e = .invalidArgument argument name))) ∧
    (core.call name args = .error (.undefinedOperation name) ↔ core.has name = false) ∧
    (∀ op n, core.get name = .ok op → op.arity = some n →
      ((∃ expected found, core.call name args = .error (.wrongArity name expected found)) ↔
        args.length ≠ n) ∧
      (args.length ≠ n → ∃ e, core.call name args = .error e ∧
        e = .wrongArity name (toString n) args.length ∧
        e.message = "Wrong number of arguments in " ++ name ++ ": expected " ++ toString n ++
          ", found " ++ toString args.length)) ∧
    (∀ op, core.get name = .ok op → op.arity = none →
      ((∃ expected found, core.call name args = .error (.wrongArity name expected found)) ↔
        name ∈ Core.arithmeticNames ∧ args = [])) ∧
    (∃ reply, core.call "list" args = .ok reply) ∧ (∃ reply, core.call "prn" args = .ok reply) ∧
    ∀ f, ((∃ e, core.call "count" [f] = .error e) ↔ ¬ f.IsCollection) ∧
      ((∃ e, core.call "empty?" [f] = .error e) ↔ ∃ operation, f = .lambda operation) ∧
      (core.call "empty?" [f] = .ok { value := .boolean true } ↔
        f = .nil ∨ core.call "count" [f] = .ok { value := .number .zero }) ∧
      ((∀ operation, f ≠ .lambda operation) →
        core.call "empty?" [f] ≠ .ok { value := .boolean true } →
        core.call "empty?" [f] = .ok { value := .boolean false }) := by
  refine ⟨fun e h => ⟨?_, core_error_cases h⟩, core_undefined_iff, fun op n hop hn => ?_,
    fun op hop hnone => ?_, ?_, ?_, fun f => ?_⟩
  · rcases core_error_cases h with ⟨rfl, -⟩ | ⟨-, ⟨_, _, rfl⟩ | ⟨_, rfl⟩⟩ <;> rfl
  · refine ⟨core_arity_iff hop hn, fun hne => ?_⟩
    obtain ⟨rfl, hreports, hcall⟩ := core_get hop
    exact ⟨_, (hcall args).trans (hreports.unfit n hn args hne), rfl, rfl⟩
  · obtain ⟨rfl, hreports, hcall⟩ := core_get hop
    rw [hcall]
    exact hreports.variadic hnone args
  · have hlist : core.Answers "list" Core.Sequence.list := core_answers rfl
    exact ⟨_, hlist.call args⟩
  · have hprn : core.Answers "prn" Core.Output.prn := core_answers rfl
    exact ⟨_, hprn.call args⟩
  · exact ⟨call_count_error_iff, call_isEmpty_error_iff, call_isEmpty_eq_true_iff,
      call_isEmpty_eq_false⟩

/-- Two forms that cannot be counted are too many before they are looked at, and an atom is not empty
though it cannot be counted. -/
theorem core_errors_count :
    (core.get "count" = .ok Core.Sequence.count ∧ Core.Sequence.count.arity = some 1 ∧
      [Form.nil, .nil].length ≠ 1) ∧
    core.call "count" [.nil, .nil] = .error (.wrongArity "count" "1" 2) ∧
    (∃ e, core.call "count" [.identifier "x"] = .error e) ∧
    core.call "empty?" [.identifier "x"] = .ok { value := .boolean false } := by
  have hget : core.get "count" = .ok Core.Sequence.count := (core_answers rfl).get
  have hlength : [Form.nil, .nil].length ≠ 1 := by decide
  obtain ⟨-, -, hfixed, -, -, -, hsingle⟩ := core_errors "count" [.nil, .nil]
  obtain ⟨e, hcall, rfl, -⟩ := (hfixed _ 1 hget rfl).2 hlength
  obtain ⟨hcount, -, htrue, hfalse⟩ := hsingle (.identifier "x")
  refine ⟨⟨hget, rfl, hlength⟩, hcall, hcount.mpr not_false, hfalse nofun fun h => ?_⟩
  rcases htrue.mp h with h | h
  · cases h
  · cases (call_count (.identifier "x")).symm.trans h

end Registry

end Sexpr
