import Mathlib.Data.List.TakeWhile
import Sexpr.Number.Decimal
import Sexpr.Proofs.Token.Classes

/-! The grammar of decimal literals: a sign or none, digits with at most one point among or beside them,
and an exponent or none. -/
namespace Sexpr.Decimal

/-- A sign or none. -/
def OptionalSign (s : List Char) : Prop := s = [] ∨ ∃ x, Token.isSign x = true ∧ s = [x]

/-- An exponent or none. -/
inductive OptionalPower : List Char → Prop where
  | none : OptionalPower []
  | some {mark : Char} {sign digits : List Char} (hmark : Token.isExponentMark mark = true)
    (hsign : OptionalSign sign) (hne : digits ≠ []) (hdigits : ∀ c ∈ digits, c.isDigit = true) :
    OptionalPower (mark :: (sign ++ digits))

/-- A literal in its parts. The point stands with the digits after it, and at least one digit stands on
one of its sides. -/
structure Numeral where
  sign : List Char
  whole : List Char
  point : List Char
  power : List Char
  isSign : OptionalSign sign
  isWhole : ∀ c ∈ whole, c.isDigit = true
  isPoint : point = [] ∨ ∃ digits, (∀ c ∈ digits, c.isDigit = true) ∧ point = '.' :: digits
  isPower : OptionalPower power
  hasDigit : whole ≠ [] ∨ ∃ d digits, point = '.' :: d :: digits

def Numeral.spelling (n : Numeral) : List Char := n.sign ++ (n.whole ++ (n.point ++ n.power))

variable {s r sign digits power : List Char}

/-! Signs. -/

theorem optionalSign_splitSign (s : List Char) :
    ∃ sign, OptionalSign sign ∧ s = sign ++ (splitSign s).2 := by
  cases s with
  | nil => exact ⟨[], .inl rfl, rfl⟩
  | cons c s =>
    rw [splitSign]
    split
    · rename_i hc
      exact ⟨[c], .inr ⟨c, hc, rfl⟩, rfl⟩
    · exact ⟨[], .inl rfl, rfl⟩

theorem splitSign_append_snd (hsign : OptionalSign sign)
    (hr : ∀ c ∈ r.head?, Token.isSign c = false) : (splitSign (sign ++ r)).2 = r := by
  rcases hsign with rfl | ⟨x, hx, rfl⟩
  · cases r with
    | nil => rfl
    | cons c r => simp [splitSign, hr c rfl]
  · simp [splitSign, hx]

/-! Exponents. -/

/-- An exponent is told from the digits and the point before it by its first character. -/
theorem OptionalPower.head (h : OptionalPower power) :
    ∀ c ∈ power.head?, c.isDigit = false ∧ c ≠ '.' := by
  cases h with
  | none => simp
  | some hmark =>
    intro c hc
    cases hc
    refine ⟨Token.isDigit_of_isExponentMark hmark, ?_⟩
    rintro rfl
    revert hmark
    decide

theorem isSign_of_head_digits (hdigits : ∀ c ∈ digits, c.isDigit = true) :
    ∀ c ∈ digits.head?, Token.isSign c = false :=
  fun c hc => Token.isSign_of_isDigit (hdigits c (List.mem_of_mem_head? hc))

/-- What is left after the digits has to be an exponent or nothing. -/
theorem exponent?_isSome_iff : (exponent? s).isSome = true ↔ OptionalPower s := by
  constructor
  · intro h
    cases s with
    | nil => exact .none
    | cons c s =>
      obtain ⟨sign, hsign, hs⟩ := optionalSign_splitSign s
      simp only [exponent?, Option.isSome_ite] at h
      obtain ⟨hmark, hne, hall⟩ := h
      rw [hs]
      exact .some hmark hsign hne (List.all_eq_true.mp hall)
  · intro h
    cases h with
    | none => rfl
    | some hmark hsign hne hdigits =>
      have hsplit := splitSign_append_snd hsign (isSign_of_head_digits hdigits)
      simp only [exponent?, hsplit, Option.isSome_ite]
      exact ⟨hmark, hne, List.all_eq_true.mpr hdigits⟩

/-! The point. -/

/-- The digits after the point go up to the exponent. -/
theorem splitFraction_append (hdigits : ∀ c ∈ digits, c.isDigit = true)
    (hpower : OptionalPower power) : splitFraction ('.' :: (digits ++ power)) = (digits, power) := by
  have hstop : ∀ c ∈ power.head?, c.isDigit = false := fun c hc => (hpower.head c hc).1
  rw [splitFraction, if_pos rfl, Text.takeWhile_append_of_stop hdigits hstop,
    Text.dropWhile_append_of_stop hdigits hstop]

theorem splitFraction_power (hpower : OptionalPower power) : splitFraction power = ([], power) := by
  cases power with
  | nil => rfl
  | cons c power => rw [splitFraction, if_neg (hpower.head c rfl).2]

theorem splitFraction_cases (s : List Char) :
    ∃ point, s = point ++ (splitFraction s).2 ∧
      (point = [] ∧ (splitFraction s).1 = [] ∨
        (∀ c ∈ (splitFraction s).1, c.isDigit = true) ∧ point = '.' :: (splitFraction s).1) := by
  cases s with
  | nil => exact ⟨[], rfl, .inl ⟨rfl, rfl⟩⟩
  | cons c s =>
    rw [splitFraction]
    split
    · rename_i hc
      subst hc
      refine ⟨'.' :: s.takeWhile Char.isDigit, ?_, .inr ⟨fun c hc => List.mem_takeWhile_imp hc, rfl⟩⟩
      rw [List.cons_append, List.takeWhile_append_dropWhile]
    · exact ⟨[], rfl, .inl ⟨rfl, rfl⟩⟩

/-! Literals. -/

namespace Numeral

variable (n : Numeral)

theorem head_point : ∀ c ∈ (n.point ++ n.power).head?, c.isDigit = false := by
  rcases n.isPoint with hpoint | ⟨digits, -, hpoint⟩
  · rw [hpoint]
    exact fun c hc => (n.isPower.head c hc).1
  · rw [hpoint]
    intro c hc
    cases hc
    rfl

/-- A literal without a sign starts with a digit or with the point. -/
theorem head_unsigned :
    ∃ c s, n.whole ++ (n.point ++ n.power) = c :: s ∧ (c.isDigit = true ∨ c = '.') := by
  cases hwhole : n.whole with
  | cons c s =>
    have hc : c ∈ n.whole := by rw [hwhole]; exact List.mem_cons_self
    exact ⟨c, _, rfl, .inl (n.isWhole c hc)⟩
  | nil =>
    obtain ⟨d, digits, hpoint⟩ := n.hasDigit.resolve_left (fun hne => hne hwhole)
    rw [hpoint]
    exact ⟨'.', _, rfl, .inr rfl⟩

theorem splitSign_spelling : (splitSign n.spelling).2 = n.whole ++ (n.point ++ n.power) := by
  refine splitSign_append_snd n.isSign fun c hc => ?_
  obtain ⟨d, s, hs, hd⟩ := n.head_unsigned
  rw [hs] at hc
  cases hc
  rcases hd with hd | rfl
  · exact Token.isSign_of_isDigit hd
  · rfl

theorem splitFraction_point : splitFraction (n.point ++ n.power) = (n.point.drop 1, n.power) := by
  rcases n.isPoint with hpoint | ⟨digits, hdigits, hpoint⟩
  · rw [hpoint]
    exact splitFraction_power n.isPower
  · rw [hpoint]
    exact splitFraction_append hdigits n.isPower

end Numeral

theorem parse?_isSome_eq (s : List Char) :
    let r := (splitSign s).2
    let tail := splitFraction (r.dropWhile Char.isDigit)
    (parse? s).isSome = true ↔
      (r.takeWhile Char.isDigit ≠ [] ∨ tail.1 ≠ []) ∧ (exponent? tail.2).isSome = true := by
  dsimp only
  rw [parse?]
  dsimp only
  split
  · rename_i h
    simp [h]
  · rename_i h
    rw [Option.isSome_map, ← not_and_or, and_iff_right h]

/-- Every literal stands for a value, and no other text does. -/
theorem parse?_isSome_iff : (parse? s).isSome = true ↔ ∃ n : Numeral, n.spelling = s := by
  constructor
  · intro h
    obtain ⟨hdigit, hpower⟩ := (parse?_isSome_eq s).mp h
    obtain ⟨sign, hsign, hs⟩ := optionalSign_splitSign s
    let r := (splitSign s).2
    obtain ⟨point, hr, hpoint⟩ := splitFraction_cases (r.dropWhile Char.isDigit)
    have hwhole : ∀ c ∈ r.takeWhile Char.isDigit, c.isDigit = true :=
      fun c hc => List.mem_takeWhile_imp hc
    refine ⟨⟨sign, r.takeWhile Char.isDigit, point, _, hsign, hwhole, ?_,
      exponent?_isSome_iff.mp hpower, hdigit.imp_right fun hne => ?_⟩, ?_⟩
    · exact hpoint.imp And.left fun hpoint => ⟨_, hpoint⟩
    · obtain ⟨-, hpoint⟩ := hpoint.resolve_left fun hnil => hne hnil.2
      obtain ⟨d, digits, hdigits⟩ := List.exists_cons_of_ne_nil hne
      exact ⟨d, digits, hdigits ▸ hpoint⟩
    · rw [Numeral.spelling, ← hr, List.takeWhile_append_dropWhile]
      exact hs.symm
  · rintro ⟨n, rfl⟩
    refine (parse?_isSome_eq n.spelling).mpr ?_
    rw [n.splitSign_spelling, Text.takeWhile_append_of_stop n.isWhole n.head_point,
      Text.dropWhile_append_of_stop n.isWhole n.head_point, n.splitFraction_point]
    refine ⟨n.hasDigit.imp_right ?_, exponent?_isSome_iff.mpr n.isPower⟩
    rintro ⟨d, digits, hpoint⟩
    simp [hpoint]

end Sexpr.Decimal
