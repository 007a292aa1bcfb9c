import Sexpr.Number.Basic

/-! The number that stands for all numbers that are the same as keys. -/
namespace Sexpr.Number

variable {x y : Number}

/-- A number stands for itself unless it is a zero or a NaN. -/
theorem canonical_cases (x : Number) : (x.magnitude = 0 ∧ x.canonical = zero) ∨
    (infinite < x.magnitude ∧ x.canonical = ofMagnitude false (infinite + 2 ^ 51)) ∨
      x.canonical = x := by
  rw [canonical]
  split
  · rename_i hzero
    exact .inl ⟨eq_of_beq hzero, rfl⟩
  · split
    · rename_i hnan
      exact .inr (.inl ⟨of_decide_eq_true hnan, rfl⟩)
    · exact .inr (.inr rfl)

theorem isNaN_canonical (x : Number) : x.canonical.isNaN = x.isNaN := by
  rcases canonical_cases x with ⟨hmag, h⟩ | ⟨hmag, h⟩ | h
  · have hnan : x.isNaN = false := by
      rw [isNaN, hmag]
      rfl
    rw [h, hnan]
    decide
  · have hnan : x.isNaN = true := decide_eq_true hmag
    rw [h, hnan]
    decide
  · rw [h]

theorem isFinite_canonical (x : Number) : x.canonical.isFinite = x.isFinite := by
  rcases canonical_cases x with ⟨hmag, h⟩ | ⟨hmag, h⟩ | h
  · have hfinite : x.isFinite = true := by
      rw [isFinite, hmag]
      rfl
    rw [h, hfinite]
    decide
  · have hfinite : x.isFinite = false := decide_eq_false (Nat.lt_asymm hmag)
    rw [h, hfinite]
    decide
  · rw [h]

theorem isNaN_of_isFinite (h : x.isFinite = true) : x.isNaN = false := by
  have hlt : x.magnitude < infinite := of_decide_eq_true h
  exact decide_eq_false (Nat.lt_asymm hlt)

theorem canonical_of_isNaN_eq_false (h : x.isNaN = false) :
    x.canonical = if x.isZero then zero else x := by
  rw [canonical, h]
  rfl

theorem ne_of_isZero (hx : x.isZero = true) (hy : y.isZero = false) : x ≠ y := by
  rintro rfl
  rw [hx] at hy
  cases hy

/-- Numbers that are no NaN are equal if they are the same as keys. -/
theorem equal_eq (hx : x.isNaN = false) : x.equal y = (x.canonical == y.canonical) := by
  cases hy : y.isNaN with
  | true =>
    have hne : x.canonical ≠ y.canonical := by
      intro h
      have hnan : x.isNaN = y.isNaN := by
        rw [← isNaN_canonical x, h, isNaN_canonical]
      rw [hx, hy] at hnan
      cases hnan
    rw [beq_false_of_ne hne, equal, hy]
    simp
  | false =>
    have hbits : (x.bits == y.bits) = (x == y) := by
      rw [Bool.eq_iff_iff, beq_iff_eq, beq_iff_eq, Number.mk.injEq]
    have hzero : zero.isZero = true := by decide
    rw [canonical_of_isNaN_eq_false hx, canonical_of_isNaN_eq_false hy, equal, hx, hy, hbits]
    cases hzx : x.isZero <;> cases hzy : y.isZero
    · simp
    · simp [beq_false_of_ne (ne_of_isZero hzero hzx).symm,
        beq_false_of_ne (ne_of_isZero hzy hzx).symm]
    · simp [beq_false_of_ne (ne_of_isZero hzero hzy), beq_false_of_ne (ne_of_isZero hzx hzy)]
    · simp

end Sexpr.Number
