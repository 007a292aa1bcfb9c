import Mathlib.Data.List.TakeWhile
import Sexpr.Number.Decimal
import Sexpr.Number.Shortest
import Sexpr.Proofs.Number.Canonical
import Sexpr.Proofs.Token.Classes

/-! Reading the text of a finite number gives that number back, the sign of a zero included. -/
namespace Sexpr

namespace Number

variable {n d k m : Nat}

theorem roundHalfEven_mul (n d : Nat) (hk : 0 < k) :
    roundHalfEven (n * k) (d * k) = roundHalfEven n d := by
  have hrest : 2 * (n * k % (d * k)) = 2 * (n % d) * k := by
    rw [Nat.mul_mod_mul_right, Nat.mul_assoc]
  rw [roundHalfEven, roundHalfEven, hrest, Nat.mul_div_mul_right n d hk]
  simp only [Nat.mul_lt_mul_right hk, Nat.mul_right_cancel_iff hk]

theorem roundHalfEven_of_mul (hd : 0 < d) (n : Nat) : roundHalfEven (n * d) d = n := by
  have hmod : n * d % d = 0 := Nat.mul_mod_left n d
  simp [roundHalfEven, hmod, hd, Nat.mul_div_cancel n hd]

theorem nearestMagnitude_eq (n d : Nat) : nearestMagnitude n d = nearestOn (2 ^ places) n d := by
  unfold nearestMagnitude
  with_reducible rfl

theorem decimalUnits_eq (m : Nat) :
    decimalUnits m = units m * 2 ^ scale m * 5 ^ places := by
  unfold decimalUnits
  with_reducible rfl

theorem nearestOn_mul (u n d : Nat) (hk : 0 < k) :
    nearestOn u (n * k) (d * k) = nearestOn u n d := by
  rw [nearestOn, nearestOn, Nat.mul_right_comm n k u, Nat.mul_div_mul_right _ _ hk,
    Nat.mul_right_comm d k, roundHalfEven_mul _ _ hk]

/-- Only the quotient counts. -/
theorem nearestMagnitude_mul (n d : Nat) (hk : 0 < k) :
    nearestMagnitude (n * k) (d * k) = nearestMagnitude n d := by
  rw [nearestMagnitude_eq, nearestMagnitude_eq, nearestOn_mul _ _ _ hk]

/-- The units of a magnitude take 53 bits, or less where no unit is smaller. -/
theorem units_bounds (m : Nat) :
    units m < 2 ^ 53 ∧ (0 < scale m → 2 ^ 52 ≤ units m) ∧ scale m * 2 ^ 52 + units m = m := by
  unfold units scale
  omega

theorem log2_units (m : Nat) : (units m * 2 ^ scale m).log2 - 52 = scale m := by
  obtain ⟨hlt, hle, -⟩ := units_bounds m
  rcases Nat.eq_zero_or_pos (scale m) with hs | hs
  · rw [hs, Nat.pow_zero, Nat.mul_one]
    rcases Nat.eq_zero_or_pos (units m) with hu | hu
    · rw [hu]; rfl
    · have := (Nat.log2_lt (Nat.ne_of_gt hu)).mpr hlt
      omega
  · have hpow : 0 < 2 ^ scale m := Nat.two_pow_pos _
    have hne : units m * 2 ^ scale m ≠ 0 := Nat.ne_of_gt (Nat.mul_pos (by have := hle hs; omega) hpow)
    have hlog : (units m * 2 ^ scale m).log2 = 52 + scale m := by
      rw [Nat.log2_eq_iff hne, Nat.pow_add, Nat.add_right_comm, Nat.pow_add]
      exact ⟨Nat.mul_le_mul_right _ (hle hs), Nat.mul_lt_mul_of_pos_right hlt hpow⟩
    omega

/-- A magnitude is nearest to the value that it counts. -/
theorem nearestOn_units {u : Nat} (hu : 0 < u) (m : Nat) :
    nearestOn u (units m * 2 ^ scale m) u = m := by
  rw [nearestOn, Nat.mul_div_cancel _ hu, log2_units, Nat.mul_comm u, roundHalfEven_mul _ _ hu,
    roundHalfEven_of_mul (Nat.two_pow_pos _)]
  exact (units_bounds m).2.2

theorem nearestMagnitude_decimalUnits (m : Nat) :
    nearestMagnitude (decimalUnits m) (10 ^ places) = m := by
  have hten (p : Nat) : 10 ^ p = 2 ^ p * 5 ^ p := by rw [← Nat.mul_pow]
  rw [decimalUnits_eq, hten places, nearestMagnitude_mul _ _ (Nat.pow_pos (by decide)),
    nearestMagnitude_eq, nearestOn_units (Nat.two_pow_pos _)]

theorem readsBack_shortest (m : Nat) :
    readsBack m ((shortest m).1 * 10 ^ (shortest m).2) = true := by
  rw [shortest]
  cases h : (powers m).findSome? fun power => (steps? m (10 ^ power)).map (·, power) with
  | none => simp [readsBack, nearestMagnitude_decimalUnits]
  | some r =>
    obtain ⟨power, -, hr⟩ := List.exists_of_findSome?_eq_some h
    obtain ⟨count, hcount, rfl⟩ := Option.map_eq_some_iff.mp hr
    rw [steps?] at hcount
    have := List.find?_some hcount
    simpa using this

/-- The text of a magnitude is a decimal nearest to it. -/
theorem magnitudeText_eq (hm : m < infinite) :
    ∃ n width, magnitudeText m = positional n width ∧ nearestMagnitude n (10 ^ width) = m := by
  rw [magnitudeText]
  rcases Nat.eq_zero_or_pos m with rfl | hpos
  · refine ⟨0, 0, by rw [if_pos rfl]; rfl, ?_⟩
    rw [nearestMagnitude_eq, nearestOn]
    simp [roundHalfEven, Nat.log2_zero]
  · rw [if_neg (Nat.ne_of_gt hpos), if_neg (Nat.not_le.mpr hm)]
    have hr := readsBack_shortest m
    generalize shortest m = r at hr ⊢
    obtain ⟨count, power⟩ := r
    refine ⟨_, _, rfl, ?_⟩
    have hn : count * 10 ^ (power - places) * 10 ^ min power places = count * 10 ^ power := by
      rw [Nat.mul_assoc, ← Nat.pow_add]
      congr 2
      omega
    have hd : 10 ^ (places - power) * 10 ^ min power places = 10 ^ places := by
      rw [← Nat.pow_add]
      congr 1
      omega
    rw [← nearestMagnitude_mul _ _ (Nat.pow_pos (by decide : 0 < 10)), hn, hd]
    simpa [readsBack] using hr

end Number

namespace Decimal

variable {n width : Nat}

theorem isDigit_of_mem_pad {digits : List Char} (h : ∀ c ∈ digits, c.isDigit = true) :
    ∀ c ∈ Number.pad width digits, c.isDigit = true := by
  intro c hc
  rcases List.mem_append.mp hc with hc | hc
  · rw [List.eq_of_mem_replicate hc]; rfl
  · exact h c hc

theorem isDigit_of_mem_toDigits {c : Char} (h : c ∈ Nat.toDigits 10 n) : c.isDigit = true :=
  Nat.isDigit_of_mem_toDigits (by decide) (by decide) h

/-- A decimal is digits, or digits, a point and digits. -/
theorem positional_cases (n width : Nat) :
    ∃ whole fraction, whole ≠ [] ∧ (∀ c ∈ whole, c.isDigit = true) ∧
      (∀ c ∈ fraction, c.isDigit = true) ∧ fraction.length = width ∧
      digitsValue (whole ++ fraction) = n ∧
      Number.positional n width = whole ++ if fraction = [] then [] else '.' :: fraction := by
  rw [Number.positional]
  by_cases hw : width = 0
  · subst hw
    refine ⟨Nat.toDigits 10 n, [], Nat.toDigits_ne_nil, fun c => isDigit_of_mem_toDigits, by simp,
      rfl, ?_, by simp⟩
    rw [List.append_nil]
    exact Nat.ofDigitChars_toDigits (by decide) (by decide)
  · have hlow : n % 10 ^ width < 10 ^ width := Nat.mod_lt _ (Nat.pow_pos (by decide))
    have hlen := (Nat.length_toDigits_le_iff (by decide) (Nat.pos_of_ne_zero hw)).mpr hlow
    let fraction := Number.pad width (Nat.toDigits 10 (n % 10 ^ width))
    have hfraction : fraction.length = width := by
      simp only [fraction, Number.pad, List.length_append, List.length_replicate]
      omega
    refine ⟨Nat.toDigits 10 (n / 10 ^ width), fraction, Nat.toDigits_ne_nil,
      fun c => isDigit_of_mem_toDigits,
      isDigit_of_mem_pad fun c => isDigit_of_mem_toDigits, hfraction, ?_, ?_⟩
    · change Nat.ofDigitChars 10 (_ ++ fraction) 0 = n
      have hvalue : Nat.ofDigitChars 10 fraction 0 = n % 10 ^ width := by
        simp only [fraction, Number.pad]
        rw [Nat.ofDigitChars_append, Nat.ofDigitChars_replicate_zero, Nat.mul_zero,
          Nat.ofDigitChars_toDigits (by decide) (by decide)]
      rw [Nat.ofDigitChars_append, Nat.ofDigitChars_toDigits (by decide) (by decide),
        Nat.ofDigitChars_eq_ofDigitChars_zero, hfraction, hvalue, Nat.div_add_mod]
    · have hne : fraction ≠ [] := by
        intro h
        rw [h] at hfraction
        exact hw hfraction.symm
      rw [if_neg hw, if_neg hne]

theorem splitSign_of_isDigit {c : Char} (h : c.isDigit = true) (s : List Char) :
    splitSign (c :: s) = (false, c :: s) := by
  simp [splitSign, Token.isSign_of_isDigit h]

theorem splitSign_append (negative : Bool) {s : List Char} (hs : s ≠ [])
    (h : ∀ c ∈ s, c.isDigit = true) (rest : List Char) :
    splitSign ((if negative then ['-'] else []) ++ (s ++ rest)) = (negative, s ++ rest) := by
  cases s with
  | nil => exact absurd rfl hs
  | cons c s =>
    cases negative with
    | false => exact splitSign_of_isDigit (h c (by simp)) _
    | true => rfl

theorem parse?_positional (negative : Bool) (n width : Nat) :
    parse? ((if negative then ['-'] else []) ++ Number.positional n width) =
      some ⟨negative, n, -width⟩ := by
  obtain ⟨whole, fraction, hne, hw, hf, hwidth, hvalue, htext⟩ := positional_cases n width
  rw [htext, parse?, splitSign_append negative hne hw]
  dsimp only
  have hstop : ∀ c ∈ (if fraction = [] then [] else '.' :: fraction).head?, c.isDigit = false := by
    intro c hc
    split at hc
    · cases hc
    · cases hc; rfl
  rw [Text.takeWhile_append_of_stop hw hstop, Text.dropWhile_append_of_stop hw hstop]
  have hsplit : splitFraction (if fraction = [] then [] else '.' :: fraction) = (fraction, []) := by
    split
    · rename_i hnil
      rw [hnil]; rfl
    · have htake : fraction.takeWhile Char.isDigit = fraction := List.takeWhile_eq_self_iff.mpr hf
      have hdrop : fraction.dropWhile Char.isDigit = [] := List.dropWhile_eq_nil_iff.mpr hf
      simp [splitFraction, htake, hdrop]
  simp [hsplit, hne, exponent?, hvalue, hwidth]

end Decimal

namespace Number

variable {x : Number}

theorem ofMagnitude_magnitude (x : Number) : ofMagnitude x.negative x.magnitude = x := by
  have hlt : x.bits.toNat < 2 ^ 64 := x.bits.toNat_lt
  have hsum : (if x.negative then 2 ^ 63 else 0) + x.magnitude = x.bits.toNat := by
    simp only [negative, magnitude, decide_eq_true_eq]
    split <;> omega
  rw [ofMagnitude, hsum, UInt64.ofNat_toNat]

/-- The text of a finite number is a sign or none and a decimal. -/
theorem text_eq (h : x.isFinite = true) :
    ∃ n width, x.text = (if x.negative then ['-'] else []) ++ positional n width ∧
      nearestMagnitude n (10 ^ width) = x.magnitude := by
  have hlt : x.magnitude < infinite := of_decide_eq_true h
  obtain ⟨n, width, htext, hnearest⟩ := magnitudeText_eq hlt
  refine ⟨n, width, ?_, hnearest⟩
  rw [text, isNaN_of_isFinite h, htext]
  cases x.negative <;> rfl

theorem toNumber_neg (negative : Bool) (n width : Nat) :
    Decimal.toNumber ⟨negative, n, -width⟩ = nearest negative n (10 ^ width) := by
  simp [Decimal.toNumber]

theorem ofLiteral?_text (h : x.isFinite = true) : ofLiteral? x.text = some x := by
  obtain ⟨n, width, htext, hnearest⟩ := text_eq h
  have hmin : min infinite x.magnitude = x.magnitude :=
    Nat.min_eq_right (Nat.le_of_lt (of_decide_eq_true h))
  rw [ofLiteral?, htext, Decimal.parse?_positional, Option.map_some, toNumber_neg, nearest, hnearest,
    hmin, ofMagnitude_magnitude, Option.filter_some, if_pos h]

end Number
end Sexpr
