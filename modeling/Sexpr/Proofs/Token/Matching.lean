import Mathlib.Data.List.Basic
import Sexpr.Token.Pattern

/-! The preferred match of a pattern, without its other ways to match where these cannot matter. -/
namespace Sexpr.Pattern

variable {p q : Pattern} {accepts : Char → Bool} {c : Char} {s : List Char}

theorem rests_char_cons : (char accepts).rests (c :: s) = if accepts c then [s] else [] := rfl

theorem rests_seq : (seq p q).rests s = (p.rests s).flatMap q.rests := rfl

theorem rests_optional : (optional p).rests s = p.rests s ++ [s] := rfl

theorem rests_plus : (plus p).rests s = (p.rests s).flatMap (star p).rests := rfl

theorem rests_text_singleton (d : Char) :
    (text [d]).rests (c :: s) = if c = d then [s] else [] := by
  by_cases h : c = d <;> simp [text, sequence, rests_seq, rests, h]

/-- More rounds than there are characters change nothing. -/
theorem repeated_congr {step : List Char → List (List Char)} {m n : Nat} (hm : s.length ≤ m)
    (hn : s.length ≤ n) : repeated step m s = repeated step n s := by
  induction m generalizing n s with
  | zero =>
    obtain rfl := List.length_eq_zero_iff.mp (Nat.le_zero.mp hm)
    cases n <;> simp [repeated]
  | succ m ih =>
    cases n with
    | zero =>
      obtain rfl := List.length_eq_zero_iff.mp (Nat.le_zero.mp hn)
      simp [repeated]
    | succ n =>
      rw [repeated, repeated]
      congr 1
      apply List.flatMap_congr
      intro t ht
      have hlt : t.length < s.length := by simpa using (List.mem_filter.mp ht).2
      exact ih (by omega) (by omega)

/-- One round of a repetition and then the others, or none at all. -/
theorem rests_star :
    (star p).rests s =
      ((p.rests s).filter (·.length < s.length)).flatMap (star p).rests ++ [s] := by
  rw [rests, repeated_congr (Nat.le_refl _) (Nat.le_succ _), repeated]
  congr 1
  apply List.flatMap_congr
  intro t ht
  have hlt : t.length < s.length := by simpa using (List.mem_filter.mp ht).2
  exact repeated_congr (by omega) (Nat.le_refl _)

theorem rests_star_char_nil : (star (char accepts)).rests [] = [[]] := rfl

theorem rests_star_char_cons :
    (star (char accepts)).rests (c :: s) =
      if accepts c then (star (char accepts)).rests s ++ [c :: s] else [c :: s] := by
  rw [rests_star, rests_char_cons]
  split <;> simp

/-- A repetition of single characters takes all it can first. -/
theorem head?_rests_star_char :
    ((star (char accepts)).rests s).head? = some (s.dropWhile accepts) := by
  induction s with
  | nil => rfl
  | cons c s ih =>
    rw [rests_star_char_cons, List.dropWhile_cons]
    split
    · rw [List.head?_append, ih]
      rfl
    · rfl

theorem length_le_of_mem_rests_star_char {t : List Char}
    (h : t ∈ (star (char accepts)).rests s) : t.length ≤ s.length := by
  induction s with
  | nil => simp_all [rests_star_char_nil]
  | cons c s ih =>
    rw [rests_star_char_cons] at h
    split at h
    · rcases List.mem_append.mp h with h | h
      · have := ih h
        simp only [List.length_cons]
        omega
      · simp_all
    · simp_all

/-- What follows a repetition of single characters is tried at its end alone if it cannot start with
one of them. -/
theorem flatMap_rests_star_char {next : List Char → List (List Char)}
    (h : ∀ c s, accepts c = true → next (c :: s) = []) :
    ((star (char accepts)).rests s).flatMap next = next (s.dropWhile accepts) := by
  induction s with
  | nil => simp [rests_star_char_nil]
  | cons c s ih =>
    rw [rests_star_char_cons, List.dropWhile_cons]
    split
    · rename_i hc
      simp [ih, h c s hc]
    · simp

/-- If what follows matches after the preferred way, that is the preferred way for both. -/
theorem head?_flatMap_of_head? {rests : List (List Char)} {t : List Char}
    {next : List Char → List (List Char)} (h : rests.head? = some t) (hn : next t ≠ []) :
    (rests.flatMap next).head? = (next t).head? := by
  cases rests with
  | nil => cases h
  | cons r rests =>
    cases h
    cases hr : next t with
    | nil => exact absurd hr hn
    | cons u us => simp [hr]

theorem match?_eq_some {w r : List Char} (h : (p.rests s).head? = some r) (hs : s = w ++ r) :
    p.match? s = some (w, r) := by
  rw [match?, h, hs]
  simp

theorem match?_eq_none (h : p.rests s = []) : p.match? s = none := by
  simp [match?, h]

end Sexpr.Pattern
