import Mathlib.Data.String.Basic

/-! Texts that are in order by their characters are in order by their bytes. -/
namespace Sexpr.Text

/-- A text as it is written out in UTF-8. -/
def bytes (s : String) : List UInt8 := s.toUTF8.data.toList

theorem bytes_eq (s : String) : bytes s = s.toList.flatMap String.utf8EncodeChar := by
  rw [bytes, String.toUTF8, ← String.utf8Encode_toList, List.utf8Encode,
    List.toList_data_toByteArray]

/-- A number by its digits to the base 64, the last three of them apart. -/
theorem exists_sextets (v : Nat) :
    ∃ a b c d, b < 64 ∧ c < 64 ∧ d < 64 ∧ v = 64 * (64 * (64 * a + b) + c) + d :=
  ⟨v / 64 / 64 / 64, v / 64 / 64 % 64, v / 64 % 64, v % 64, by omega, by omega, by omega, by omega⟩

/-- The first byte in which two characters differ tells which of them is less. -/
theorem utf8EncodeChar_lt {x y : Char} (h : x < y) (s t : List UInt8) :
    String.utf8EncodeChar x ++ s < String.utf8EncodeChar y ++ t := by
  have hlt : x.toNat < y.toNat := h
  have hbound : y.toNat < 0x110000 := by
    have hvalid := y.valid
    simp only [UInt32.isValidChar, Nat.isValidChar, Char.toNat_val] at hvalid
    omega
  -- With the digits at hand every quotient and every remainder in the bytes is made of them.
  have hpair (v : Nat) : v / 4096 = v / 64 / 64 := by omega
  have htriple (v : Nat) : v / 262144 = v / 64 / 64 / 64 := by omega
  have hquotient (v d : Nat) (hd : d < 64) : (64 * v + d) / 64 = v := by omega
  have hremainder (v d : Nat) (hd : d < 64) : (64 * v + d) % 64 = d := by omega
  obtain ⟨a, b, c, d, hb, hc, hd, hx⟩ := exists_sextets x.toNat
  obtain ⟨a', b', c', d', hb', hc', hd', hy⟩ := exists_sextets y.toNat
  rw [hx, hy] at hlt
  rw [hy] at hbound
  simp (disch := assumption) only [String.utf8EncodeChar, Char.toNat_val, hx, hy, hpair, htriple,
    hquotient, hremainder]
  clear hpair htriple hquotient hremainder hx hy h
  split_ifs <;>
    simp (disch := omega) only [List.cons_append, List.nil_append, List.cons_lt_cons_iff,
      UInt8.lt_iff_toNat_lt, ← UInt8.toNat_inj, UInt8.toNat_ofNat', Nat.reducePow,
      Nat.mod_eq_of_lt] <;>
    omega

theorem flatMap_lt {s t : List Char} (h : s < t) :
    s.flatMap String.utf8EncodeChar < t.flatMap String.utf8EncodeChar := by
  induction h with
  | @nil c t =>
    obtain ⟨b, bs, hb⟩ := List.exists_cons_of_ne_nil (String.utf8EncodeChar_ne_nil (c := c))
    rw [List.flatMap_nil, List.flatMap_cons, hb]
    exact List.nil_lt_cons _ _
  | rel h => exact utf8EncodeChar_lt h _ _
  | cons _ ih => exact List.append_left_lt ih

theorem bytes_lt {a b : String} (h : a < b) : bytes a < bytes b := by
  rw [bytes_eq, bytes_eq]
  exact flatMap_lt (String.lt_iff_toList_lt.mp h)

end Sexpr.Text
