import Sexpr.Error

/-!
Strings in quotes. Three characters have an escape: the quote, the backslash and the line feed.
-/
namespace Sexpr.Text.Quoted

def encodeChar (c : Char) : List Char :=
  if c = '"' then ['\\', '"'] else if c = '\\' then ['\\', '\\']
  else if c = '\n' then ['\\', 'n'] else [c]

def encode (s : List Char) : List Char := s.flatMap encodeChar

/-- The character that an escape stands for. -/
def unescape? (c : Char) : Option Char :=
  if c = '"' then some '"' else if c = 'n' then some '\n' else if c = '\\' then some '\\' else none

/-- What the text between the quotes stands for, after `read`, which is in reverse. A quote or a line
feed with no backslash before it stands for itself. -/
def decodeOnto (read : List Char) : List Char → Except Error (List Char)
  | [] => .ok read.reverse
  | c :: s =>
    if c = '\\' then
      match s with
      | [] => .error .unterminated
      | d :: s =>
        match unescape? d with
        | some e => decodeOnto (e :: read) s
        | none => .error (.badEscape d)
    else decodeOnto (c :: read) s

def decode (s : List Char) : Except Error (List Char) := decodeOnto [] s

theorem decodeOnto_encode (read s : List Char) :
    decodeOnto read (encode s) = .ok (read.reverse ++ s) := by
  induction s generalizing read with
  | nil => simp [encode, decodeOnto]
  | cons c s ih =>
    have step (d : Char) : decodeOnto (d :: read) (encode s) = .ok (read.reverse ++ d :: s) := by
      simp [ih]
    rw [encode, List.flatMap_cons, ← encode]
    by_cases hq : c = '"'
    · subst hq; exact step '"'
    by_cases hb : c = '\\'
    · subst hb; exact step '\\'
    by_cases hn : c = '\n'
    · subst hn; exact step '\n'
    have plain : encodeChar c = [c] := by simp [encodeChar, hq, hb, hn]
    rw [plain, List.singleton_append, decodeOnto.eq_def]
    simpa [hb] using step c

theorem decode_encode (s : List Char) : decode (encode s) = .ok s := decodeOnto_encode [] s

theorem decodeOnto_plain {c : Char} {read s : List Char} (hc : c ≠ '\\') :
    decodeOnto read (c :: s) = decodeOnto (c :: read) s := by
  rw [decodeOnto.eq_def]
  simp [hc]

theorem decodeOnto_eq_append {read s : List Char} (h : '\\' ∉ s) :
    decodeOnto read s = .ok (read.reverse ++ s) := by
  induction s generalizing read with
  | nil => simp [decodeOnto]
  | cons c s ih =>
    rw [List.mem_cons, not_or] at h
    obtain ⟨hc, hs⟩ := h
    rw [decodeOnto_plain (Ne.symm hc), ih hs, List.reverse_cons, List.append_assoc, List.singleton_append]

/-- Without a backslash every character stands for itself. -/
theorem decode_eq_self {s : List Char} (h : '\\' ∉ s) : decode s = .ok s :=
  decodeOnto_eq_append h

/-- What lies between a first and a last quote; one quote is not both. -/
def body? : List Char → Option (List Char)
  | [] => none
  | c :: s => if c = '"' ∧ s.getLast? = some '"' then some s.dropLast else none

/-- What a string with its quotes stands for. -/
def read (token : List Char) : Except Error (List Char) :=
  match body? token with
  | some s => decode s
  | none => .error .unterminated

end Sexpr.Text.Quoted
