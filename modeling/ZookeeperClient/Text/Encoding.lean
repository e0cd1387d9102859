import Mathlib.Data.List.Basic
import Mathlib.Data.Nat.Notation

/-!
# Characters of a byte string

A string is a list of bytes with an encoding, which says how many bytes the first character of a
non-empty string takes. A byte that starts no valid character counts as a character of its own.

## Main definitions

- `Encoding` — an encoding, with at most seven bytes to a character
- `Encoding.chars` — the number of characters of a string
- `binary`, `utf8` — two encodings

## Main results

- `length_le_mul_chars` — how many bytes there are for the characters
- `chars_flatten_replicate` — a character that is repeated
-/

namespace Text

/-- An encoding, by the number of bytes that the first character of a string takes. -/
structure Encoding where
  width : List UInt8 → ℕ
  one_le (s : List UInt8) : 1 ≤ width s
  le_seven (s : List UInt8) : width s ≤ 7

namespace Encoding

variable (e : Encoding)

/-- The number of characters after the first `skip` bytes. -/
def charsFrom : ℕ → List UInt8 → ℕ
  | _, [] => 0
  | 0, b :: rest => charsFrom (e.width (b :: rest) - 1) rest + 1
  | skip + 1, _ :: rest => charsFrom skip rest

/-- The number of characters. -/
def chars (s : List UInt8) : ℕ :=
  e.charsFrom 0 s

theorem length_le_charsFrom (skip : ℕ) (s : List UInt8) :
    s.length ≤ 7 * e.charsFrom skip s + skip := by
  induction s generalizing skip with
  | nil => exact Nat.zero_le _
  | cons b rest ih =>
    cases skip with
    | zero =>
      have hwidth := e.le_seven (b :: rest)
      have hone := e.one_le (b :: rest)
      have hrest := ih (e.width (b :: rest) - 1)
      simp only [charsFrom, List.length_cons]
      omega
    | succ skip =>
      have hrest := ih skip
      simp only [charsFrom, List.length_cons]
      omega

theorem length_le_mul_chars (s : List UInt8) : s.length ≤ 7 * e.chars s :=
  e.length_le_charsFrom 0 s

theorem charsFrom_append (c rest : List UInt8) :
    e.charsFrom c.length (c ++ rest) = e.chars rest := by
  induction c with
  | nil => rfl
  | cons b c ih => exact ih

/-- A first character of the right width is counted once. -/
theorem chars_append {b : UInt8} {c rest : List UInt8}
    (h : e.width (b :: c ++ rest) = c.length + 1) :
    e.chars (b :: c ++ rest) = e.chars rest + 1 := by
  show e.charsFrom (e.width (b :: c ++ rest) - 1) (c ++ rest) + 1 = _
  rw [h, Nat.add_sub_cancel, charsFrom_append]

/-- A character that is repeated, whatever follows it. -/
theorem chars_flatten_replicate {b : UInt8} {c : List UInt8}
    (h : ∀ rest, e.width (b :: c ++ rest) = c.length + 1) (n : ℕ) :
    e.chars (List.replicate n (b :: c)).flatten = n := by
  induction n with
  | zero => rfl
  | succ n ih =>
    rw [List.replicate_succ, List.flatten_cons, chars_append e (h _), ih]

end Encoding

/-- Every byte is a character. -/
def binary : Encoding where
  width _ := 1
  one_le _ := Nat.le_refl 1
  le_seven _ := by decide

theorem chars_binary (s : List UInt8) : binary.chars s = s.length := by
  induction s with
  | nil => rfl
  | cons b rest ih => exact congrArg Nat.succ ih

/-- A continuation byte of UTF-8. -/
def isContinuation (b : UInt8) : Bool :=
  0x80 ≤ b && b ≤ 0xBF

/-- The width of the first character in UTF-8; one if there is no valid character. -/
def utf8Width : List UInt8 → ℕ
  | a :: b :: rest =>
    if 0xC2 ≤ a ∧ a ≤ 0xDF ∧ isContinuation b then 2
    else
      match rest with
      | [] => 1
      | c :: rest =>
        if 0xE0 ≤ a ∧ a ≤ 0xEF ∧ isContinuation b ∧ isContinuation c ∧
            (a = 0xE0 → 0xA0 ≤ b) ∧ (a = 0xED → b ≤ 0x9F) then 3
        else
          match rest with
          | [] => 1
          | d :: _ =>
            if 0xF0 ≤ a ∧ a ≤ 0xF4 ∧ isContinuation b ∧ isContinuation c ∧ isContinuation d ∧
                (a = 0xF0 → 0x90 ≤ b) ∧ (a = 0xF4 → b ≤ 0x8F) then 4
            else 1
  | _ => 1

theorem utf8Width_bounds (s : List UInt8) : 1 ≤ utf8Width s ∧ utf8Width s ≤ 7 := by
  unfold utf8Width
  repeat' split
  all_goals decide

def utf8 : Encoding where
  width := utf8Width
  one_le s := (utf8Width_bounds s).1
  le_seven s := (utf8Width_bounds s).2

/-- `aé€` in UTF-8. -/
example : utf8.chars [0x61, 0xC3, 0xA9, 0xE2, 0x82, 0xAC] = 3 := by decide

end Text
