import Mathlib.Data.List.Basic
import Mathlib.Data.List.TakeWhile
import Mathlib.Algebra.Ring.Int.Defs
import Mathlib.Algebra.Ring.Nat

/-! Decimal numbers as C prints and reads them. A reader of an unsigned 64-bit number skips blanks,
takes a sign, saturates, and says where it stopped. What is printed is read back, up to saturation,
and the reader stops at the first character that is no digit. The number that a text denotes is
defined apart from the readers, which take more than that. -/
namespace Decimal

/-- `%u`. -/
def print (n : Nat) : List Char := Nat.toDigits 10 n

def isBlank (c : Char) : Bool :=
  c == ' ' || c == '\t' || c == '\n' || c == '\x0b' || c == '\x0c' || c == '\r'

/-- A leading sign, and whether it is a minus. -/
def sign : List Char → Bool × List Char
  | '-' :: rest => (true, rest)
  | '+' :: rest => (false, rest)
  | text => (false, text)

/-- `strtoull` in base 10: the value and what follows the number. Without a digit
the value is 0 and nothing is read. A minus sign negates modulo `2 ^ 64`. -/
def strtoull (text : List Char) : Nat × List Char :=
  let (negative, body) := sign (text.dropWhile isBlank)
  let digits := body.takeWhile Char.isDigit
  let value := Nat.ofDigitChars 10 digits 0
  if digits = [] then (0, text)
  else if 2 ^ 64 ≤ value then (2 ^ 64 - 1, body.dropWhile Char.isDigit)
  else (if negative then (2 ^ 64 - value) % 2 ^ 64 else value, body.dropWhile Char.isDigit)

variable {n m : Nat} {c : Char} {rest : List Char}

theorem isDigit_of_mem_print (member : c ∈ print n) : c.isDigit = true :=
  Nat.isDigit_of_mem_toDigits (by decide) (by decide) member

@[simp] theorem print_ne_nil : print n ≠ [] := Nat.toDigits_ne_nil

theorem value_print : Nat.ofDigitChars 10 (print n) 0 = n := Nat.ofDigitChars_ten_toDigits

theorem print_injective (same : print n = print m) : n = m := by
  rw [← value_print (n := n), same, value_print]

/-- A printed number starts with a digit. -/
theorem print_eq_cons : ∃ c digits, print n = c :: digits ∧ c.isDigit = true := by
  obtain ⟨c, digits, shape⟩ := List.exists_cons_of_ne_nil (print_ne_nil (n := n))
  exact ⟨c, digits, shape, isDigit_of_mem_print (shape ▸ List.mem_cons_self)⟩

theorem isBlank_of_isDigit (digit : c.isDigit = true) : isBlank c = false := by
  cases blank : isBlank c with
  | false => rfl
  | true =>
    simp only [isBlank, Bool.or_eq_true, beq_iff_eq] at blank
    rcases blank with ((((rfl | rfl) | rfl) | rfl) | rfl) | rfl <;> exact absurd digit (by decide)

theorem sign_of_isDigit (digit : c.isDigit = true) : sign (c :: rest) = (false, c :: rest) := by
  unfold sign
  split
  · rename_i minus
    cases minus
    exact absurd digit (by decide)
  · rename_i plus
    cases plus
    exact absurd digit (by decide)
  · rfl

/-- The number that a text of digits denotes. A sign, a blank or nothing at all denotes none. -/
def number (text : List Char) : Option Nat :=
  if text ≠ [] ∧ text.all Char.isDigit = true then some (Nat.ofDigitChars 10 text 0) else none

private theorem number_print : number (print n) = some n := by
  have digits : (print n).all Char.isDigit = true :=
    List.all_eq_true.mpr fun _ => isDigit_of_mem_print
  rw [number, if_pos ⟨print_ne_nil, digits⟩, value_print]

/-- What denotes a number starts with a digit. -/
theorem number_eq_cons {text : List Char} (denotes : number text = some n) :
    ∃ c digits, text = c :: digits ∧ c.isDigit = true := by
  unfold number at denotes
  split at denotes
  · rename_i digits
    obtain ⟨c, rest, rfl⟩ := List.exists_cons_of_ne_nil digits.1
    exact ⟨c, rest, rfl, List.all_eq_true.mp digits.2 c List.mem_cons_self⟩
  · cases denotes

/-- A number is read up to its end. One that does not fit is read as the greatest one. -/
theorem strtoull_number {text : List Char} (denotes : number text = some n)
    (ends : ∀ c ∈ rest.head?, c.isDigit = false) :
    strtoull (text ++ rest) = (min n (2 ^ 64 - 1), rest) := by
  obtain ⟨c, digits, shape, digit⟩ := number_eq_cons denotes
  unfold number at denotes
  split at denotes
  · rename_i numeric
    obtain rfl := Option.some.inj denotes
    have unblanked : (text ++ rest).dropWhile isBlank = text ++ rest := by
      rw [shape, List.cons_append, List.dropWhile_cons_of_neg (by simp [isBlank_of_isDigit digit])]
    have unsigned : sign (text ++ rest) = (false, text ++ rest) := by
      rw [shape, List.cons_append]
      exact sign_of_isDigit digit
    have stops : rest.takeWhile Char.isDigit = [] ∧ rest.dropWhile Char.isDigit = rest := by
      cases rest with
      | nil => exact ⟨rfl, rfl⟩
      | cons c rest =>
        have other : c.isDigit = false := ends c rfl
        simp [other]
    have taken : (text ++ rest).takeWhile Char.isDigit = text := by
      rw [List.takeWhile_append_of_pos (List.all_eq_true.mp numeric.2), stops.1, List.append_nil]
    have dropped : (text ++ rest).dropWhile Char.isDigit = rest := by
      rw [List.dropWhile_append_of_pos (List.all_eq_true.mp numeric.2), stops.2]
    unfold strtoull
    simp only [unblanked, unsigned, taken, dropped, numeric.1, ↓reduceIte, Bool.false_eq_true]
    split
    · rename_i large
      rw [Nat.min_eq_right (by omega)]
    · rename_i small
      rw [Nat.min_eq_left (by omega)]
  · cases denotes

/-- Reading a printed number gives the number back and stops after it. -/
theorem strtoull_print (bound : n < 2 ^ 64) (ends : ∀ c ∈ rest.head?, c.isDigit = false) :
    strtoull (print n ++ rest) = (n, rest) := by
  rw [strtoull_number number_print ends, Nat.min_eq_left (by omega)]

/-- `strtoll` in base 10, which saturates at both ends. -/
def strtoll (text : List Char) : Int × List Char :=
  let (negative, body) := sign (text.dropWhile isBlank)
  let digits := body.takeWhile Char.isDigit
  let value := Nat.ofDigitChars 10 digits 0
  if digits = [] then (0, text)
  else (if negative then max (-2 ^ 63) (-(value : Int)) else min (value : Int) (2 ^ 63 - 1),
    body.dropWhile Char.isDigit)

theorem strtoll_print : strtoll (print n) = (min (n : Int) (2 ^ 63 - 1), []) := by
  obtain ⟨c, digits, shape, digit⟩ := print_eq_cons (n := n)
  have unsigned : sign ((print n).dropWhile isBlank) = (false, print n) := by
    rw [shape, List.dropWhile_cons_of_neg (by simp [isBlank_of_isDigit digit])]
    exact sign_of_isDigit digit
  have taken : (print n).takeWhile Char.isDigit = print n :=
    List.takeWhile_eq_self_iff.mpr fun _ => isDigit_of_mem_print
  have dropped : (print n).dropWhile Char.isDigit = [] :=
    List.dropWhile_eq_nil_iff.mpr fun _ => isDigit_of_mem_print
  unfold strtoll
  simp only [unsigned, taken, dropped, value_print, print_ne_nil, if_false, Bool.false_eq_true]

/-- A number that does not fit is read as the greatest one. -/
theorem strtoull_print_min : (strtoull (print n)).1 = min n (2 ^ 64 - 1) := by
  have read : strtoull (print n ++ []) = (min n (2 ^ 64 - 1), []) :=
    strtoull_number number_print (by simp)
  rw [List.append_nil] at read
  rw [read]

end Decimal
