import Mathlib.Data.List.Basic
import Mathlib.Algebra.Ring.Int.Defs
import Mathlib.Algebra.Ring.Nat

/-! Hexadecimal numbers as C prints them, with leading zeros up to a width, and their value. Reading
takes exactly as many digits as it is asked for, of either case, and fails on anything else. What is
printed with a width is read back with it. -/
namespace Hex

/-- `g_ascii_xdigit_value`. -/
def digitValue (c : Char) : Option Nat :=
  if '0' ≤ c ∧ c ≤ '9' then some (c.toNat - '0'.toNat)
  else if 'a' ≤ c ∧ c ≤ 'f' then some (c.toNat - 'a'.toNat + 10)
  else if 'A' ≤ c ∧ c ≤ 'F' then some (c.toNat - 'A'.toNat + 10)
  else none

/-- The value of digits, after a number that was read before them. -/
def value (n : Nat) (digits : List Char) : Option Nat :=
  digits.foldlM (fun n c => (digitValue c).map (16 * n + ·)) n

/-- `%0<width>x`. -/
def print (width n : Nat) : List Char := (Nat.toDigits 16 n).leftpad width '0'

variable {n m width : Nat} {digits more : List Char}

private theorem digitValue_digitChar (small : n < 16) : digitValue n.digitChar = some n := by
  have all : ∀ n : Fin 16, digitValue n.val.digitChar = some n.val := by decide
  exact all ⟨n, small⟩

private theorem value_append : value n (digits ++ more) = (value n digits).bind fun m => value m more :=
  List.foldlM_append ..

private theorem value_digit (small : m < 16) : value n [m.digitChar] = some (16 * n + m) := by
  simp [value, digitValue_digitChar small]

/-- Zeros in front do not count. -/
theorem value_zeros : value 0 (List.replicate n '0' ++ digits) = value 0 digits := by
  induction n with
  | zero => rfl
  | succ n ih =>
    rw [List.replicate_succ, List.cons_append, ← ih]
    rfl

private theorem value_toDigits : value 0 (Nat.toDigits 16 n) = some n := by
  induction n using Nat.strongRecOn with
  | _ n ih =>
    rcases Nat.lt_or_ge n 16 with small | large
    · rw [Nat.toDigits_of_lt_base small, value_digit small, Nat.mul_zero, Nat.zero_add]
    · have below : n / 16 < n := Nat.div_lt_self (by omega) (by decide)
      rw [Nat.toDigits_of_base_le (by decide) large, value_append, ih _ below, Option.bind_some,
        value_digit (Nat.mod_lt _ (by decide)), Nat.div_add_mod]

/-- A printed number has its value. -/
theorem value_print : value 0 (print width n) = some n := by
  rw [print, List.leftpad, value_zeros, value_toDigits]

/-- A number fits into the width when it is small enough. -/
theorem length_print (positive : 0 < width) : (print width n).length = width ↔ n < 16 ^ width := by
  rw [print, List.leftpad, List.length_append, List.length_replicate,
    ← Nat.length_toDigits_le_iff (by decide) positive]
  omega

end Hex
