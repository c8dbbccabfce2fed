import Restraint.Lib.Decimal

/-! The conversions `%lu` and ` %c` of `sscanf`. A conversion says what it read, what is left, and
whether the input ended before it began, which `sscanf` tells from a mismatch. Blanks in front are
skipped as the format has it. -/
namespace Scanf
open Decimal (isBlank sign strtoull)

/-- What a conversion comes to: the input ends before it, it does not match, or it stores
something and leaves the rest. -/
inductive Conversion (α : Type) where
  | inputFailure
  | matchingFailure
  | stored (value : α) (rest : List Char)
  deriving DecidableEq

/-- The digits of a number behind blanks and a sign. -/
def digits (text : List Char) : List Char :=
  (sign (text.dropWhile isBlank)).2.takeWhile Char.isDigit

/-- `%lu`: the number that `strtoull` reads, and whether it sets `errno` to `ERANGE`. -/
def unsigned (text : List Char) : Conversion (Nat × Bool) :=
  if text.dropWhile isBlank = [] then .inputFailure
  else if digits text = [] then .matchingFailure
  else
    .stored ((strtoull text).1, decide (2 ^ 64 ≤ Nat.ofDigitChars 10 (digits text) 0))
      (strtoull text).2

/-- ` %c`. -/
def char (text : List Char) : Conversion Char :=
  match text.dropWhile isBlank with
  | [] => .inputFailure
  | c :: rest => .stored c rest

/-- The texts of a sign that is a minus or not. -/
def Sign (negative : Bool) (text : List Char) : Prop :=
  if negative then text = ['-'] else text = [] ∨ text = ['+']

variable {lead minus number rest : List Char} {negative : Bool}

theorem dropWhile_blanks (blanks : ∀ c ∈ lead, isBlank c = true)
    (stops : ∀ c ∈ rest.head?, isBlank c = false) : (lead ++ rest).dropWhile isBlank = rest := by
  rw [List.dropWhile_append_of_pos blanks]
  cases rest with
  | nil => rfl
  | cons c rest => rw [List.dropWhile_cons_of_neg (by simp [stops c rfl])]

private theorem sign_append (signed : Sign negative minus) (nonempty : number ≠ [])
    (digits : ∀ c ∈ number, c.isDigit = true) :
    sign (minus ++ (number ++ rest)) = (negative, number ++ rest) := by
  cases negative with
  | true =>
    rw [show minus = ['-'] from signed]
    rfl
  | false =>
    rcases show minus = [] ∨ minus = ['+'] from signed with rfl | rfl
    · obtain ⟨c, number, rfl⟩ := List.exists_cons_of_ne_nil nonempty
      exact Decimal.sign_of_isDigit (digits c List.mem_cons_self)
    · rfl

/-- A sign and digits start with something that is not a blank. -/
theorem not_isBlank_head (signed : Sign negative minus) (nonempty : number ≠ [])
    (digits : ∀ c ∈ number, c.isDigit = true) :
    ∀ c ∈ (minus ++ (number ++ rest)).head?, isBlank c = false := by
  obtain ⟨d, number, rfl⟩ := List.exists_cons_of_ne_nil nonempty
  have digit : isBlank d = false := Decimal.isBlank_of_isDigit (digits d List.mem_cons_self)
  cases negative with
  | true =>
    rw [show minus = ['-'] from signed]
    rintro c ⟨⟩
    rfl
  | false =>
    rcases show minus = [] ∨ minus = ['+'] from signed with rfl | rfl
    · rintro c ⟨⟩
      exact digit
    · rintro c ⟨⟩
      rfl

/-- `%lu` behind blanks: the sign and the digits are read, up to what is no digit. -/
theorem digits_append (blanks : ∀ c ∈ lead, isBlank c = true) (signed : Sign negative minus)
    (nonempty : number ≠ []) (all : ∀ c ∈ number, c.isDigit = true)
    (stops : ∀ c ∈ rest.head?, c.isDigit = false) :
    sign ((lead ++ (minus ++ (number ++ rest))).dropWhile isBlank) = (negative, number ++ rest) ∧
      digits (lead ++ (minus ++ (number ++ rest))) = number ∧
      (number ++ rest).dropWhile Char.isDigit = rest := by
  have signs : sign ((lead ++ (minus ++ (number ++ rest))).dropWhile isBlank) =
      (negative, number ++ rest) := by
    rw [dropWhile_blanks blanks (not_isBlank_head signed nonempty all)]
    exact sign_append signed nonempty all
  refine ⟨signs, ?_, ?_⟩
  · rw [digits, signs, List.takeWhile_append_of_pos all]
    cases rest with
    | nil => simp
    | cons c rest => simp [show c.isDigit = false from stops c rfl]
  · rw [List.dropWhile_append_of_pos all]
    cases rest with
    | nil => rfl
    | cons c rest => rw [List.dropWhile_cons_of_neg (by simp [show c.isDigit = false from stops c rfl])]

theorem unsigned_append (blanks : ∀ c ∈ lead, isBlank c = true) (signed : Sign negative minus)
    (nonempty : number ≠ []) (all : ∀ c ∈ number, c.isDigit = true)
    (stops : ∀ c ∈ rest.head?, c.isDigit = false) :
    unsigned (lead ++ (minus ++ (number ++ rest))) =
      if 2 ^ 64 ≤ Nat.ofDigitChars 10 number 0 then .stored (2 ^ 64 - 1, true) rest
      else
        .stored (if negative then (2 ^ 64 - Nat.ofDigitChars 10 number 0) % 2 ^ 64
          else Nat.ofDigitChars 10 number 0, false) rest := by
  obtain ⟨signs, read, dropped⟩ := digits_append blanks signed nonempty all stops
  have visible : ∀ c ∈ (minus ++ (number ++ rest)).head?, isBlank c = false :=
    not_isBlank_head signed nonempty all
  have body := dropWhile_blanks blanks visible
  have there : minus ++ (number ++ rest) ≠ [] := by simp [nonempty]
  have taken : (number ++ rest).takeWhile Char.isDigit = number := by
    rw [digits, signs] at read
    exact read
  rw [unsigned, body, if_neg there, read, if_neg nonempty]
  simp only [strtoull, signs, taken, nonempty, if_false, dropped]
  by_cases large : 2 ^ 64 ≤ Nat.ofDigitChars 10 number 0
  · simp only [if_pos large, decide_eq_true large]
  · simp only [if_neg large, decide_eq_false large]

/-- Every text has that form, with the digits that `%lu` finds. -/
theorem exists_append (text : List Char) :
    ∃ lead minus negative rest, text = lead ++ (minus ++ (digits text ++ rest)) ∧
      (∀ c ∈ lead, isBlank c = true) ∧ Sign negative minus ∧
      (∀ c ∈ digits text, c.isDigit = true) ∧ ∀ c ∈ rest.head?, c.isDigit = false := by
  have signs : ∃ minus negative, text.dropWhile isBlank =
      minus ++ (sign (text.dropWhile isBlank)).2 ∧ Sign negative minus := by
    unfold sign
    split
    · rename_i shape
      exact ⟨['-'], true, shape, rfl⟩
    · rename_i shape
      exact ⟨['+'], false, shape, .inr rfl⟩
    · exact ⟨[], false, rfl, .inl rfl⟩
  obtain ⟨minus, negative, shape, signed⟩ := signs
  refine ⟨text.takeWhile isBlank, minus, negative,
    (sign (text.dropWhile isBlank)).2.dropWhile Char.isDigit, ?_, ?_, signed, ?_, ?_⟩
  · rw [digits, List.takeWhile_append_dropWhile, ← shape, List.takeWhile_append_dropWhile]
  · exact List.all_eq_true.mp List.all_takeWhile
  · exact List.all_eq_true.mp List.all_takeWhile
  · intro c member
    have stopped := List.head?_dropWhile_not Char.isDigit (sign (text.dropWhile isBlank)).2
    rw [show ((sign (text.dropWhile isBlank)).2.dropWhile Char.isDigit).head? = some c from member]
      at stopped
    exact stopped

end Scanf
