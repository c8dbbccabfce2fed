import Mathlib.Data.Nat.Log
import Mathlib.Algebra.Ring.Int.Defs
import Mathlib.Algebra.Ring.Nat

/-! Integers as doubles: rounding to the 53 bits of a binary64 significand,
ties to even, and the conversion back to a 64-bit integer. Integers of 64 bits
never overflow the format, so a double is kept as the integer it stands for. -/
namespace Binary64

/-- The distance between the doubles next to `n`, at least 1. -/
def spacing (n : Nat) : Nat := 2 ^ (n.log2 - 52)

def roundNat (n : Nat) : Nat :=
  let below := n / spacing n
  let rest := n % spacing n
  if 2 * rest < spacing n ∨ (2 * rest = spacing n ∧ below % 2 = 0) then below * spacing n
  else (below + 1) * spacing n

/-- The double an integer is converted to. -/
def ofInt : Int → Int
  | .ofNat n => roundNat n
  | .negSucc n => -roundNat (n + 1)

/-- The difference of two doubles. -/
def sub (a b : Int) : Int := ofInt (a - b)

/-- The 64-bit integer a double is converted to; out of range it is the least. -/
def toInt64 (a : Int) : Int := if -2 ^ 63 ≤ a ∧ a < 2 ^ 63 then a else -2 ^ 63

private theorem spacing_pos (n : Nat) : 0 < spacing n := Nat.two_pow_pos _

private theorem spacing_eq_one {n : Nat} (small : n < 2 ^ 53) : spacing n = 1 := by
  unfold spacing
  rcases Nat.eq_zero_or_pos n with rfl | positive
  · rfl
  · have bits : n.log2 < 53 := (Nat.log2_lt (Nat.ne_of_gt positive)).mpr small
    rw [Nat.sub_eq_zero_of_le (by omega), Nat.pow_zero]

/-- A multiple of the spacing is a double already. -/
theorem roundNat_of_dvd {n : Nat} (exact : spacing n ∣ n) : roundNat n = n := by
  have rest : n % spacing n = 0 := Nat.mod_eq_zero_of_dvd exact
  have positive := spacing_pos n
  unfold roundNat
  simp only [rest, Nat.mul_zero, positive, true_or, ↓reduceIte]
  exact Nat.div_mul_cancel exact

private theorem roundNat_of_lt {n : Nat} (small : n < 2 ^ 53) : roundNat n = n :=
  roundNat_of_dvd (by simp [spacing_eq_one small])

private theorem roundNat_of_le {n : Nat} (small : n ≤ 2 ^ 53) : roundNat n = n := by
  rcases Nat.lt_or_eq_of_le small with less | rfl
  · exact roundNat_of_lt less
  · decide

/-- From 2⁵³ on every double is even. -/
theorem two_dvd_roundNat {n : Nat} (large : 2 ^ 53 ≤ n) : 2 ∣ roundNat n := by
  have bits : 53 ≤ n.log2 := (Nat.le_log2 (by omega)).mpr large
  have even : 2 ∣ spacing n := by
    rw [spacing, show n.log2 - 52 = n.log2 - 53 + 1 by omega, Nat.pow_succ]
    exact Nat.dvd_mul_left 2 _
  unfold roundNat
  dsimp only
  split <;> exact Nat.dvd_trans even (Nat.dvd_mul_left _ _)

/-- Natural numbers up to 2⁵³ are doubles. -/
theorem ofInt_natCast {n : Nat} (small : n ≤ 2 ^ 53) : ofInt n = n :=
  congrArg Int.ofNat (roundNat_of_le small)

/-- Integers below 2⁵³ are doubles. -/
theorem ofInt_of_lt {a : Int} (small : a.natAbs < 2 ^ 53) : ofInt a = a := by
  cases a with
  | ofNat n => simp [ofInt, roundNat_of_lt (show n < 2 ^ 53 from small)]
  | negSucc n =>
    have bound : n + 1 < 2 ^ 53 := small
    simp only [ofInt, roundNat_of_lt bound]
    omega

private theorem spacing_le {n : Nat} (positive : 0 < n) : spacing n ≤ n :=
  calc spacing n ≤ 2 ^ n.log2 := Nat.pow_le_pow_right Nat.two_pos (Nat.sub_le _ _)
    _ ≤ n := Nat.log2_self_le (Nat.ne_of_gt positive)

private theorem roundNat_pos {n : Nat} (positive : 0 < n) : 0 < roundNat n := by
  have gap := spacing_pos n
  have below : 0 < n / spacing n := Nat.div_pos (spacing_le positive) gap
  unfold roundNat
  dsimp only
  split
  · exact Nat.mul_pos below gap
  · exact Nat.mul_pos (Nat.succ_pos _) gap

/-- Rounding keeps the sign. -/
theorem ofInt_pos {a : Int} (positive : 0 < a) : 0 < ofInt a := by
  obtain ⟨n, rfl⟩ := Int.eq_ofNat_of_zero_le (Int.le_of_lt positive)
  have rounded := roundNat_pos (n := n) (by omega)
  show (0 : Int) < roundNat n
  omega

theorem ofInt_nonpos {a : Int} (nonpositive : a ≤ 0) : ofInt a ≤ 0 := by
  cases a with
  | ofNat n =>
    have zero : n = 0 := by
      have bound : (n : Int) ≤ 0 := nonpositive
      omega
    subst zero
    decide
  | negSucc n =>
    simp only [ofInt]
    omega

theorem toInt64_of_lt {a : Int} (least : -2 ^ 63 ≤ a) (bound : a < 2 ^ 63) : toInt64 a = a := by
  rw [toInt64, if_pos ⟨least, bound⟩]

end Binary64
