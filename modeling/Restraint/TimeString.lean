import Restraint.Lib.CString
import Restraint.Lib.Scanf
import Mathlib.Data.List.TakeWhile

/-! Times in parameters and metadata: `parse_time_string` of `utils.c`, and exactly which strings it
reads as the time they are written as. What a string denotes is written down as a grammar with an
exact product. The code computes modulo `2 ^ 64`, reads a sign, and leaves a variable unset where it
reads nothing; the condition says when none of this shows. -/
namespace Restraint.TimeString
open CString (Text)
open Decimal (isBlank)
open Scanf (Sign Conversion)

/-- The codes of the errors of parsing. -/
inductive ErrorCode where
  /-- `RESTRAINT_PARSE_ERROR_BAD_SYNTAX`. -/
  | badSyntax
  /-- `RESTRAINT_OPEN`. -/
  | restraintOpen
  /-- `g_file_error_from_errno`. -/
  | file (errno : Nat)
  deriving DecidableEq

structure GError where
  code : ErrorCode
  message : Text
  deriving DecidableEq

/-- The `switch` of `parse_time_string`, in 64 bits. -/
def inSeconds (timeValue : Nat) (timeUnit : Char) : Nat × Option GError :=
  match timeUnit with
  | 'D' => (timeValue * 24 * 60 * 60 % 2 ^ 64, none)
  | 'H' => (timeValue * 60 * 60 % 2 ^ 64, none)
  | 'M' => (timeValue * 60 % 2 ^ 64, none)
  | 'S' => (timeValue, none)
  | c => (0, some ⟨.badSyntax, "Unrecognised time unit '".toList ++ [c] ++ "'".toList⟩)

/-- `parse_time_string`, where `timeUnit` is what the variable holds before `sscanf` stores
something in it. `NULL` and the empty string are turned away without an error. -/
def parseTimeString (timeUnit : Char) : Option Text → Nat × Option GError
  | none | some [] => (0, none)
  | some timeString =>
    let failed := (0, some ⟨.badSyntax, "Failed to parse time string: ".toList ++ timeString⟩)
    match Scanf.unsigned timeString with
    -- sscanf returns EOF, which is not 0, and has stored nothing
    | .inputFailure => inSeconds 0 timeUnit.toUpper
    | .matchingFailure => failed
    | .stored (timeValue, overflow) rest =>
      match Scanf.char rest with
      -- an overflow is still in errno
      | .stored c _ => if overflow then failed else inSeconds timeValue c.toUpper
      -- the C library has put back the errno of the read that met the end, which is 0
      | _ => inSeconds timeValue 'S'

/-- The seconds of a unit. -/
def unitSeconds (c : Char) : Option Nat :=
  match c.toUpper with
  | 'D' => some (24 * 60 * 60)
  | 'H' => some (60 * 60)
  | 'M' => some 60
  | 'S' => some 1
  | _ => none

/-- The end of a string of seconds, or a unit and whatever comes behind it. -/
def Ending (tail : Text) (unit : Nat) : Prop :=
  tail = [] ∧ unit = 1 ∨ ∃ c rest, tail = c :: rest ∧ unitSeconds c = some unit

/-- The string is a number, behind blanks and a sign, and what gives the unit behind blanks. -/
def Written (s : Text) (negative : Bool) (n : Nat) (tail : Text) (unit : Nat) : Prop :=
  ∃ lead minus digits gap, s = lead ++ (minus ++ (digits ++ (gap ++ tail))) ∧
    (∀ c ∈ lead, isBlank c = true) ∧ Sign negative minus ∧
    digits ≠ [] ∧ (∀ c ∈ digits, c.isDigit = true) ∧ n = Nat.ofDigitChars 10 digits 0 ∧
    (∀ c ∈ gap, isBlank c = true) ∧ Ending tail unit

/-- The time that a string denotes: a number without a minus, times its unit, in 64 bits. -/
def Denotes (s : Text) (time : Nat) : Prop :=
  ∃ n tail unit, Written s false n tail unit ∧ time = n * unit ∧ time < 2 ^ 64

/-- The string is read as the time it denotes, or else turned down with an error. -/
def ReadRight (timeUnit : Char) (s : Text) : Prop :=
  (∀ time, Denotes s time → parseTimeString timeUnit (some s) = (time, none)) ∧
    ((∀ time, ¬Denotes s time) → ∃ error, parseTimeString timeUnit (some s) = (0, some error))

/-- The string is not only blanks, and a number in it that has 64 bits, or that stands alone, has no
minus and does not overflow with its unit. -/
def Tame (s : Text) : Prop :=
  (∃ c ∈ s, isBlank c = false) ∧
    ∀ negative n tail unit, Written s negative n tail unit → n < 2 ^ 64 ∨ tail = [] →
      negative = false ∧ n * unit < 2 ^ 64

section
variable {s tail tail' : Text} {negative negative' : Bool} {n n' unit unit' time : Nat} {timeUnit c : Char}

/-- A unit is neither a digit nor a blank. -/
theorem unitSeconds_stops (known : unitSeconds c = some unit) :
    c.isDigit = false ∧ isBlank c = false := by
  refine ⟨Bool.eq_false_iff.mpr fun digit => ?_, Bool.eq_false_iff.mpr fun blank => ?_⟩
  · have upper : c.toUpper = c := by
      apply dif_neg
      intro lower
      simp only [Char.isDigit, Bool.and_eq_true, decide_eq_true_eq] at digit
      exact absurd (UInt32.le_trans lower.1 digit.2) (by decide)
    unfold unitSeconds at known
    rw [upper] at known
    split at known <;> first | exact absurd digit (by decide) | cases known
  · simp only [isBlank, Bool.or_eq_true, beq_iff_eq] at blank
    rcases blank with ((((rfl | rfl) | rfl) | rfl) | rfl) | rfl <;> simp [unitSeconds] at known

private theorem unitSeconds_pos (known : unitSeconds c = some unit) : 0 < unit := by
  unfold unitSeconds at known
  split at known <;> cases known <;> decide

theorem Ending.pos (ending : Ending tail unit) : 0 < unit := by
  obtain ⟨-, rfl⟩ | ⟨c, rest, -, known⟩ := ending
  · exact Nat.one_pos
  · exact unitSeconds_pos known

/-- What follows a number is no digit, and behind the blanks no blank. -/
theorem Ending.stops (ending : Ending tail unit) :
    ∀ c ∈ tail.head?, c.isDigit = false ∧ isBlank c = false := by
  rintro c inside
  obtain ⟨rfl, -⟩ | ⟨c', rest, rfl, known⟩ := ending
  · cases inside
  · cases inside
    exact unitSeconds_stops known

/-- The `switch` multiplies with the seconds of the unit. -/
theorem inSeconds_toUpper (small : n < 2 ^ 64) (known : unitSeconds c = some unit) :
    inSeconds n c.toUpper = (n * unit % 2 ^ 64, none) := by
  unfold unitSeconds at known
  unfold inSeconds
  split at known
  · cases known
    simp only [Nat.mul_assoc]
  · cases known
    simp only [Nat.mul_assoc]
  · cases known
    rfl
  · cases known
    rw [Nat.mul_one, Nat.mod_eq_of_lt small]
  · cases known

private theorem inSeconds_unknown (unknown : unitSeconds c = none) :
    ∃ error, inSeconds n c.toUpper = (0, some error) := by
  unfold unitSeconds at unknown
  unfold inSeconds
  split at unknown <;> first | exact ⟨_, rfl⟩ | cases unknown

/-- The gap behind a number and the unit. -/
theorem stops_digit {gap : Text} (blanks : ∀ c ∈ gap, isBlank c = true)
    (stops : ∀ c ∈ tail.head?, c.isDigit = false) :
    ∀ c ∈ (gap ++ tail).head?, c.isDigit = false := by
  cases gap with
  | nil => exact stops
  | cons d gap =>
    rintro c ⟨⟩
    apply Bool.eq_false_iff.mpr
    intro digit
    have blank := blanks d List.mem_cons_self
    rw [Decimal.isBlank_of_isDigit digit] at blank
    cases blank

/-- A number with its unit, as the code reads it. -/
theorem parseTimeString_written (written : Written s negative n tail unit) :
    parseTimeString timeUnit (some s) =
      if n < 2 ^ 64 then ((if negative then (2 ^ 64 - n) % 2 ^ 64 else n) * unit % 2 ^ 64, none)
      else if tail = [] then (2 ^ 64 - 1, none)
      else (0, some ⟨.badSyntax, "Failed to parse time string: ".toList ++ s⟩) := by
  obtain ⟨lead, minus, digits, gap, shape, blanks, signed, nonempty, all, rfl, gaps, ending⟩ := written
  have stops := ending.stops
  have there : ∃ c rest, s = c :: rest := List.exists_cons_of_ne_nil (by simp [shape, nonempty])
  have behind : ∀ c ∈ (gap ++ tail).head?, c.isDigit = false :=
    stops_digit gaps fun c inside => (stops c inside).1
  have read := Scanf.unsigned_append blanks signed nonempty all behind
  rw [← shape] at read
  have unblanked : (gap ++ tail).dropWhile isBlank = tail :=
    Scanf.dropWhile_blanks gaps fun c inside => (stops c inside).2
  obtain ⟨c, rest, rfl⟩ := there
  simp only [parseTimeString, read]
  by_cases small : Nat.ofDigitChars 10 digits 0 < 2 ^ 64
  · have fits : (if negative then (2 ^ 64 - Nat.ofDigitChars 10 digits 0) % 2 ^ 64
        else Nat.ofDigitChars 10 digits 0) < 2 ^ 64 := by
      split
      · exact Nat.mod_lt _ (by decide)
      · exact small
    simp only [if_pos small, if_neg (Nat.not_le.mpr small), Scanf.char, unblanked]
    obtain ⟨rfl, rfl⟩ | ⟨c', rest', rfl, known⟩ := ending
    · rw [Nat.mul_one, Nat.mod_eq_of_lt fits]
      rfl
    · exact inSeconds_toUpper fits known
  · simp only [if_neg small, if_pos (Nat.not_lt.mp small), Scanf.char, unblanked]
    cases tail with
    | nil => rfl
    | cons d tail => rfl

theorem Written.pos (written : Written s negative n tail unit) : 0 < unit := by
  obtain ⟨lead, minus, digits, gap, -, -, -, -, -, -, -, ending⟩ := written
  exact ending.pos

/-- A string has one reading at most. -/
theorem Written.unique (written : Written s negative n tail unit)
    (written' : Written s negative' n' tail' unit') :
    negative = negative' ∧ n = n' ∧ tail = tail' ∧ unit = unit' := by
  obtain ⟨lead, minus, digits, gap, shape, blanks, signed, nonempty, all, rfl, gaps, ending⟩ :=
    written
  obtain ⟨lead', minus', digits', gap', shape', blanks', signed', nonempty', all', rfl, gaps',
    ending'⟩ := written'
  have stops := stops_digit gaps fun c inside => (ending.stops c inside).1
  have stops' := stops_digit gaps' fun c inside => (ending'.stops c inside).1
  obtain ⟨signs, read, -⟩ := Scanf.digits_append blanks signed nonempty all stops
  obtain ⟨signs', read', -⟩ := Scanf.digits_append blanks' signed' nonempty' all' stops'
  rw [← shape] at signs read
  rw [← shape'] at signs' read'
  have both := signs.symm.trans signs'
  have same := read.symm.trans read'
  simp only [Prod.mk.injEq] at both
  refine ⟨both.1, by rw [same], ?_⟩
  have rest := both.2
  rw [same, List.append_cancel_left_eq] at rest
  have tails : tail = tail' := by
    rw [← Scanf.dropWhile_blanks gaps fun c inside => (ending.stops c inside).2, rest,
      Scanf.dropWhile_blanks gaps' fun c inside => (ending'.stops c inside).2]
  subst tails
  refine ⟨rfl, ?_⟩
  obtain ⟨rfl, rfl⟩ | ⟨c, rest, rfl, known⟩ := ending <;>
    obtain ⟨other, rfl⟩ | ⟨c', rest', other, known'⟩ := ending'
  · rfl
  · cases other
  · cases other
  · cases other
    exact Option.some.inj (known.symm.trans known')

/-- A string that is not written as a number with a unit is turned down, unless it is blank. -/
theorem parseTimeString_unwritten (visible : ∃ c ∈ s, isBlank c = false)
    (unwritten : ∀ negative n tail unit, ¬Written s negative n tail unit) :
    ∃ error, parseTimeString timeUnit (some s) = (0, some error) := by
  obtain ⟨c, rest, rfl⟩ : ∃ c rest, s = c :: rest := by
    obtain ⟨c, member, -⟩ := visible
    exact List.exists_cons_of_ne_nil (List.ne_nil_of_mem member)
  have body : (c :: rest).dropWhile isBlank ≠ [] := by
    obtain ⟨d, member, other⟩ := visible
    intro none
    have blank := List.dropWhile_eq_nil_iff.mp none d member
    rw [other] at blank
    cases blank
  by_cases numbered : Scanf.digits (c :: rest) = []
  · have failed : Scanf.unsigned (c :: rest) = .matchingFailure := by
      rw [Scanf.unsigned, if_neg body, if_pos numbered]
    simp only [parseTimeString, failed]
    exact ⟨_, rfl⟩
  · obtain ⟨lead, minus, negative, behind, shape, blanks, signed, all, stops⟩ :=
      Scanf.exists_append (c :: rest)
    have read := Scanf.unsigned_append blanks signed numbered all stops
    rw [← shape] at read
    have other : ∃ d tail, behind.dropWhile isBlank = d :: tail ∧ unitSeconds d = none := by
      have split : behind.takeWhile isBlank ++ behind.dropWhile isBlank = behind :=
        List.takeWhile_append_dropWhile
      have reading (unit : Nat) (ending : Ending (behind.dropWhile isBlank) unit) : False := by
        refine unwritten negative _ _ unit ⟨lead, minus, _, behind.takeWhile isBlank, ?_, blanks, signed,
          numbered, all, rfl, List.all_eq_true.mp List.all_takeWhile, ending⟩
        rw [split]
        exact shape
      cases ends : behind.dropWhile isBlank with
      | nil => exact (reading 1 (.inl ⟨ends, rfl⟩)).elim
      | cons d tail =>
        cases known : unitSeconds d with
        | none => exact ⟨d, tail, rfl, known⟩
        | some unit => exact (reading unit (.inr ⟨d, tail, ends, known⟩)).elim
    obtain ⟨d, tail, ends, unknown⟩ := other
    simp only [parseTimeString, read]
    by_cases large : 2 ^ 64 ≤ Nat.ofDigitChars 10 (Scanf.digits (c :: rest)) 0
    · simp only [if_pos large, Scanf.char, ends]
      exact ⟨_, rfl⟩
    · simp only [if_neg large, Scanf.char, ends]
      exact inSeconds_unknown unknown

/-- Blanks only leave the unit unset. -/
theorem parseTimeString_blank (nonempty : s ≠ []) (blanks : ∀ c ∈ s, isBlank c = true) :
    parseTimeString timeUnit (some s) = inSeconds 0 timeUnit.toUpper := by
  obtain ⟨c, rest, rfl⟩ := List.exists_cons_of_ne_nil nonempty
  have ended : Scanf.unsigned (c :: rest) = .inputFailure :=
    if_pos (List.dropWhile_eq_nil_iff.mpr blanks)
  simp only [parseTimeString, ended]

/-- A string denotes what it is written as. -/
theorem Denotes.eq (denotes : Denotes s time) (written : Written s negative n tail unit) :
    negative = false ∧ time = n * unit ∧ n * unit < 2 ^ 64 := by
  obtain ⟨n', tail', unit', written', rfl, small⟩ := denotes
  obtain ⟨rfl, rfl, rfl, rfl⟩ := written.unique written'
  exact ⟨rfl, rfl, small⟩

/-- Blanks denote nothing, but are read as 0 when the variable holds a unit. -/
theorem not_readRight_blank (nonempty : s ≠ []) (blanks : ∀ c ∈ s, isBlank c = true) :
    ¬ReadRight 'S' s := by
  rintro ⟨-, turnsDown⟩
  have undenoted (time : Nat) : ¬Denotes s time := by
    rintro ⟨n, tail, unit, ⟨lead, minus, digits, gap, rfl, -, -, some, all, -⟩, -⟩
    obtain ⟨d, digits, rfl⟩ := List.exists_cons_of_ne_nil some
    have blank := blanks d (by simp)
    rw [Decimal.isBlank_of_isDigit (all d List.mem_cons_self)] at blank
    cases blank
  obtain ⟨error, failed⟩ := turnsDown undenoted
  rw [parseTimeString_blank nonempty blanks] at failed
  cases failed

/-- A number with a minus, or one that overflows, denotes nothing, but is read. -/
theorem not_readRight_wild (written : Written s negative n tail unit) (read : n < 2 ^ 64 ∨ tail = [])
    (wild : ¬(negative = false ∧ n * unit < 2 ^ 64)) : ¬ReadRight timeUnit s := by
  rintro ⟨-, turnsDown⟩
  have undenoted (time : Nat) : ¬Denotes s time := by
    intro denotes
    obtain ⟨plain, -, bound⟩ := denotes.eq written
    exact wild ⟨plain, bound⟩
  obtain ⟨error, failed⟩ := turnsDown undenoted
  have noted := congrArg Prod.snd failed
  rw [parseTimeString_written written] at noted
  by_cases small : n < 2 ^ 64
  · rw [if_pos small] at noted
    cases noted
  · rw [if_neg small, if_pos (read.resolve_left small)] at noted
    cases noted

/-- **A time string is read right whatever the unset variable holds exactly when it is tame**: not
only blanks, no minus before a number, and no overflow. A number of more than 64 bits is turned down
before a unit, but taken for the largest one at the end of the string. -/
theorem parse_time_string_iff (s : Text) (nonempty : s ≠ []) :
    (∀ timeUnit, ReadRight timeUnit s) ↔ Tame s := by
  constructor
  · intro right
    refine ⟨?_, fun negative n tail unit written read => ?_⟩
    · by_contra hidden
      refine not_readRight_blank nonempty (fun c member => ?_) (right 'S')
      by_contra visible
      exact hidden ⟨c, member, Bool.eq_false_iff.mpr visible⟩
    · by_contra wild
      exact not_readRight_wild written read wild (right 'S')
  · rintro ⟨visible, tame⟩ timeUnit
    by_cases reads : ∃ negative n tail unit, Written s negative n tail unit
    · obtain ⟨negative, n, tail, unit, written⟩ := reads
      have enough : n ≤ n * unit := Nat.le_mul_of_pos_right n written.pos
      rw [ReadRight, parseTimeString_written written]
      by_cases small : n < 2 ^ 64
      · obtain ⟨rfl, fits⟩ := tame negative n tail unit written (.inl small)
        rw [if_pos small, if_neg Bool.false_ne_true, Nat.mod_eq_of_lt fits]
        refine ⟨fun time denotes => ?_, fun undenoted => ?_⟩
        · rw [(denotes.eq written).2.1]
        · exact absurd ⟨n, tail, unit, written, rfl, fits⟩ (undenoted (n * unit))
      · have followed : tail ≠ [] := by
          intro alone
          have bound := (tame negative n tail unit written (.inr alone)).2
          omega
        rw [if_neg small, if_neg followed]
        refine ⟨fun time denotes => ?_, fun _ => ⟨_, rfl⟩⟩
        have bound := (denotes.eq written).2.2
        omega
    · have unwritten (negative n tail unit) : ¬Written s negative n tail unit :=
        fun written => reads ⟨negative, n, tail, unit, written⟩
      refine ⟨fun time denotes => ?_, fun _ => parseTimeString_unwritten visible unwritten⟩
      obtain ⟨n, tail, unit, written, -⟩ := denotes
      exact absurd written (unwritten false n tail unit)

end

private theorem written_hours : Written "30 h".toList false 30 ['h'] 3600 := by
  refine ⟨[], [], "30".toList, [' '], by decide, by simp, .inl rfl, by decide,
    List.all_eq_true.mp rfl, by decide, List.all_eq_true.mp rfl, .inr ⟨'h', [], rfl, by decide⟩⟩

theorem parse_time_string_iff_hours : ReadRight 'S' "30 h".toList := by
  refine (parse_time_string_iff _ (by decide)).mpr ⟨⟨'3', by decide, by decide⟩, ?_⟩ 'S'
  intro negative n tail unit written _
  obtain ⟨rfl, rfl, rfl, rfl⟩ := written.unique written_hours
  decide

private theorem written_minus : Written "-5".toList true 5 [] 1 :=
  ⟨[], ['-'], ['5'], [], by decide, by simp, rfl, by decide, List.all_eq_true.mp rfl, by decide,
    by simp, .inl ⟨rfl, rfl⟩⟩

private theorem written_days :
    Written "999999999999999999d".toList false 999999999999999999 ['d'] 86400 :=
  ⟨[], [], "999999999999999999".toList, [], by decide, by simp, .inl rfl, by decide,
    List.all_eq_true.mp rfl, by decide, by simp, .inr ⟨'d', [], rfl, by decide⟩⟩

private theorem written_large : Written "18446744073709551616".toList false (2 ^ 64) [] 1 :=
  ⟨[], [], "18446744073709551616".toList, [], by decide, by simp, .inl rfl, by decide,
    List.all_eq_true.mp rfl, by decide, by simp, .inl ⟨rfl, rfl⟩⟩

/-- A minus wraps, a large number of days overflows, a larger number alone becomes the largest, and a
blank is a time if the variable happens to hold a unit. -/
theorem parse_time_string_wrong :
    (parseTimeString 'S' (some "-5".toList) = (18446744073709551611, none) ∧
      ¬ReadRight 'S' "-5".toList) ∧
    (parseTimeString 'S' (some "999999999999999999d".toList) = (13897502818169695872, none) ∧
      ¬ReadRight 'S' "999999999999999999d".toList) ∧
    (parseTimeString 'S' (some "18446744073709551616".toList) = (18446744073709551615, none) ∧
      ¬ReadRight 'S' "18446744073709551616".toList) ∧
    parseTimeString 'S' (some " ".toList) = (0, none) ∧ ¬ReadRight 'S' " ".toList := by
  refine ⟨⟨by decide, not_readRight_wild written_minus (.inr rfl) (by decide)⟩,
    ⟨by decide, not_readRight_wild written_days (.inl (by decide)) (by decide)⟩,
    ⟨by decide, not_readRight_wild written_large (.inr rfl) (by decide)⟩, by decide,
    not_readRight_blank (by decide) (List.all_eq_true.mp rfl)⟩

end Restraint.TimeString
