import Mathlib.Data.List.TakeWhile
import Mathlib.Data.Rat.Cast.Order
import Mathlib.Tactic.FieldSimp
import Mathlib.Tactic.Linarith

/-!
# Durations as text

`to_string` writes the count of a duration and the suffix of its unit. `from_string` tells the unit
from the last characters, hands what precedes the suffix to `std::stoll`, and converts to the unit
that is asked for, rounding up. `stoll` skips white space in front of a number and takes no notice
of what follows it, and neither does `from_string`.

The count of a duration has an integer or a floating-point type. `std::to_string` writes the latter
with six decimals, of which `stoll` reads none. A floating-point format is a parameter: its values
and its rounding.
-/

namespace GeodeNative

open List

/-- Why no duration is returned. -/
inductive DurationError
  | invalidArgument
  | outOfRange
  /-- a count in the conversion does not fit into its type; what then comes out of it, if it is
  defined at all, is not followed -/
  | overflow
  deriving DecidableEq

/-! ## The types of counts -/

inductive Width
  | w8
  | w16
  | w32
  | w64
  deriving DecidableEq

def Width.bits : Width → ℕ
  | w8 => 8
  | w16 => 16
  | w32 => 32
  | w64 => 64

inductive IntType
  | signed (width : Width)
  | unsigned (width : Width)
  deriving DecidableEq

namespace IntType

/-- The integers that a type has. -/
def Holds : IntType → ℤ → Prop
  | signed width, n => -2 ^ (width.bits - 1) ≤ n ∧ n < 2 ^ (width.bits - 1)
  | unsigned width, n => 0 ≤ n ∧ n < 2 ^ width.bits

instance decidableHolds : ∀ (type : IntType) (n : ℤ), Decidable (type.Holds n)
  | signed _, _ => inferInstanceAs (Decidable (_ ∧ _))
  | unsigned _, _ => inferInstanceAs (Decidable (_ ∧ _))

/-- The type in which a count of 64 bits is converted to this one. -/
def common (type : IntType) : IntType :=
  if type = unsigned .w64 then unsigned .w64 else signed .w64

end IntType

/-- What `int64_t` holds. -/
abbrev InInt64 (n : ℤ) : Prop :=
  (IntType.signed .w64).Holds n

/-- A floating-point format: the numbers that it has, and the rounding to them. -/
structure FloatFormat where
  values : ℚ → Prop
  round : ℚ → ℚ
  round_of_values : ∀ x, values x → round x = x
  round_intCast : ∀ n : ℤ, ∃ m : ℤ, round n = m

/-- The type of a count. -/
inductive Rep
  | integer (type : IntType)
  | floating (format : FloatFormat)

/-- A count. -/
inductive Count
  | whole (n : ℤ)
  | finite (x : ℚ)
  | infinite (negative : Bool)
  | nan
  deriving DecidableEq

/-- The count is a value of the type. -/
def Rep.Holds : Rep → Count → Prop
  | integer type, .whole n => type.Holds n
  | integer _, _ => False
  | floating _, .whole _ => False
  | floating format, .finite x => format.values x
  | floating _, .infinite _ | floating _, .nan => True

/-- The count is an integer that 64 bits hold. -/
def Count.IsInt64 : Count → Prop
  | whole n => InInt64 n
  | finite x => ∃ n : ℤ, x = n ∧ InInt64 n
  | infinite _ | nan => False

/-! ## Numbers as text -/

def isSpace (c : Char) : Bool := c.toNat = 32 ∨ 9 ≤ c.toNat ∧ c.toNat ≤ 13

def isSign (c : Char) : Bool := c = '-' ∨ c = '+'

/-- The integer that a sign and digits write. -/
def decimalValue (sign digits : List Char) : ℤ :=
  if sign = ['-'] then -Nat.ofDigitChars 10 digits 0 else Nat.ofDigitChars 10 digits 0

/-- A decimal integer, which may have a sign. -/
structure Numeral where
  sign : List Char
  digits : List Char
  sign_mem : sign ∈ [[], ['-'], ['+']]
  digits_ne_nil : digits ≠ []
  isDigit_of_mem : ∀ c ∈ digits, c.isDigit

namespace Numeral

def text (n : Numeral) : List Char := n.sign ++ n.digits

def value (n : Numeral) : ℤ := decimalValue n.sign n.digits

end Numeral

/-- The parts of a text that `std::stoll` tells apart. -/
structure NumberText where
  space : List Char
  sign : List Char
  digits : List Char
  rest : List Char

def scan (str : List Char) : NumberText :=
  let number := str.dropWhile isSpace
  let sign := (number.take 1).filter isSign
  let digits := number.drop sign.length
  ⟨str.takeWhile isSpace, sign, digits.takeWhile Char.isDigit, digits.dropWhile Char.isDigit⟩

/-- `std::stoll`. -/
def stoll (str : List Char) : Except DurationError ℤ :=
  let n := scan str
  if n.digits = [] then .error .invalidArgument
  else if InInt64 (decimalValue n.sign n.digits) then .ok (decimalValue n.sign n.digits)
  else .error .outOfRange

/-- `std::to_string` of an integer. -/
def decimal (count : ℤ) : List Char :=
  (if count < 0 then ['-'] else []) ++ Nat.toDigits 10 count.natAbs

/-- The number of millionths, rounded to the nearest and to an even one between two. -/
def millionths (x : ℚ) : ℤ :=
  let n := x.num * 1000000
  let floor := n / x.den
  if 2 * (n % x.den) < x.den ∨ (2 * (n % x.den) = x.den ∧ floor % 2 = 0) then floor
  else floor + 1

/-- The last six digits of a number. -/
def sixDigits (m : ℕ) : List Char :=
  [100000, 10000, 1000, 100, 10, 1].map fun p => Nat.digitChar (m / p % 10)

/-- `std::to_string` of a floating-point number. -/
def fixed (x : ℚ) : List Char :=
  (if x.num < 0 then ['-'] else []) ++ Nat.toDigits 10 ((millionths x).natAbs / 1000000) ++
    '.' :: sixDigits (millionths x).natAbs

def Count.toText : Count → List Char
  | whole n => decimal n
  | finite x => fixed x
  | infinite negative => (if negative then ['-'] else []) ++ ['i', 'n', 'f']
  | nan => ['n', 'a', 'n']

/-- A digit is no white space and no sign. -/
lemma isSpace_of_isDigit {c : Char} (h : c.isDigit) : isSpace c = false ∧ isSign c = false := by
  obtain ⟨hlow, hhigh⟩ : 48 ≤ c.toNat ∧ c.toNat ≤ 57 := Char.isDigit_iff_toNat.mp h
  refine ⟨?_, decide_eq_false ?_⟩
  · simp only [isSpace, decide_eq_false_iff_not]
    omega
  · rintro (rfl | rfl) <;> simp at hlow

/-- What precedes the first character that fails a test is split off. -/
lemma span_append {p : Char → Bool} {front back : List Char} (hfront : ∀ c ∈ front, p c)
    (hback : ∀ c ∈ back.head?, ¬ p c) :
    (front ++ back).takeWhile p = front ∧ (front ++ back).dropWhile p = back := by
  rw [takeWhile_append_of_pos hfront, dropWhile_append_of_pos hfront]
  cases back with
  | nil => simp
  | cons c back => simp [hback c rfl]

/-- A number begins with no white space, and its sign is found. -/
lemma Numeral.head_text (n : Numeral) (rest : List Char) :
    (∀ c ∈ (n.text ++ rest).head?, ¬ isSpace c) ∧
      ((n.text ++ rest).take 1).filter isSign = n.sign := by
  obtain ⟨sign, digits, hsign, hne, hdigits⟩ := n
  obtain ⟨c, digits, rfl⟩ := exists_cons_of_ne_nil hne
  obtain ⟨hspace, hnosign⟩ := isSpace_of_isDigit (hdigits c mem_cons_self)
  simp only [mem_cons, not_mem_nil, or_false] at hsign
  rcases hsign with rfl | rfl | rfl
  · simp [Numeral.text, hspace, hnosign]
  · simp [Numeral.text, isSpace, isSign]
  · simp [Numeral.text, isSpace, isSign]

/-- The parts of a text are found where they are. -/
lemma scan_append {space rest : List Char} (n : Numeral) (hspace : ∀ c ∈ space, isSpace c)
    (hrest : ∀ c ∈ rest.head?, ¬ c.isDigit) :
    scan (space ++ n.text ++ rest) = ⟨space, n.sign, n.digits, rest⟩ := by
  obtain ⟨hhead, hsign⟩ := n.head_text rest
  obtain ⟨htakeSpace, hdropSpace⟩ := span_append hspace hhead
  obtain ⟨htake, hdrop⟩ := span_append n.isDigit_of_mem hrest
  have hdigits : (n.text ++ rest).drop n.sign.length = n.digits ++ rest := by
    rw [Numeral.text, append_assoc, drop_left]
  rw [append_assoc]
  simp only [scan, htakeSpace, hdropSpace, hsign, hdigits, htake, hdrop]

/-- The sign that is looked for at the front of a number. -/
lemma sign_spec (number : List Char) :
    (number.take 1).filter isSign ∈ [[], ['-'], ['+']] ∧
      (number.take 1).filter isSign ++ number.drop ((number.take 1).filter isSign).length =
        number := by
  cases number with
  | nil => simp
  | cons c number =>
    cases hc : isSign c with
    | true =>
      have hsign : c = '-' ∨ c = '+' := by simpa [isSign] using hc
      rcases hsign with rfl | rfl <;> simp [isSign]
    | false => simp [filter, hc]

/-- The parts that are found make up the text. -/
lemma scan_spec {text : List Char} (h : (scan text).digits ≠ []) :
    ∃ n : Numeral, n.sign = (scan text).sign ∧ n.digits = (scan text).digits ∧
      text = (scan text).space ++ n.text ++ (scan text).rest ∧
      (∀ c ∈ (scan text).space, isSpace c) ∧ ∀ c ∈ (scan text).rest.head?, ¬ c.isDigit := by
  obtain ⟨hmem, hsign⟩ := sign_spec (text.dropWhile isSpace)
  refine ⟨⟨(scan text).sign, (scan text).digits, hmem, h, fun c => mem_takeWhile_imp⟩, rfl, rfl, ?_,
    fun c => mem_takeWhile_imp, fun c hc hdigit => ?_⟩
  · simp only [Numeral.text, scan, append_assoc, takeWhile_append_dropWhile, hsign]
  · have hnot := head?_dropWhile_not Char.isDigit
      ((text.dropWhile isSpace).drop (scan text).sign.length)
    rw [show ((text.dropWhile isSpace).drop (scan text).sign.length).dropWhile Char.isDigit =
      (scan text).rest from rfl, hc] at hnot
    simp [hdigit] at hnot

/-- A number between white space and other characters is read if it fits into 64 bits. -/
lemma stoll_append {space rest : List Char} (n : Numeral) (hspace : ∀ c ∈ space, isSpace c)
    (hrest : ∀ c ∈ rest.head?, ¬ c.isDigit) :
    stoll (space ++ n.text ++ rest) =
      if InInt64 n.value then .ok n.value else .error .outOfRange := by
  simp only [stoll, scan_append n hspace hrest, n.digits_ne_nil, if_false]
  rfl

lemma sign_mem_of_neg (count : ℤ) :
    (if count < 0 then ['-'] else []) ∈ [[], ['-'], ['+']] := by
  split_ifs <;> simp

lemma isDigit_of_mem_toDigits {m : ℕ} : ∀ c ∈ Nat.toDigits 10 m, c.isDigit :=
  fun _ => Nat.isDigit_of_mem_toDigits (by decide) (by decide)

/-- What `to_string` writes for an integer, as a numeral. -/
def numeralOf (count : ℤ) : Numeral where
  sign := if count < 0 then ['-'] else []
  digits := Nat.toDigits 10 count.natAbs
  sign_mem := sign_mem_of_neg count
  digits_ne_nil := Nat.toDigits_ne_nil
  isDigit_of_mem := isDigit_of_mem_toDigits

lemma value_numeralOf (count : ℤ) : (numeralOf count).value = count := by
  have hvalue : decimalValue (if count < 0 then ['-'] else []) (Nat.toDigits 10 count.natAbs) =
      count := by
    rw [decimalValue, Nat.ofDigitChars_ten_toDigits]
    by_cases hneg : count < 0
    · rw [if_pos hneg, if_pos rfl]
      omega
    · rw [if_neg hneg, if_neg (by simp)]
      omega
  exact hvalue

/-- A floating-point number without a fraction is written as an integer, a point and zeros. -/
lemma fixed_intCast (n : ℤ) :
    fixed n = (numeralOf n).text ++ '.' :: replicate 6 '0' := by
  have hmillionths : millionths n = n * 1000000 := by simp [millionths]
  have hwhole : (n * 1000000).natAbs / 1000000 = n.natAbs := by omega
  have hzero : sixDigits (n * 1000000).natAbs = replicate 6 '0' := by
    have hdigit : ∀ p ∈ [100000, 10000, 1000, 100, 10, 1], (n * 1000000).natAbs / p % 10 = 0 := by
      simp only [mem_cons, not_mem_nil, or_false, forall_eq_or_imp, forall_eq]
      omega
    rw [sixDigits, map_congr_left fun p hp => congrArg Nat.digitChar (hdigit p hp)]
    rfl
  rw [fixed, hmillionths, hwhole, hzero]
  rfl

/-- The text of a floating-point number ends with a digit. -/
lemma exists_fixed_eq (x : ℚ) : ∃ front c, fixed x = front ++ [c] ∧ c.isDigit := by
  have hsix (m : ℕ) : ∃ front c, sixDigits m = front ++ [c] ∧ c.isDigit := by
    refine ⟨[100000, 10000, 1000, 100, 10].map fun p => Nat.digitChar (m / p % 10),
      Nat.digitChar (m / 1 % 10), rfl, ?_⟩
    rw [Nat.isDigit_digitChar, decide_eq_true_iff]
    omega
  obtain ⟨front, c, heq, hdigit⟩ := hsix (millionths x).natAbs
  rw [fixed, heq, ← cons_append, ← append_assoc]
  exact ⟨_, c, rfl, hdigit⟩

/-! ## The conversions -/

inductive TimeUnit
  | hours
  | minutes
  | seconds
  | milliseconds
  | microseconds
  | nanoseconds
  deriving DecidableEq

namespace TimeUnit

/-- In nanoseconds. -/
def period : TimeUnit → ℤ
  | hours => 3600000000000
  | minutes => 60000000000
  | seconds => 1000000000
  | milliseconds => 1000000
  | microseconds => 1000
  | nanoseconds => 1

def suffix : TimeUnit → List Char
  | hours => ['h']
  | minutes => ['m', 'i', 'n']
  | seconds => ['s']
  | milliseconds => ['m', 's']
  | microseconds => ['u', 's']
  | nanoseconds => ['n', 's']

/-- `to_string` of a duration of this unit. -/
def toText (unit : TimeUnit) (count : Count) : List Char :=
  count.toText ++ unit.suffix

/-- `duration_cast` to a unit, over the integers: towards zero. -/
def durationCast (unit target : TimeUnit) (count : ℤ) : ℤ :=
  if target.period ≤ unit.period then count * (unit.period / target.period)
  else count.tdiv (target.period / unit.period)

/-- `_ceil`, over the integers. -/
def ceil (unit target : TimeUnit) (count : ℤ) : ℤ :=
  let other := unit.durationCast target count
  if other * target.period < count * unit.period then other + 1 else other

end TimeUnit

open TimeUnit

/-- The conversion to an integer type: that of hours is an implicit one, without `_ceil`. -/
def IntType.convert (type : IntType) (unit target : TimeUnit) (count : ℤ) :
    Except DurationError ℤ :=
  let other := unit.durationCast target count
  let result := if unit = hours then other else unit.ceil target count
  if type.common.Holds count ∧ type.common.Holds other ∧ type.Holds other ∧ type.Holds result then
    .ok result
  else .error .overflow

namespace FloatFormat

/-- `duration_cast` in a floating-point type, which rounds each number. -/
def durationCast (format : FloatFormat) (unit target : TimeUnit) (count : ℤ) : ℚ :=
  if target.period = unit.period then format.round count
  else if target.period < unit.period then
    format.round (format.round count * format.round (unit.period / target.period : ℤ))
  else format.round (format.round count / format.round (target.period / unit.period : ℤ))

/-- `_ceil` in a floating-point type: durations of two units are compared in the finer one, where
one of a finer target is the cast itself. -/
def ceil (format : FloatFormat) (unit target : TimeUnit) (count : ℤ) : ℚ :=
  let other := format.durationCast unit target count
  let ratio := format.round (target.period / unit.period : ℤ)
  if unit.period < target.period ∧ format.round (other * ratio) < format.round count then
    format.round (other + 1)
  else other

/-- The conversion to a floating-point type. -/
def convert (format : FloatFormat) (unit target : TimeUnit) (count : ℤ) : ℚ :=
  if unit = hours then format.durationCast unit target count else format.ceil unit target count

end FloatFormat

/-- The conversion of the parsed count. -/
def Rep.convert (rep : Rep) (unit target : TimeUnit) (count : ℤ) : Except DurationError Count :=
  match rep with
  | integer type => (type.convert unit target count).map .whole
  | floating format => .ok (.finite (format.convert unit target count))

namespace TimeUnit

/-- The unit that the last characters tell, and the text in front of them. -/
def split (string : List Char) : Option (TimeUnit × List Char) :=
  match string.reverse with
  | 's' :: 'm' :: text => some (milliseconds, text.reverse)
  | 's' :: 'u' :: text => some (microseconds, text.reverse)
  | 's' :: 'n' :: text => some (nanoseconds, text.reverse)
  | 's' :: text => some (seconds, text.reverse)
  | 'h' :: text => some (hours, text.reverse)
  | 'n' :: 'i' :: 'm' :: text => some (minutes, text.reverse)
  | _ => none

/-- `from_string` to a unit and a type of its counts. -/
def fromString (target : TimeUnit) (rep : Rep) (string : List Char) : Except DurationError Count :=
  match split string with
  | none => .error .invalidArgument
  | some (unit, text) => (stoll text).bind (rep.convert unit target)

variable {unit target : TimeUnit} {rep : Rep} {string text : List Char} {count : ℤ} {n : Numeral}

/-- No exception is thrown. -/
def Accepts (target : TimeUnit) (rep : Rep) (string : List Char) : Prop :=
  target.fromString rep string ≠ .error .invalidArgument ∧
    target.fromString rep string ≠ .error .outOfRange

/-- A decimal integer that is followed by a suffix. -/
def IsLiteral (string : List Char) : Prop :=
  ∃ (n : Numeral) (unit : TimeUnit), string = n.text ++ unit.suffix

/-- A literal whose integer does not fit into 64 bits. -/
def Overlong (string : List Char) : Prop :=
  ∃ (n : Numeral) (unit : TimeUnit), string = n.text ++ unit.suffix ∧ ¬ InInt64 n.value

/-- An integer of 64 bits with white space in front of it, or with more characters behind its
digits than the suffix at the end of the string. -/
def Padded (string : List Char) : Prop :=
  ∃ (space : List Char) (n : Numeral) (rest : List Char), string = space ++ n.text ++ rest ∧
    (∀ c ∈ space, isSpace c) ∧ (∀ c ∈ rest.head?, ¬ c.isDigit) ∧
    (∃ unit : TimeUnit, unit.suffix <:+ rest) ∧ InInt64 n.value ∧
    (space ≠ [] ∨ ∀ unit : TimeUnit, rest ≠ unit.suffix)

/-! ## The unit -/

/-- The suffix and the text in front of it make up the string. -/
lemma split_eq_some (h : split string = some (unit, text)) : string = text ++ unit.suffix := by
  unfold split at h
  rw [← reverse_inj, reverse_append]
  split at h <;> cases h <;> simp_all [suffix]

/-- A string with a suffix at its end is split. -/
lemma split_append_suffix (front : List Char) (unit : TimeUnit) :
    ∃ unit' text, split (front ++ unit.suffix) = some (unit', text) := by
  cases unit with
  | seconds =>
    -- a letter in front may tell another unit
    simp only [split, suffix, reverse_append, reverse_cons, reverse_nil, nil_append, cons_append]
    split <;> simp_all
  | _ => simp [split, suffix]

/-- No letter of a suffix is a digit. -/
lemma not_isDigit_of_mem_suffix {c : Char} (h : c ∈ unit.suffix) : ¬ c.isDigit := by
  cases unit <;> simp only [suffix, mem_cons, not_mem_nil, or_false] at h <;>
    rcases h with rfl | rfl | rfl <;> decide

/-- The suffix that is found stands behind the digits. -/
lemma suffix_of_append_eq {space rest : List Char}
    (h : text ++ unit.suffix = space ++ n.text ++ rest) :
    ∃ between, text = space ++ n.text ++ between ∧ rest = between ++ unit.suffix := by
  rcases append_eq_append_iff.mp h with ⟨between, hfront, hback⟩ | ⟨between, hfront, hback⟩
  · -- the suffix would begin within the number
    rcases eq_nil_or_concat between with rfl | ⟨between, c, rfl⟩
    · exact ⟨[], by simpa using hfront.symm, by simpa using hback.symm⟩
    · have hc : c ∈ unit.suffix := by simp [hback]
      have hlast : (space ++ n.text).getLast? = some c := by simp [hfront]
      have hdigit : c ∈ n.digits := by
        rw [Numeral.text, ← append_assoc, getLast?_append_of_ne_nil _ n.digits_ne_nil] at hlast
        exact mem_of_getLast? hlast
      exact absurd (n.isDigit_of_mem c hdigit) (not_isDigit_of_mem_suffix hc)
  · exact ⟨between, hfront, hback⟩

/-- A suffix begins with no digit. -/
lemma head_suffix (unit : TimeUnit) : ∀ c ∈ unit.suffix.head?, ¬ c.isDigit :=
  fun _ hc => not_isDigit_of_mem_suffix (mem_of_mem_head? hc)

/-- Nor do other characters that a suffix follows, unless they did before. -/
lemma head_append_suffix {rest : List Char} (hrest : ∀ c ∈ rest.head?, ¬ c.isDigit)
    (unit : TimeUnit) : ∀ c ∈ (rest ++ unit.suffix).head?, ¬ c.isDigit := by
  cases rest with
  | nil => exact head_suffix unit
  | cons c rest => simpa using hrest

/-- A string with a number and a suffix behind it is split behind the number. -/
lemma split_append {space rest : List Char} (n : Numeral)
    (hrest : ∀ c ∈ rest.head?, ¬ c.isDigit) (hsuffix : ∃ unit : TimeUnit, unit.suffix <:+ rest) :
    ∃ unit between, split (space ++ n.text ++ rest) = some (unit, space ++ n.text ++ between) ∧
      rest = between ++ unit.suffix ∧ ∀ c ∈ between.head?, ¬ c.isDigit := by
  obtain ⟨unit, front, rfl⟩ := hsuffix
  obtain ⟨unit', text, hsplit⟩ := split_append_suffix (space ++ n.text ++ front) unit
  rw [append_assoc _ front] at hsplit
  obtain ⟨between, rfl, hback⟩ := suffix_of_append_eq (split_eq_some hsplit).symm
  refine ⟨unit', between, hsplit, hback, fun c hc => hrest c ?_⟩
  rw [hback]
  exact mem_head?_append_of_mem_head? hc

/-- A digit in front of a suffix is no letter of a longer one. -/
lemma split_of_isDigit {c : Char} (front : List Char) (hdigit : c.isDigit) (unit : TimeUnit) :
    split (front ++ [c] ++ unit.suffix) = some (unit, front ++ [c]) := by
  have hc : c.toNat ≤ 57 := (Char.isDigit_iff_toNat.mp hdigit).2
  cases unit with
  | seconds =>
    have hne : c ≠ 'm' ∧ c ≠ 'u' ∧ c ≠ 'n' := by
      refine ⟨?_, ?_, ?_⟩ <;> rintro rfl <;> simp at hc
    simp only [split, suffix, reverse_append, reverse_cons, reverse_nil, nil_append, cons_append]
    split <;> simp_all
  | _ => simp [split, suffix]

/-- In a literal the suffix is that of the unit. -/
lemma split_literal (n : Numeral) (unit : TimeUnit) :
    split (n.text ++ unit.suffix) = some (unit, n.text) := by
  obtain ⟨front, c, hdigits⟩ := (eq_nil_or_concat n.digits).resolve_left n.digits_ne_nil
  have hc : c.isDigit := n.isDigit_of_mem c (by simp [hdigits])
  rw [Numeral.text, hdigits, concat_eq_append, ← append_assoc]
  exact split_of_isDigit _ hc unit

/-! ## What is accepted -/

/-- The conversion throws nothing. -/
lemma convert_ne (rep : Rep) (unit target : TimeUnit) (count : ℤ) :
    rep.convert unit target count ≠ .error .invalidArgument ∧
      rep.convert unit target count ≠ .error .outOfRange := by
  cases rep with
  | integer type =>
    simp only [Rep.convert, IntType.convert]
    split_ifs <;> simp [Except.map]
  | floating format => simp [Rep.convert]

/-- What precedes the suffix decides. -/
lemma accepts_iff_of_split (h : split string = some (unit, text)) :
    target.Accepts rep string ↔ ∃ count, stoll text = .ok count := by
  have hstring : target.fromString rep string = (stoll text).bind (rep.convert unit target) := by
    rw [fromString, h]
  have hstoll : ∀ e, stoll text = .error e → e = .invalidArgument ∨ e = .outOfRange := by
    intro e he
    unfold stoll at he
    dsimp only at he
    split_ifs at he <;> cases he <;> simp
  unfold Accepts
  rw [hstring]
  cases hcount : stoll text with
  | error e => rcases hstoll e hcount with rfl | rfl <;> simp [Except.bind]
  | ok count => simpa [Except.bind] using convert_ne rep unit target count

/-- A string with a number and a suffix behind it is accepted if the number fits into 64 bits. -/
lemma accepts_append_iff {space rest : List Char} (n : Numeral) (hspace : ∀ c ∈ space, isSpace c)
    (hrest : ∀ c ∈ rest.head?, ¬ c.isDigit) (hsuffix : ∃ unit : TimeUnit, unit.suffix <:+ rest) :
    target.Accepts rep (space ++ n.text ++ rest) ↔ InInt64 n.value := by
  obtain ⟨unit, between, hsplit, -, hbetween⟩ := split_append n hrest hsuffix
  rw [accepts_iff_of_split hsplit, stoll_append n hspace hbetween]
  split_ifs with hvalue <;> simp [hvalue]

/-- A literal is accepted if its number fits into 64 bits. -/
lemma accepts_literal_iff (n : Numeral) (unit : TimeUnit) :
    target.Accepts rep (n.text ++ unit.suffix) ↔ InInt64 n.value := by
  have haccepts : target.Accepts rep ([] ++ n.text ++ unit.suffix) ↔ InInt64 n.value :=
    accepts_append_iff n (by simp) (head_suffix unit) ⟨unit, suffix_rfl⟩
  rwa [nil_append] at haccepts

/-- Every string that is accepted has a number and a suffix behind it. -/
lemma exists_of_accepts (h : target.Accepts rep string) :
    ∃ (space : List Char) (n : Numeral) (rest : List Char), string = space ++ n.text ++ rest ∧
      (∀ c ∈ space, isSpace c) ∧ (∀ c ∈ rest.head?, ¬ c.isDigit) ∧
      (∃ unit : TimeUnit, unit.suffix <:+ rest) ∧ InInt64 n.value := by
  cases hsplit : split string with
  | none => exact absurd (by simp [fromString, hsplit]) h.1
  | some parts =>
    obtain ⟨unit, text⟩ := parts
    obtain ⟨count, hcount⟩ := (accepts_iff_of_split hsplit).mp h
    have hdigits : (scan text).digits ≠ [] := by
      intro hnil
      simp [stoll, hnil] at hcount
    obtain ⟨n, -, -, htext, hspace, hrest⟩ := scan_spec hdigits
    have hvalue : InInt64 n.value := by
      rw [htext, stoll_append n hspace hrest] at hcount
      split_ifs at hcount with hvalue
      exact hvalue
    refine ⟨_, n, (scan text).rest ++ unit.suffix, ?_, hspace, head_append_suffix hrest unit,
      ⟨unit, suffix_append _ _⟩, hvalue⟩
    rw [split_eq_some hsplit, ← append_assoc, ← htext]

/-- A string is accepted exactly if it is a literal, when and only when it is neither a literal
that is too long nor padded. -/
lemma accepts_iff_isLiteral_iff :
    (target.Accepts rep string ↔ IsLiteral string) ↔ ¬ Overlong string ∧ ¬ Padded string := by
  constructor
  · refine fun h => ⟨?_, ?_⟩
    · rintro ⟨n, unit, rfl, hvalue⟩
      exact hvalue ((accepts_literal_iff n unit).mp (h.mpr ⟨n, unit, rfl⟩))
    · rintro ⟨space, n, rest, rfl, hspace, hrest, hsuffix, hvalue, hpadded⟩
      obtain ⟨n', unit, heq⟩ := h.mp ((accepts_append_iff n hspace hrest hsuffix).mpr hvalue)
      -- the parts of a text are determined by it
      have hscan := scan_append n hspace hrest
      rw [heq, ← nil_append n'.text, scan_append n' (by simp) (head_suffix unit)] at hscan
      obtain ⟨rfl, -, -, rfl⟩ := NumberText.mk.inj hscan
      rcases hpadded with hpadded | hpadded
      · exact hpadded rfl
      · exact hpadded unit rfl
  · rintro ⟨hoverlong, hpadded⟩
    constructor
    · intro h
      obtain ⟨space, n, rest, rfl, hspace, hrest, hsuffix, hvalue⟩ := exists_of_accepts h
      by_contra hliteral
      refine hpadded ⟨space, n, rest, rfl, hspace, hrest, hsuffix, hvalue, ?_⟩
      by_contra! hplain
      obtain ⟨rfl, unit, rfl⟩ := hplain
      exact hliteral ⟨n, unit, by simp⟩
    · rintro ⟨n, unit, rfl⟩
      have hvalue : InInt64 n.value := by
        by_contra hvalue
        exact hoverlong ⟨n, unit, rfl, hvalue⟩
      exact (accepts_literal_iff n unit).mpr hvalue

/-! ## What is returned -/

lemma period_pos (unit : TimeUnit) : 0 < unit.period := by
  cases unit <;> decide

lemma period_dvd (h : unit.period ≤ target.period) : unit.period ∣ target.period := by
  revert h
  cases unit <;> cases target <;> decide

lemma ceil_hours (target : TimeUnit) (count : ℤ) :
    hours.ceil target count = hours.durationCast target count := by
  cases target <;> simp [ceil, durationCast, period] <;> omega

/-- The cast to a coarser unit divides. -/
lemma durationCast_eq (h : unit.period ≤ target.period) (count : ℤ) :
    unit.durationCast target count = count.tdiv (target.period / unit.period) := by
  unfold durationCast
  split_ifs with hle
  · rw [le_antisymm hle h, Int.ediv_self unit.period_pos.ne', mul_one, Int.tdiv_one]
  · rfl

/-- Rounding to a coarser unit gives the least count that is not below. -/
lemma ceil_le_iff (h : unit.period ≤ target.period) (count r : ℤ) :
    unit.ceil target count ≤ r ↔ count * unit.period ≤ r * target.period := by
  obtain ⟨k, hk⟩ := period_dvd h
  have hpos := unit.period_pos
  have hkpos : 0 < k := by nlinarith [target.period_pos]
  have hcast : unit.durationCast target count = count.tdiv k := by
    rw [durationCast_eq h, hk, Int.mul_ediv_cancel_left _ hpos.ne']
  have hscale (a : ℤ) : count * unit.period ≤ a * target.period ↔ count ≤ a * k := by
    rw [hk, mul_left_comm, mul_comm unit.period, mul_le_mul_iff_of_pos_right hpos]
  have hdiv := Int.mul_tdiv_add_tmod count k
  have hlt := Int.tmod_lt_of_pos count hkpos
  have hgt := Int.tmod_lt_of_pos (-count) hkpos
  rw [Int.neg_tmod] at hgt
  simp only [ceil, hcast, ← not_le, hscale]
  split_ifs with hless
  · exact ⟨fun hr => by nlinarith, fun hr => by nlinarith⟩
  · exact ⟨fun hr => by nlinarith, fun hr => by nlinarith⟩

/-- The least count of the target that is not below is that of `_ceil`. -/
lemma isLeast_ceil (h : unit.period ≤ target.period) (count : ℤ) :
    IsLeast {r | count * unit.period ≤ r * target.period} (unit.ceil target count) :=
  ⟨(ceil_le_iff h count _).mp le_rfl, fun r hr => (ceil_le_iff h count r).mpr hr⟩

lemma ceil_self (unit : TimeUnit) (count : ℤ) : unit.ceil unit count = count :=
  le_antisymm ((ceil_le_iff le_rfl count count).mpr le_rfl)
    (le_of_mul_le_mul_right ((ceil_le_iff le_rfl count _).mp le_rfl) unit.period_pos)

/-- The cast to a coarser unit is between zero and the count. -/
lemma durationCast_between (h : unit.period ≤ target.period) (count : ℤ) :
    (0 ≤ unit.durationCast target count ∧ unit.durationCast target count ≤ count) ∨
      (count ≤ unit.durationCast target count ∧ unit.durationCast target count ≤ 0) := by
  have hk : 0 ≤ target.period / unit.period :=
    Int.ediv_nonneg target.period_pos.le unit.period_pos.le
  rw [durationCast_eq h]
  rcases le_total 0 count with hcount | hcount
  · exact .inl ⟨Int.tdiv_nonneg hcount hk, Int.tdiv_le_self _ hcount⟩
  · have hneg : 0 ≤ -count := by omega
    have hle := Int.tdiv_le_self (target.period / unit.period) hneg
    have hge := Int.tdiv_nonneg hneg hk
    rw [Int.neg_tdiv] at hle hge
    exact .inr ⟨by omega, by omega⟩

/-- It is between zero and the rounded count, too. -/
lemma durationCast_between_ceil (h : unit.period ≤ target.period) (count : ℤ) :
    (0 ≤ unit.durationCast target count ∧
        unit.durationCast target count ≤ unit.ceil target count) ∨
      (unit.ceil target count ≤ unit.durationCast target count ∧
        unit.durationCast target count ≤ 0) := by
  rcases durationCast_between h count with ⟨hlow, -⟩ | ⟨hle, hhigh⟩
  · refine .inl ⟨hlow, ?_⟩
    simp only [ceil]
    split_ifs <;> omega
  · -- a cast towards zero is no less than a negative count
    refine .inr ⟨(ceil_le_iff h count _).mpr ?_, hhigh⟩
    obtain ⟨k, hk⟩ := period_dvd h
    have hdiv := Int.mul_tdiv_add_tmod count k
    have hrem := Int.tmod_nonneg k (show 0 ≤ -count by omega)
    rw [Int.neg_tmod] at hrem
    rw [durationCast_eq h, hk, Int.mul_ediv_cancel_left _ unit.period_pos.ne']
    nlinarith [unit.period_pos]

/-- A type has every integer between zero and one of its own. -/
lemma holds_of_between {type : IntType} {a b : ℤ} (ha : type.Holds a)
    (h : (0 ≤ b ∧ b ≤ a) ∨ (a ≤ b ∧ b ≤ 0)) : type.Holds b := by
  cases type with
  | signed width =>
    obtain ⟨hlow, hhigh⟩ := ha
    have hpos : (0 : ℤ) < 2 ^ (width.bits - 1) := by positivity
    constructor <;> omega
  | unsigned width =>
    obtain ⟨hlow, hhigh⟩ := ha
    constructor <;> omega

/-- The conversion to a coarser unit overflows unless the types have the count and the result. -/
lemma convert_eq (type : IntType) (h : unit.period ≤ target.period) (count : ℤ) :
    type.convert unit target count =
      if type.common.Holds count ∧ type.Holds (unit.ceil target count) then
        .ok (unit.ceil target count)
      else .error .overflow := by
  have hresult : (if unit = hours then unit.durationCast target count
      else unit.ceil target count) = unit.ceil target count := by
    split_ifs with hhours
    · rw [hhours, ceil_hours]
    · rfl
  have hholds : (type.common.Holds count ∧ type.common.Holds (unit.durationCast target count) ∧
      type.Holds (unit.durationCast target count) ∧ type.Holds (unit.ceil target count)) ↔
      type.common.Holds count ∧ type.Holds (unit.ceil target count) :=
    ⟨fun ⟨hcount, _, _, hceil⟩ => ⟨hcount, hceil⟩, fun ⟨hcount, hceil⟩ =>
      ⟨hcount, holds_of_between hcount (durationCast_between h count),
        holds_of_between hceil (durationCast_between_ceil h count), hceil⟩⟩
  simp only [IntType.convert, hresult, hholds]

/-- The common type has a count of 64 bits unless it is unsigned and the count negative. -/
lemma common_holds_iff (type : IntType) (hcount : InInt64 count) :
    type.common.Holds count ↔ (type = .unsigned .w64 → 0 ≤ count) := by
  unfold IntType.common
  split_ifs with htype
  · have hlt : count < 2 ^ 64 := lt_trans hcount.2 (by decide)
    exact ⟨fun h _ => h.1, fun h => ⟨h htype, hlt⟩⟩
  · simp [htype, hcount]

/-- What is returned for a literal. -/
lemma fromString_literal (n : Numeral) (hvalue : InInt64 n.value) (target : TimeUnit) (rep : Rep) :
    target.fromString rep (n.text ++ unit.suffix) = rep.convert unit target n.value := by
  have hstoll : stoll ([] ++ n.text ++ []) = .ok n.value := by
    rw [stoll_append n (by simp) (by simp), if_pos hvalue]
  rw [nil_append, append_nil] at hstoll
  simp only [fromString, split_literal, hstoll, Except.bind]

/-- The least count of an integer type that is not below a literal is returned exactly if nothing
overflows. -/
lemma fromString_eq_whole_iff (n : Numeral) (hvalue : InInt64 n.value) (type : IntType)
    (h : unit.period ≤ target.period) {r : ℤ}
    (hr : IsLeast {r | n.value * unit.period ≤ r * target.period} r) :
    target.fromString (.integer type) (n.text ++ unit.suffix) = .ok (.whole r) ↔
      type.Holds r ∧ (type = .unsigned .w64 → 0 ≤ n.value) := by
  obtain rfl := hr.unique (isLeast_ceil h n.value)
  rw [fromString_literal n hvalue, Rep.convert, convert_eq type h, ← common_holds_iff type hvalue]
  split_ifs with hholds
  · simp [Except.map, hholds]
  · simpa [Except.map, and_comm] using hholds

/-- A quotient that a floating-point format has, with its terms, is returned as it is. -/
lemma fromString_eq_finite (n : Numeral) (hvalue : InInt64 n.value) (format : FloatFormat)
    (h : unit.period ≤ target.period) (hcount : format.values n.value)
    (hratio : format.values (target.period / unit.period : ℤ)) {x : ℚ} (hx : format.values x)
    (heq : x * target.period = n.value * unit.period) :
    target.fromString (.floating format) (n.text ++ unit.suffix) = .ok (.finite x) := by
  have hpos : (unit.period : ℚ) ≠ 0 := Int.cast_ne_zero.mpr unit.period_pos.ne'
  rw [fromString_literal n hvalue, Rep.convert]
  congr 2
  by_cases hsame : target.period = unit.period
  · have hxn : x = n.value := by
      rw [hsame] at heq
      exact mul_right_cancel₀ hpos heq
    simp [FloatFormat.convert, FloatFormat.ceil, FloatFormat.durationCast, hsame, hxn,
      format.round_of_values _ hcount]
  · have hlt : unit.period < target.period := lt_of_le_of_ne h (Ne.symm hsame)
    have hhours : unit ≠ hours := by
      rintro rfl
      revert hlt
      cases target <;> decide
    have hk : ((target.period / unit.period : ℤ) : ℚ) = target.period / unit.period :=
      Int.cast_div (period_dvd h) hpos
    have htarget : (target.period : ℚ) ≠ 0 := Int.cast_ne_zero.mpr target.period_pos.ne'
    have hquotient : (n.value : ℚ) / (target.period / unit.period : ℤ) = x := by
      rw [hk, div_div_eq_mul_div, ← heq, mul_div_cancel_right₀ _ htarget]
    have hproduct : x * (target.period / unit.period : ℤ) = n.value := by
      rw [hk, mul_div_assoc', heq, mul_div_cancel_right₀ _ hpos]
    have hcast : format.durationCast unit target n.value = x := by
      rw [FloatFormat.durationCast, if_neg hsame, if_neg hlt.not_gt,
        format.round_of_values _ hcount, format.round_of_values _ hratio, hquotient,
        format.round_of_values _ hx]
    rw [FloatFormat.convert, if_neg hhours, FloatFormat.ceil, hcast,
      format.round_of_values _ hratio, hproduct]
    simp

/-! ## The round trip -/

/-- A floating-point format returns an integer for a duration of the same unit. -/
lemma exists_intCast_of_convert (format : FloatFormat) (unit : TimeUnit) (count : ℤ) :
    ∃ m : ℤ, format.convert unit unit count = m := by
  obtain ⟨m, hm⟩ := format.round_intCast count
  refine ⟨m, ?_⟩
  simp [FloatFormat.convert, FloatFormat.ceil, FloatFormat.durationCast, hm]

/-- What is written for an infinite or undefined count is not read as a number. -/
lemma fromString_infinite (target : TimeUnit) (rep : Rep) {count : Count}
    (h : count = .nan ∨ ∃ negative, count = .infinite negative) :
    target.fromString rep (target.toText count) = .error .invalidArgument := by
  rcases h with rfl | ⟨negative, rfl⟩
  · cases target <;> rfl
  · cases negative <;> cases target <;> rfl

/-- What is read for a floating-point number. -/
lemma fromString_fixed (target : TimeUnit) (format : FloatFormat) (x : ℚ) :
    target.fromString (.floating format) (fixed x ++ target.suffix) =
      (stoll (fixed x)).map fun count => .finite (format.convert target target count) := by
  obtain ⟨front, c, hfixed, hdigit⟩ := exists_fixed_eq x
  rw [fromString, hfixed, split_of_isDigit front hdigit]
  rfl

/-- An integer is read back from the text of a floating-point number. -/
lemma stoll_fixed_intCast (n : ℤ) :
    stoll (fixed n) = if InInt64 n then .ok n else .error .outOfRange := by
  have hstoll : stoll ([] ++ (numeralOf n).text ++ '.' :: replicate 6 '0') = _ :=
    stoll_append (numeralOf n) (by simp) (by simp)
  rw [nil_append, ← fixed_intCast, value_numeralOf] at hstoll
  exact hstoll

/-- A count is read back exactly if it is an integer of 64 bits. -/
lemma fromString_toText_iff (target : TimeUnit) {count : Count} (h : rep.Holds count) :
    target.fromString rep (target.toText count) = .ok count ↔ count.IsInt64 := by
  cases count with
  | nan => simp [fromString_infinite target rep (.inl rfl), Count.IsInt64]
  | infinite negative => simp [fromString_infinite target rep (.inr ⟨_, rfl⟩), Count.IsInt64]
  | whole n =>
    cases rep with
    | floating format => cases h
    | integer type =>
      have hvalue := value_numeralOf n
      constructor
      · intro hok
        have haccepts : target.Accepts (.integer type) ((numeralOf n).text ++ target.suffix) := by
          have hok' : target.fromString (.integer type) ((numeralOf n).text ++ target.suffix) =
            .ok (.whole n) := hok
          simp [Accepts, hok']
        exact hvalue ▸ (accepts_literal_iff _ _).mp haccepts
      · intro hint
        have hleast : IsLeast _ (target.ceil target n) := isLeast_ceil le_rfl n
        rw [ceil_self] at hleast
        refine (fromString_eq_whole_iff (numeralOf n) (hvalue.symm ▸ hint) type le_rfl
          (hvalue.symm ▸ hleast)).mpr ⟨h, ?_⟩
        rintro rfl
        exact hvalue.symm ▸ h.1
  | finite x =>
    cases rep with
    | integer type => cases h
    | floating format =>
      change target.fromString (.floating format) (fixed x ++ target.suffix) = _ ↔ _
      rw [fromString_fixed]
      constructor
      · intro hok
        cases hstoll : stoll (fixed x) with
        | error e => simp [hstoll, Except.map] at hok
        | ok count =>
          obtain ⟨m, hm⟩ := exists_intCast_of_convert format target count
          have hx : x = m := by simpa [hstoll, Except.map, hm, eq_comm] using hok
          refine ⟨m, hx, ?_⟩
          rw [hx, stoll_fixed_intCast] at hstoll
          split_ifs at hstoll with hint
          exact hint
      · rintro ⟨m, rfl, hint⟩
        rw [stoll_fixed_intCast, if_pos hint]
        simp [Except.map, FloatFormat.convert, FloatFormat.ceil, FloatFormat.durationCast,
          format.round_of_values _ h]

/-- A duration is read back exactly if its count is an integer of 64 bits. A string is accepted
exactly if it is a literal, when and only when it is neither a literal that is too long nor padded.
And for a literal of a unit at most as coarse, the least value that is not below is returned: in an
integer type exactly if the types have the count and the value, in a floating-point type if the
format has the count, the value and the ratio of the units. -/
theorem fromString_spec (target : TimeUnit) (rep : Rep) :
    (∀ count, rep.Holds count →
      (target.fromString rep (target.toText count) = .ok count ↔ count.IsInt64)) ∧
    (∀ string, (target.Accepts rep string ↔ IsLiteral string) ↔
      ¬ Overlong string ∧ ¬ Padded string) ∧
    ∀ (n : Numeral) (unit : TimeUnit), InInt64 n.value → unit.period ≤ target.period →
      (∀ type r, rep = .integer type →
        IsLeast {r | n.value * unit.period ≤ r * target.period} r →
        (target.fromString rep (n.text ++ unit.suffix) = .ok (.whole r) ↔
          type.Holds r ∧ (type = .unsigned .w64 → 0 ≤ n.value))) ∧
      ∀ format x, rep = .floating format → format.values n.value →
        format.values (target.period / unit.period : ℤ) → format.values x →
        x * target.period = n.value * unit.period →
        target.fromString rep (n.text ++ unit.suffix) = .ok (.finite x) := by
  refine ⟨fun count => fromString_toText_iff target, fun string => accepts_iff_isLiteral_iff,
    fun n unit hvalue hle => ⟨?_, ?_⟩⟩
  · rintro type r rfl hr
    exact fromString_eq_whole_iff n hvalue type hle hr
  · rintro format x rfl hcount hratio hx heq
    exact fromString_eq_finite n hvalue format hle hcount hratio hx heq

/-- What follows the digits is ignored, so that the string is accepted; and one and a half seconds
are not read back in any floating-point type. -/
theorem not_fromString_literals :
    (seconds.fromString (.integer (.signed .w64)) "5xs".toList = .ok (.whole 5) ∧
      ¬ IsLiteral "5xs".toList) ∧
      ∀ format : FloatFormat, seconds.fromString (.floating format)
        (seconds.toText (.finite (3 / 2))) ≠ .ok (.finite (3 / 2)) := by
  refine ⟨⟨by decide, ?_⟩, fun format hok => ?_⟩
  · rintro ⟨n, unit, heq⟩
    have hscan : scan ([] ++ n.text ++ unit.suffix) = _ :=
      scan_append n (by simp) (head_suffix unit)
    rw [nil_append, ← heq] at hscan
    have hrest : ['x', 's'] = unit.suffix := (NumberText.mk.inj hscan).2.2.2
    cases unit <;> cases hrest
  · rw [toText, Count.toText, fromString_fixed] at hok
    cases hstoll : stoll (fixed (3 / 2)) with
    | error e => simp [hstoll, Except.map] at hok
    | ok count =>
      obtain ⟨m, hm⟩ := exists_intCast_of_convert format seconds count
      rw [hstoll, Except.map, hm, Except.ok.injEq, Count.finite.injEq,
        eq_div_iff two_ne_zero] at hok
      have hint : m * 2 = 3 := by exact_mod_cast hok
      omega

end TimeUnit

end GeodeNative
