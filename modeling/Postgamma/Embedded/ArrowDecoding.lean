import Mathlib
import Postgamma.Library.Program
import Postgamma.Embedded.ArrowValues
import Postgamma.Embedded.PgValues

/-!
# The decoders on what PostgreSQL sends and prints

Each decoder either refuses a value or stores its exact slot, and computes without overflow. The
binary decoders of dates and timestamps are the exception: they take the word of minus infinity for
a finite time.
-/

namespace Postgamma
namespace Embedded
namespace Arrow

open Text (Bytes)
open Decimal (isDigit digitValue digits takeDigits trimmed value zeropad)
open TwosComplement (Fits Signed bigEndian littleEndian unsigned wrap)

/-- An outcome is a refusal or a result with a property; it is no overflow. -/
inductive Meets {α : Type} : Except Failure α → (α → Prop) → Prop where
  | ok {result : α} {property : α → Prop} (holds : property result) : Meets (.ok result) property
  | rejected {property : α → Prop} : Meets (.error .rejected) property

namespace Meets

variable {α β : Type}

theorem bind {first : Except Failure α} {next : α → Except Failure β} {middle : α → Prop}
    {property : β → Prop} (head : Meets first middle)
    (tail : ∀ result, middle result → Meets (next result) property) :
    Meets (first >>= next) property := by
  cases head with
  | ok holds => exact tail _ holds
  | rejected => exact rejected

/-- Behind a requirement its condition holds. -/
theorem require {condition : Prop} [Decidable condition] {next : Unit → Except Failure β}
    {property : β → Prop} (tail : condition → Meets (next ()) property) :
    Meets (require condition >>= next) property := by
  by_cases holds : condition
  · rw [Arrow.require, if_pos holds]
    exact tail holds
  · rw [Arrow.require, if_neg holds]
    exact rejected

theorem weaken {outcome : Except Failure α} {property weaker : α → Prop}
    (meets : Meets outcome property) (imply : ∀ result, property result → weaker result) :
    Meets outcome weaker := by
  cases meets with
  | ok holds => exact ok (imply _ holds)
  | rejected => exact rejected

theorem result {outcome : Except Failure α} {property : α → Prop} {result : α}
    (meets : Meets outcome property) (same : outcome = .ok result) : property result := by
  cases meets with
  | ok holds => exact Except.ok.inj same ▸ holds
  | rejected => cases same

theorem no_overflow {outcome : Except Failure α} {property : α → Prop}
    (meets : Meets outcome property) : outcome ≠ .error .overflow := by
  cases meets with
  | ok holds => exact nofun
  | rejected => exact nofun

end Meets

theorem fits32 {number : ℤ} : Fits 32 number ↔ -2147483648 ≤ number ∧ number < 2147483648 := by
  norm_num [Fits]

theorem fits64 {number : ℤ} :
    Fits 64 number ↔ -9223372036854775808 ≤ number ∧ number < 9223372036854775808 := by
  norm_num [Fits]

theorem int32_eq {number : ℤ} (low : -2147483648 ≤ number) (high : number < 2147483648) :
    int32 number = .ok number :=
  if_pos (fits32.2 ⟨low, high⟩)

theorem int64_eq {number : ℤ} (low : -9223372036854775808 ≤ number)
    (high : number < 9223372036854775808) : int64 number = .ok number :=
  if_pos (fits64.2 ⟨low, high⟩)

theorem pgEpoch_dayNumber : pgEpoch.dayNumber = 10957 := rfl

theorem unixMicroseconds_eq (number : ℤ) :
    unixMicroseconds number = number + 946684800000000 := rfl

theorem wrap_sent {count : ℕ} {number : ℤ} (positive : 0 < count) (fits : Fits (8 * count) number) :
    wrap (8 * count) (unsigned (bigEndian count number)) = number := by
  have power : (256 : ℤ) ^ count = 2 ^ (8 * count) := by rw [pow_mul]; norm_num
  rw [TwosComplement.unsigned_bigEndian, power, TwosComplement.wrap_eq (by omega) fits]

theorem littleEndian_sent (count : ℕ) (number : ℤ) :
    littleEndian count (unsigned (bigEndian count number)) = littleEndian count number := by
  rw [TwosComplement.unsigned_bigEndian, TwosComplement.littleEndian_emod]

theorem Extended.word_fits {width : ℕ} (time : Extended width) : Fits width time.word := by
  have positive : (0 : ℤ) < 2 ^ (width - 1) := by positivity
  cases time with
  | negInfinity => exact ⟨le_rfl, by simp only [Extended.word]; omega⟩
  | finite number =>
      obtain ⟨low, high⟩ := number.2
      exact ⟨le_of_lt low, by simp only [Extended.word]; omega⟩
  | infinity => exact ⟨by simp only [Extended.word]; omega, by simp only [Extended.word]; omega⟩

theorem binaryDate_sent (time : Extended 32) :
    Meets (binaryDate (bigEndian 4 time.word)) fun slot => time.word ≤ 2147472690 ∧
      slot = littleEndian 4 (time.word + 10957) := by
  have fits := Extended.word_fits time
  have low := (fits32.1 fits).1
  have decoded : wrap 32 (unsigned (bigEndian 4 time.word)) = time.word :=
    @wrap_sent 4 _ (by norm_num) fits
  unfold binaryDate
  rw [decoded]
  dsimp only
  refine Meets.require fun small => ?_
  rw [int32_eq (by omega) (by omega), except_ok_bind]
  exact Meets.ok ⟨small, rfl⟩

theorem binaryTimestamp_sent (time : Extended 64) :
    Meets (binaryTimestamp (bigEndian 8 time.word)) fun slot =>
      time.word ≤ 9222425352054775807 ∧
        slot = littleEndian 8 (time.word + 946684800000000) := by
  have fits := Extended.word_fits time
  have low := (fits64.1 fits).1
  have decoded : wrap 64 (unsigned (bigEndian 8 time.word)) = time.word :=
    @wrap_sent 8 _ (by norm_num) fits
  unfold binaryTimestamp
  rw [decoded]
  dsimp only
  refine Meets.require fun small => ?_
  rw [int64_eq (by omega) (by omega), except_ok_bind]
  exact Meets.ok ⟨small, rfl⟩

theorem toNat_ofInt {number : ℕ} (small : number < 4294967296) :
    (UInt32.ofInt (number : ℤ)).toNat = number := by
  rw [UInt32.ofInt, UInt32.toNat_ofNat']
  omega

/-- The day of a month as `civil_days` counts it, in a year that starts in March. -/
theorem dayOfYear_toNat {month day : ℕ} (positive : 1 ≤ month) (short : month ≤ 12)
    (dayPos : 1 ≤ day) (dayLe : day ≤ 31) :
    ((153 * (if 2 < UInt32.ofInt month then UInt32.ofInt month - 3 else UInt32.ofInt month + 9) + 2) /
        5 + UInt32.ofInt day - 1 : UInt32).toNat =
      (153 * (if 2 < month then month - 3 else month + 9) + 2) / 5 + day - 1 := by
  have dayNat : (UInt32.ofInt (day : ℤ)).toNat = day := toNat_ofInt (by omega)
  have stepped (start : UInt32) (small : start.toNat ≤ 337) :
      (start + UInt32.ofInt day - 1).toNat = start.toNat + day - 1 := by
    rw [UInt32.toNat_sub, UInt32.toNat_add, dayNat]
    simp
    omega
  interval_cases month <;> exact stepped _ (by decide)

/-- The year of an era and the day in it make no word wrap. -/
theorem dayOfEra_toNat {year : ℤ} {dayOfYear : UInt32} (low : 0 ≤ year) (high : year ≤ 399)
    (small : dayOfYear.toNat ≤ 400) :
    ((UInt32.ofInt year * 365 + UInt32.ofInt year / 4 - UInt32.ofInt year / 100 + dayOfYear :
      UInt32).toNat : ℤ) = year * 365 + year / 4 - year / 100 + dayOfYear.toNat := by
  obtain ⟨year, rfl⟩ := Int.eq_ofNat_of_zero_le low
  have yearNat : (UInt32.ofInt (year : ℤ)).toNat = year := toNat_ofInt (by omega)
  rw [UInt32.toNat_add, UInt32.toNat_sub, UInt32.toNat_add, UInt32.toNat_mul, UInt32.toNat_div,
    UInt32.toNat_div, yearNat]
  simp
  omega

/-- The days before a month, as the linear formula of `civil_days` from March on. -/
theorem monthStart_eq (year : ℤ) {month : ℕ} (positive : 1 ≤ month) (within : month ≤ 12) :
    Calendar.monthStart year month =
      if 2 < month then (153 * (month - 3) + 2) / 5 + 59 + if Calendar.Leap year then 1 else 0
      else 31 * (month - 1) := by
  by_cases leap : Calendar.Leap year <;> interval_cases month <;>
    simp [Calendar.monthStart, Calendar.monthLength, leap]

/-- A day number, with the years counted from March. -/
theorem dayNumber_eq (date : Calendar.Date) :
    date.dayNumber = (date.year - if date.month ≤ 2 then 1 else 0) / 400 * 146097 +
      (((date.year - if date.month ≤ 2 then 1 else 0) % 400) * 365 +
        ((date.year - if date.month ≤ 2 then 1 else 0) % 400) / 4 -
        ((date.year - if date.month ≤ 2 then 1 else 0) % 400) / 100 +
        (((153 * (if 2 < date.month then date.month - 3 else date.month + 9) + 2) / 5 + date.day - 1 :
          ℕ) : ℤ)) - 719468 := by
  obtain ⟨year, month, day, monthPos, monthLe, dayPos, dayLe⟩ := date
  simp only [Calendar.Date.dayNumber, Calendar.yearStart, monthStart_eq year monthPos monthLe]
  by_cases late : 2 < month
  · rw [if_pos late, if_pos late, if_neg (not_le.mpr late)]
    by_cases leap : Calendar.Leap year
    · rw [if_pos leap]
      unfold Calendar.Leap at leap
      omega
    · rw [if_neg leap]
      unfold Calendar.Leap at leap
      omega
  · rw [if_neg late, if_neg late, if_pos (not_lt.mp late)]
    omega

theorem civilDays_date (date : Calendar.Date) (low : 0 < date.year) (high : date.year < 10000) :
    civilDays date.year (UInt32.ofInt date.month) (UInt32.ofInt date.day) = .ok date.dayNumber := by
  have dayLe := date.day_le_31
  have early : (UInt32.ofInt (date.month : ℤ) ≤ 2) ↔ date.month ≤ 2 := by
    rw [UInt32.le_iff_toNat_le, toNat_ofInt (by have := date.month_le; omega)]
    rfl
  have day := dayOfYear_toNat date.month_pos date.month_le date.day_pos dayLe
  have bound : (153 * (if 2 < date.month then date.month - 3 else date.month + 9) + 2) / 5 +
      date.day - 1 ≤ 400 := by
    have := date.month_le
    split <;> omega
  rw [dayNumber_eq]
  generalize adjusted : (date.year - if date.month ≤ 2 then 1 else 0) = year
  have range : 0 ≤ year ∧ year < 10000 := by
    rw [← adjusted]
    split <;> omega
  have era := @dayOfEra_toNat (year % 400) _ (by omega) (by omega) (day.symm ▸ bound)
  unfold civilDays
  simp only [early, adjusted]
  rw [int32_eq (by omega) (by omega), except_ok_bind, if_pos range.1, except_ok_bind,
    Int.tdiv_eq_ediv_of_nonneg range.1, int32_eq (by omega) (by omega), except_ok_bind,
    int32_eq (by omega) (by omega), except_ok_bind]
  have remainder : year - year / 400 * 400 = year % 400 := by omega
  rw [remainder, int64_eq (by omega) (by omega), except_ok_bind, era, day,
    int64_eq (by omega) (by omega), except_ok_bind, int64_eq (by omega) (by omega)]

variable {byte : UInt8} {date : Calendar.Date}

theorem isDigit_bounds (digit : isDigit byte = true) : 0x30 ≤ byte.toNat ∧ byte.toNat ≤ 0x39 := by
  simpa [isDigit] using digit

theorem isSpace_digit (digit : isDigit byte = true) : isSpace byte = false := by
  have bounds := isDigit_bounds digit
  have nospace : byte ≠ 0x20 := by
    rintro rfl
    exact absurd bounds.1 (by decide)
  simp [isSpace, nospace]
  omega

theorem takeSign_digit (digit : isDigit byte = true) (rest : Bytes) :
    takeSign (byte :: rest) = (1, 0, byte :: rest) := by
  have bounds := isDigit_bounds digit
  unfold takeSign
  split
  · rename_i same
    rw [(List.cons.inj same).1] at bounds
    exact absurd bounds.1 (by decide)
  · rename_i same
    rw [(List.cons.inj same).1] at bounds
    exact absurd bounds.1 (by decide)
  · rfl

/-- White space in front of digits is skipped, the digits are kept. -/
theorem dropWhile_digit (digit : isDigit byte = true) (rest : Bytes) :
    (byte :: rest).dropWhile isSpace = byte :: rest := by
  simp [isSpace_digit digit]

/-- A run of digits that fits the width is scanned as its value. -/
theorem scanInteger_run {run rest : Bytes} {width : ℕ} (nonempty : run ≠ [])
    (all : ∀ byte ∈ run, isDigit byte = true)
    (taken : takeDigits width (run ++ rest) = (run, rest)) :
    scanInteger width (run ++ rest) = some ((value run : ℤ), rest) := by
  cases run with
  | nil => exact absurd rfl nonempty
  | cons byte run =>
      have digit := all byte List.mem_cons_self
      rw [List.cons_append] at taken ⊢
      rw [scanInteger, dropWhile_digit digit, takeSign_digit digit]
      simp [taken]

/-- A padded number of its width is scanned, whatever follows. -/
theorem scanInteger_zeropad {width number : ℕ} (positive : 0 < width) (small : number < 10 ^ width)
    (rest : Bytes) : scanInteger width (zeropad width number ++ rest) = some ((number : ℤ), rest) := by
  have all := Decimal.zeropad_isDigit width number
  have taken := Decimal.takeDigits_full all rest
  have length : (zeropad width number).length = width := by
    rw [Decimal.zeropad_eq small, Decimal.digits_length]
  rw [length] at taken
  rw [scanInteger_run (Decimal.zeropad_ne_nil number positive) all taken, Decimal.value_zeropad]

/-- A number with more digits than the width leaves a digit behind. -/
theorem scanInteger_long {number : ℕ} (large : 10000 ≤ number) (rest : Bytes) :
    ∃ scanned byte tail, scanInteger 4 (zeropad 4 number ++ rest) = some (scanned, byte :: tail) ∧
      isDigit byte = true := by
  have long := @Decimal.zeropad_length_of_ge 4 number large
  have all := Decimal.zeropad_isDigit 4 number
  generalize zeropad 4 number = text at long all
  have front : (text.take 4).length = 4 := by rw [List.length_take]; omega
  obtain ⟨byte, tail, behind⟩ : ∃ byte tail, text.drop 4 = byte :: tail := by
    cases dropped : text.drop 4 with
    | nil =>
        have short := congrArg List.length dropped
        rw [List.length_drop, List.length_nil] at short
        omega
    | cons byte tail => exact ⟨byte, tail, rfl⟩
  have frontAll (other : UInt8) (member : other ∈ text.take 4) : isDigit other = true :=
    all other (List.mem_of_mem_take member)
  have taken := Decimal.takeDigits_full frontAll (byte :: (tail ++ rest))
  have whole : text ++ rest = text.take 4 ++ byte :: (tail ++ rest) := by
    rw [← List.cons_append, ← behind, ← List.append_assoc, List.take_append_drop]
  rw [front] at taken
  refine ⟨value (text.take 4), byte, tail ++ rest, ?_, all byte ?_⟩
  · rw [whole]
    refine scanInteger_run ?_ frontAll taken
    intro empty
    rw [empty] at front
    cases front
  · exact List.mem_of_mem_drop (i := 4) (behind ▸ List.mem_cons_self)

/-- The numeral of an integer is scanned up to a zero byte. -/
theorem scanInteger_integer (number : ℤ) :
    scanInteger (Decimal.integer number ++ [0]).length (Decimal.integer number ++ [0]) =
      some (number, [0]) := by
  have all := Decimal.zeropad_isDigit 1 number.natAbs
  have nonempty := Decimal.zeropad_ne_nil number.natAbs (Nat.one_pos)
  have stop : ∀ byte ∈ ([0] : Bytes).head?, isDigit byte = false := by simp [isDigit]
  unfold Decimal.integer
  split
  · rename_i negative
    have taken := @Decimal.takeDigits_stop (zeropad 1 number.natAbs) [0]
      ((zeropad 1 number.natAbs ++ [0]).length) all (by simp) stop
    have magnitude : -(number.natAbs : ℤ) = number := by omega
    have plain : ((0x2D : UInt8) :: zeropad 1 number.natAbs ++ [0]).dropWhile isSpace =
        0x2D :: (zeropad 1 number.natAbs ++ [0]) := by
      simp [isSpace]
    rw [scanInteger, plain]
    simp only [takeSign, List.cons_append, List.length_cons, Nat.add_sub_cancel, taken, nonempty,
      if_false, Decimal.value_zeropad, neg_one_mul, magnitude]
  · have taken := @Decimal.takeDigits_stop (zeropad 1 number.natAbs) [0]
      ((zeropad 1 number.natAbs ++ [0]).length) all (by simp) stop
    have magnitude : (number.natAbs : ℤ) = number := by omega
    rw [scanInteger_run nonempty all taken, Decimal.value_zeropad, magnitude]

theorem parseSigned_integer (minimum maximum number : ℤ) :
    Meets (parseSigned minimum maximum (Decimal.integer number)) (· = number) := by
  unfold parseSigned
  split
  · exact .rejected
  · rw [strtoll, scanInteger_integer]
    split
    · exact .rejected
    · rename_i parsed rest scanned
      obtain ⟨rfl, -⟩ := Prod.mk.inj (Option.some.inj (Option.filter_eq_some_iff.mp scanned).1)
      split
      · exact .rejected
      · exact .ok rfl

theorem parseUnsigned_integer {maximum number : ℤ} (low : 0 ≤ number)
    (high : number < 18446744073709551616) :
    Meets (parseUnsigned maximum (Decimal.integer number)) (· = number) := by
  unfold parseUnsigned
  split
  · exact .rejected
  · rw [strtoull, scanInteger_integer]
    split
    · exact .rejected
    · rename_i parsed rest scanned
      obtain ⟨found, filtered, same⟩ := Option.map_eq_some_iff.mp scanned
      obtain rfl := Option.some.inj (Option.filter_eq_some_iff.mp filtered).1
      obtain ⟨rfl, -⟩ := Prod.mk.inj same
      split
      · exact .rejected
      · exact .ok (Int.emod_eq_of_lt low (by norm_num; exact high))

def shownYear (date : Calendar.Date) : ℕ :=
  (if 0 < date.year then date.year else 1 - date.year).toNat

theorem dateText_length (date : Calendar.Date) :
    (dateText date).length = (zeropad 4 (shownYear date)).length + 6 := by
  have month : zeropad 2 date.month = digits 2 date.month :=
    Decimal.zeropad_eq (by have := date.month_le; omega)
  have day : zeropad 2 date.day = digits 2 date.day :=
    Decimal.zeropad_eq (by have := date.day_le_31; omega)
  simp [dateText, shownYear, month, day]

theorem shownYear_length (short : shownYear date < 10000) :
    (zeropad 4 (shownYear date)).length = 4 := by
  rw [Decimal.zeropad_eq short, Decimal.digits_length]

theorem shownYear_lt {date : Calendar.Date}
    (length : (zeropad 4 (shownYear date)).length ≤ 4) : shownYear date < 10000 := by
  by_contra large
  have long := @Decimal.zeropad_length_of_ge 4 (shownYear date) (Nat.not_lt.mp large)
  omega

/-- The year, month and day of a text are scanned when the year has four digits. -/
theorem sscanf_date (short : shownYear date < 10000) (format : List Directive) (rest : Bytes) :
    sscanf (.integer 4 :: .byte 0x2D :: .integer 2 :: .byte 0x2D :: .integer 2 :: format)
      (dateText date ++ rest) =
        (shownYear date : ℤ) :: (date.month : ℤ) :: (date.day : ℤ) :: sscanf format rest := by
  have month := @scanInteger_zeropad 2 date.month (by norm_num)
    (by have := date.month_le; omega)
  have day := @scanInteger_zeropad 2 date.day (by norm_num) (by have := date.day_le_31; omega)
  have year := @scanInteger_zeropad 4 (shownYear date) (by norm_num) short
  have text : dateText date = zeropad 4 (shownYear date) ++ 0x2D :: (zeropad 2 date.month ++
      0x2D :: zeropad 2 date.day) := rfl
  simp only [text, List.append_assoc, List.cons_append, sscanf, year, month, day, if_true]

/-- A longer year ends the scan. -/
theorem sscanf_long (long : 10000 ≤ shownYear date) (format : List Directive) (rest : Bytes) :
    ∃ scanned, sscanf (.integer 4 :: .byte 0x2D :: format) (dateText date ++ rest) = [scanned] := by
  have text : dateText date = zeropad 4 (shownYear date) ++ 0x2D :: (zeropad 2 date.month ++
      0x2D :: zeropad 2 date.day) := rfl
  obtain ⟨scanned, byte, tail, scan, digit⟩ := scanInteger_long long
    ((0x2D :: (zeropad 2 date.month ++ 0x2D :: zeropad 2 date.day)) ++ rest)
  have different : byte ≠ 0x2D := by
    rintro rfl
    exact absurd (isDigit_bounds digit).1 (by decide)
  refine ⟨scanned, ?_⟩
  rw [text, List.append_assoc]
  simp only [sscanf, scan, different, if_false]

/-- The hour, minute and second of a text are scanned. -/
theorem sscanf_clock {time : ℕ} (short : time < 86400000000) (rest : Bytes) :
    sscanf [.space, .integer 2, .byte 0x3A, .integer 2, .byte 0x3A, .integer 2]
      (0x20 :: (clockText time ++ rest)) =
        [((time / 3600000000 : ℕ) : ℤ), ((time / 60000000 % 60 : ℕ) : ℤ),
          ((time / 1000000 % 60 : ℕ) : ℤ)] := by
  have hour := @scanInteger_zeropad 2 (time / 3600000000) (by norm_num) (by omega)
  have minute := @scanInteger_zeropad 2 (time / 60000000 % 60) (by norm_num) (by omega)
  have second := @scanInteger_zeropad 2 (time / 1000000 % 60) (by norm_num) (by omega)
  obtain ⟨byte, tail, head⟩ : ∃ byte tail, zeropad 2 (time / 3600000000) = byte :: tail := by
    cases run : zeropad 2 (time / 3600000000) with
    | nil => exact absurd run (Decimal.zeropad_ne_nil _ (by norm_num))
    | cons byte tail => exact ⟨byte, tail, rfl⟩
  have digit := Decimal.zeropad_isDigit 2 (time / 3600000000) byte (head ▸ List.mem_cons_self)
  have skipped (behind : Bytes) : (0x20 :: (zeropad 2 (time / 3600000000) ++ behind)).dropWhile
      isSpace = zeropad 2 (time / 3600000000) ++ behind := by
    rw [head, List.cons_append, List.dropWhile_cons_of_pos (by decide), dropWhile_digit digit]
  simp only [clockText, List.append_assoc, List.cons_append, sscanf, skipped, hour, minute, second,
    if_true]

theorem parseDateText_infinity : parseDateText infinityText = .error .rejected := rfl

theorem parseDateText_negInfinity :
    parseDateText (0x2D :: infinityText) = .error .rejected := rfl

theorem parseDateText_prints :
    Meets (parseDateText (dateText date ++ eraText date)) fun days =>
      days = date.dayNumber ∧ Fits 32 days := by
  unfold parseDateText
  refine Meets.require fun shape => ?_
  obtain ⟨length, -⟩ := shape
  rw [List.length_append, dateText_length] at length
  have wide : 4 ≤ (zeropad 4 (shownYear date)).length := by
    rw [zeropad, Decimal.digits_length]
    exact le_max_left ..
  have common : 0 < date.year := by
    by_contra before
    rw [eraText, if_neg before] at length
    simp at length
    omega
  have short := @shownYear_lt date (by omega)
  have year : (shownYear date : ℤ) = date.year := by
    rw [shownYear, if_pos common]
    omega
  rw [List.append_assoc, sscanf_date short, year]
  dsimp only [sscanf]
  refine Meets.require fun _ => ?_
  rw [civilDays_date date common (by omega), except_ok_bind]
  exact Meets.require fun fits => Meets.ok ⟨rfl, fits⟩

/-- What ends a timestamp: its era or the zero byte of the copy. -/
def Ends (rest : Bytes) : Prop := ∃ tail, rest = 0x20 :: tail ∨ rest = 0 :: tail

theorem padFraction_eq {fraction : ℤ} {missing : ℕ} (low : 0 ≤ fraction)
    (high : fraction * 10 ^ missing < 10000000) :
    padFraction fraction missing = .ok (fraction * 10 ^ missing) := by
  induction missing generalizing fraction with
  | zero => simp [padFraction]
  | succ missing induction =>
      have grown : fraction * 10 * 10 ^ missing = fraction * 10 ^ (missing + 1) := by ring
      have power : (1 : ℤ) ≤ 10 ^ missing := one_le_pow₀ (by norm_num)
      have below : fraction * 10 < 10000000 := by
        rw [← grown] at high
        nlinarith
      rw [padFraction, int64_eq (by omega) (by omega), except_ok_bind,
        induction (by omega) (grown ▸ high), grown]

/-- Six digits at most are read as their value. -/
theorem fractionDigits_run {run rest : Bytes} {fraction : ℤ} {count : ℕ}
    (all : ∀ byte ∈ run, isDigit byte = true) (short : count + run.length ≤ 6) (low : 0 ≤ fraction)
    (high : fraction < 10 ^ count) (stop : ∀ byte ∈ rest.head?, isDigit byte = false) :
    fractionDigits fraction count (run ++ rest) =
      .ok (fraction * 10 ^ run.length + value run, count + run.length, rest) := by
  induction run generalizing fraction count with
  | nil =>
      cases rest with
      | nil => simp [fractionDigits]
      | cons byte rest => simp [fractionDigits, stop byte rfl]
  | cons byte run induction =>
      have digit := all byte List.mem_cons_self
      have small := Decimal.digitValue_le digit
      rw [List.length_cons] at short
      have power : (10 : ℤ) ^ count ≤ 10 ^ 6 := pow_le_pow_right₀ (by norm_num) (by omega)
      have next : fraction * 10 + digitValue byte < 10 ^ (count + 1) := by
        rw [pow_succ]
        omega
      have rest := @induction (fraction * 10 + digitValue byte) (count + 1)
        (fun other member => all other (List.mem_cons_of_mem _ member)) (by omega) (by omega) next
      rw [List.cons_append, fractionDigits, if_pos digit, if_pos (by omega),
        int64_eq (by omega) (by omega), except_ok_bind, int64_eq (by omega) (by omega),
        except_ok_bind, rest, Decimal.value_cons, List.length_cons]
      push_cast
      refine congrArg Except.ok (Prod.ext ?_ (Prod.ext ?_ rfl))
      · ring
      · simp only
        omega

theorem parseFraction_text {fraction : ℕ} {rest : Bytes} (small : fraction < 1000000)
    (stop : ∀ byte ∈ rest.head?, isDigit byte = false) (point : rest.head? ≠ some 0x2E) :
    parseFraction (fractionText fraction ++ rest) = .ok ((fraction : ℤ), rest) := by
  unfold fractionText
  split
  · rename_i zero
    rw [zero, List.nil_append]
    cases rest with
    | nil => rfl
    | cons byte rest =>
        unfold parseFraction
        split
        · rename_i same
          exact absurd (congrArg List.head? same) point
        · rfl
  · rename_i nonzero
    have full : value (digits 6 fraction) = fraction := by
      rw [Decimal.value_digits]
      exact Nat.mod_eq_of_lt small
    have all (byte : UInt8) (member : byte ∈ trimmed (digits 6 fraction)) : isDigit byte = true :=
      Decimal.digits_isDigit 6 fraction byte (Decimal.trimmed_subset member)
    have length := Decimal.trimmed_length_le (digits 6 fraction)
    have total := Decimal.value_trimmed (digits 6 fraction)
    have nonempty := @Decimal.trimmed_ne_nil (digits 6 fraction) (full.symm ▸ nonzero)
    rw [Decimal.digits_length] at length total
    rw [full] at total
    generalize trimmed (digits 6 fraction) = run at all length total nonempty
    have read := @fractionDigits_run run rest 0 0 all (by omega) le_rfl (by norm_num) stop
    have whole : ((value run : ℕ) : ℤ) * 10 ^ (6 - run.length) = fraction := by exact_mod_cast total
    have positive : run.length ≠ 0 := fun zero => nonempty (List.length_eq_zero_iff.mp zero)
    rw [List.cons_append, parseFraction, read, except_ok_bind]
    simp only [zero_mul, zero_add, require, positive, ne_eq, not_false_eq_true, if_true,
      except_ok_bind]
    rw [padFraction_eq (by positivity) (by rw [whole]; omega), except_ok_bind, whole]
    rfl

theorem twoDigits_zeropad {number : ℕ} (small : number < 100) (rest : Bytes) :
    twoDigits (zeropad 2 number ++ rest) = .ok (number, rest) := by
  have high : number / 10 % 10 < 10 := Nat.mod_lt _ (by norm_num)
  have low : number % 10 < 10 := Nat.mod_lt _ (by norm_num)
  rw [Decimal.zeropad_eq small]
  simp only [digits, List.nil_append, List.cons_append, twoDigits,
    Decimal.isDigit_digitByte high, Decimal.isDigit_digitByte low, Bool.and_true, if_true,
    Decimal.digitValue_digitByte high, Decimal.digitValue_digitByte low]
  refine congrArg Except.ok (Prod.ext ?_ rfl)
  simp only
  omega

/-- What a zone parser does with a printed zone: it may refuse it, or stop inside it, or read the
offset. -/
def ReadsZone (offset : ℤ) (rest : Bytes) (result : Zone × Bytes) : Prop :=
  result.2.head? = some 0 → result.2 = rest ∧ result.1.hour ≤ 23 ∧ result.1.minute ≤ 59 ∧
    offset = result.1.sign * (result.1.hour * 3600 + result.1.minute * 60) ∧
    (result.1.sign = 0 ∨ result.1.sign = 1 ∨ result.1.sign = -1)

theorem readsZone_inside {offset : ℤ} {rest tail : Bytes} {zone : Zone}
    (nonzero : byte ≠ 0) : ReadsZone offset rest (zone, byte :: tail) := by
  intro zero
  exact absurd (Option.some.inj zero) nonzero

theorem zoneMinutes_plain (other : byte ≠ 0x3A) (tail : Bytes) :
    zoneMinutes (byte :: tail) = .ok (0, byte :: tail) := by
  unfold zoneMinutes
  split
  · rename_i same
    exact absurd (List.cons.inj same).1 other
  · rfl

theorem zoneOffset_prints {sign : ℤ} {magnitude : ℕ} {rest : Bytes} (ends : Ends rest)
    (signed : sign = 1 ∨ sign = -1) :
    Meets (zoneOffset sign (zeropad 2 (magnitude / 3600) ++ ((if magnitude % 60 ≠ 0 then
      0x3A :: (zeropad 2 (magnitude / 60 % 60) ++ 0x3A :: zeropad 2 (magnitude % 60))
      else if magnitude / 60 % 60 ≠ 0 then 0x3A :: zeropad 2 (magnitude / 60 % 60)
      else []) ++ rest))) (ReadsZone (sign * magnitude) rest) := by
  by_cases small : magnitude / 3600 < 100
  · rw [zoneOffset, twoDigits_zeropad small, except_ok_bind]
    dsimp only
    split
    · -- The seconds stand behind the minutes.
      rw [List.cons_append, List.append_assoc, zoneMinutes, twoDigits_zeropad (by omega),
        except_ok_bind]
      exact Meets.require fun _ => Meets.ok (readsZone_inside (by decide))
    · split
      · rw [List.cons_append, zoneMinutes, twoDigits_zeropad (by omega), except_ok_bind]
        refine Meets.require fun bounds => Meets.ok fun _ => ⟨rfl, bounds.1, bounds.2, ?_, .inr signed⟩
        dsimp only
        congr 1
        omega
      · obtain ⟨byte, tail, same, other⟩ : ∃ byte tail, rest = byte :: tail ∧ byte ≠ 0x3A := by
          obtain ⟨tail, same | same⟩ := ends
          · exact ⟨0x20, tail, same, by decide⟩
          · exact ⟨0, tail, same, by decide⟩
        rw [List.nil_append, same, zoneMinutes_plain other, except_ok_bind]
        refine Meets.require fun bounds => Meets.ok fun _ => ⟨rfl, bounds.1, bounds.2, ?_, .inr signed⟩
        dsimp only
        congr 1
        omega
  · -- Three digits of hours: the third stands where the minutes begin.
    have long := @Decimal.zeropad_length_of_ge 2 (magnitude / 3600) (by omega)
    have all := Decimal.zeropad_isDigit 2 (magnitude / 3600)
    generalize zeropad 2 (magnitude / 3600) = run at long all
    obtain ⟨first, second, third, behind, rfl⟩ : ∃ first second third behind,
        run = first :: second :: third :: behind := by
      match run, long with
      | first :: second :: third :: behind, _ => exact ⟨first, second, third, behind, rfl⟩
    have digit := isDigit_bounds (all third (by simp))
    have notColon : third ≠ 0x3A := by
      rintro rfl
      exact absurd digit.2 (by decide)
    have nonzero : third ≠ 0 := by
      rintro rfl
      exact absurd digit.1 (by decide)
    simp only [zoneOffset, List.cons_append, twoDigits, all first (by simp), all second (by simp),
      Bool.and_true, if_true, except_ok_bind, zoneMinutes_plain notColon]
    exact Meets.require fun _ => Meets.ok (readsZone_inside nonzero)

/-- A printed zone is refused, or left unread, or read as its offset. -/
theorem parseZone_zoneText {offset : ℤ} {rest : Bytes} (ends : Ends rest) :
    Meets (parseZone (zoneText offset ++ rest)) (ReadsZone offset rest) := by
  unfold zoneText
  split
  · rename_i east
    have magnitude : (1 : ℤ) * offset.natAbs = offset := by omega
    have reads := @zoneOffset_prints 1 offset.natAbs rest ends (.inl rfl)
    rw [magnitude] at reads
    simpa only [List.cons_append, List.append_assoc, parseZone] using reads
  · rename_i west
    have magnitude : (-1 : ℤ) * offset.natAbs = offset := by omega
    have reads := @zoneOffset_prints (-1) offset.natAbs rest ends (.inr rfl)
    rw [magnitude] at reads
    simpa only [List.cons_append, List.append_assoc, parseZone] using reads

theorem parseZone_none {rest : Bytes} (ends : Ends rest) :
    Meets (parseZone ([] ++ rest)) (ReadsZone 0 rest) := by
  obtain ⟨tail, rfl | rfl⟩ := ends
  · exact Meets.ok (readsZone_inside (by simp))
  · exact Meets.ok fun _ => ⟨rfl, Nat.zero_le _, Nat.zero_le _, by simp, .inl rfl⟩

/-- The seconds of a date in the common era, a time of day and a zone. -/
theorem zonedSeconds_eq {days : ℤ} {hour minute second : UInt32} {zone : Zone}
    (low : -1000000000 ≤ days) (high : days ≤ 1000000000) (hours : hour ≤ 23) (minutes : minute ≤ 59)
    (seconds : second ≤ 60) (zoneHour : zone.hour ≤ 23) (zoneMinute : zone.minute ≤ 59)
    (signed : zone.sign = 0 ∨ zone.sign = 1 ∨ zone.sign = -1) :
    zonedSeconds days hour minute second zone =
      .ok (days * 86400 + hour.toNat * 3600 + minute.toNat * 60 + second.toNat -
        zone.sign * (zone.hour * 3600 + zone.minute * 60)) := by
  have hours : hour.toNat ≤ 23 := UInt32.le_iff_toNat_le.mp hours
  have minutes : minute.toNat ≤ 59 := UInt32.le_iff_toNat_le.mp minutes
  have seconds : second.toNat ≤ 60 := UInt32.le_iff_toNat_le.mp seconds
  have offset : -90000 ≤ zone.sign * ((zone.hour : ℤ) * 3600 + zone.minute * 60) ∧
      zone.sign * ((zone.hour : ℤ) * 3600 + zone.minute * 60) ≤ 90000 := by
    rcases signed with sign | sign | sign <;> rw [sign] <;> omega
  unfold zonedSeconds
  rw [int64_eq (by omega) (by omega), except_ok_bind, int64_eq (by omega) (by omega),
    except_ok_bind, int64_eq (by omega) (by omega), except_ok_bind, int64_eq (by omega) (by omega),
    except_ok_bind, int64_eq (by omega) (by omega), except_ok_bind, int64_eq (by omega) (by omega),
    except_ok_bind, int64_eq (by omega) (by omega), except_ok_bind, int64_eq (by omega) (by omega),
    except_ok_bind, int64_eq (by omega) (by omega), except_ok_bind, int64_eq (by omega) (by omega),
    except_ok_bind, int64_eq (by omega) (by omega)]

/-- The range check keeps the microseconds in range but for the fraction. -/
theorem microseconds_eq {seconds fraction : ℤ} (low : -100000000000000 ≤ seconds * 10)
    (high : seconds * 10 ≤ 90000000000000) (positive : 0 ≤ fraction) (small : fraction < 1000000) :
    Meets (microseconds seconds fraction) fun result =>
      result = seconds * 1000000 + fraction ∧ Fits 64 result := by
  unfold microseconds
  refine Meets.require fun range => ?_
  have floor : Int.tdiv (-9223372036854775808) 1000000 = -9223372036854 := by decide
  rw [floor] at range
  rw [int64_eq (by omega) (by omega), except_ok_bind, int64_eq (by omega) (by omega)]
  exact Meets.ok ⟨rfl, fits64.2 ⟨by omega, by omega⟩⟩

theorem dayNumber_bounds {date : Calendar.Date} (low : 0 < date.year) (high : date.year < 10000) :
    -1000000 ≤ date.dayNumber ∧ date.dayNumber ≤ 4000000 := by
  have month := date.month_le
  have day := date.day_le_31
  rw [dayNumber_eq]
  split <;> split <;> omega

theorem ends_era (date : Calendar.Date) : Ends (eraText date ++ [0]) := by
  unfold eraText
  split
  · exact ⟨[], .inr rfl⟩
  · exact ⟨[0x42, 0x43, 0], .inl rfl⟩

theorem clockText_length {time : ℕ} (short : time < 86400000000) : (clockText time).length = 8 := by
  have hour : zeropad 2 (time / 3600000000) = digits 2 (time / 3600000000) :=
    Decimal.zeropad_eq (by omega)
  have minute : zeropad 2 (time / 60000000 % 60) = digits 2 (time / 60000000 % 60) :=
    Decimal.zeropad_eq (by omega)
  have second : zeropad 2 (time / 1000000 % 60) = digits 2 (time / 1000000 % 60) :=
    Decimal.zeropad_eq (by omega)
  simp [clockText, hour, minute, second]

/-- A zone text begins with its sign. -/
theorem zone_head {zone rest : Bytes} (ends : Ends rest)
    (zoned : zone = [] ∨ ∃ offset, zone = zoneText offset) :
    (∀ byte ∈ (zone ++ rest).head?, isDigit byte = false) ∧ (zone ++ rest).head? ≠ some 0x2E := by
  have signs (byte : UInt8) (tail : Bytes)
      (sign : byte = 0x20 ∨ byte = 0 ∨ byte = 0x2B ∨ byte = 0x2D) :
      (∀ other ∈ (byte :: tail).head?, isDigit other = false) ∧
        (byte :: tail).head? ≠ some 0x2E := by
    rcases sign with rfl | rfl | rfl | rfl <;> simp [isDigit]
  obtain rfl | ⟨offset, rfl⟩ := zoned
  · obtain ⟨tail, rfl | rfl⟩ := ends
    · exact signs _ tail (by simp)
    · exact signs _ tail (by simp)
  · refine signs _ _ ?_
    split <;> simp

theorem parseTimestampText_text {time : ℕ} {zone : Bytes} {offset : ℤ}
    (short : time < 86400000000) (zoned : zone = [] ∨ ∃ offset, zone = zoneText offset)
    (reads : ∀ rest, Ends rest → Meets (parseZone (zone ++ rest)) (ReadsZone offset rest)) :
    Meets (parseTimestampText (timestampText date time zone)) fun result =>
      result = date.dayNumber * 86400000000 + time - offset * 1000000 ∧ Fits 64 result := by
  have ends := ends_era date
  obtain ⟨stop, point⟩ := zone_head ends zoned
  have copy : timestampText date time zone ++ [0] = dateText date ++
      0x20 :: (clockText time ++ (fractionText (time % 1000000) ++ (zone ++ (eraText date ++ [0])))) := by
    simp [timestampText]
  unfold parseTimestampText
  refine Meets.require fun _ => ?_
  rw [copy]
  by_cases fourDigits : shownYear date < 10000
  · rw [sscanf_date fourDigits, sscanf_clock short]
    dsimp only
    refine Meets.require fun clock => ?_
    have behind : (dateText date ++ 0x20 :: (clockText time ++ (fractionText (time % 1000000) ++
        (zone ++ (eraText date ++ [0]))))).drop 19 =
        fractionText (time % 1000000) ++ (zone ++ (eraText date ++ [0])) := by
      have length : (dateText date ++ 0x20 :: clockText time).length = 19 := by
        rw [List.length_append, List.length_cons, clockText_length short, dateText_length,
          shownYear_length fourDigits]
      rw [← List.cons_append, ← List.append_assoc]
      exact List.drop_left' length
    rw [behind, parseFraction_text (Nat.mod_lt _ (by norm_num)) stop point, except_ok_bind]
    dsimp only
    refine (reads _ ends).bind fun result read => ?_
    refine Meets.require fun finished => ?_
    obtain ⟨same, hour, minute, ahead, signed⟩ := read finished
    have common : 0 < date.year := by
      by_contra before
      rw [same, eraText, if_neg before] at finished
      cases finished
    have year : (shownYear date : ℤ) = date.year := by
      rw [shownYear, if_pos common]
      omega
    have bounds := @dayNumber_bounds date common (by omega)
    rw [year, civilDays_date date common (by omega), except_ok_bind,
      zonedSeconds_eq (by omega) (by omega) clock.1 clock.2.1 clock.2.2 hour minute signed,
      except_ok_bind, toNat_ofInt (by omega), toNat_ofInt (by omega), toNat_ofInt (by omega),
      ← ahead]
    have range : -90000 ≤ offset ∧ offset ≤ 90000 := by
      rcases signed with sign | sign | sign <;> rw [sign] at ahead <;> omega
    refine (microseconds_eq (by omega) (by omega) (by omega) (by omega)).weaken
      fun total exact => ⟨exact.1.trans ?_, exact.2⟩
    omega
  · obtain ⟨scanned, scan⟩ := sscanf_long (Nat.not_lt.mp fourDigits) _ _
    rw [scan]
    exact Meets.rejected

theorem parseTimestampText_short {data : Bytes} (short : data.length < 19) :
    Meets (parseTimestampText data) fun result => False ∧ Fits 64 result := by
  unfold parseTimestampText
  refine Meets.require fun bounds => ?_
  omega

theorem parseTimestampText_local {moment offset : ℤ} {zone text : Bytes}
    (zoned : zone = [] ∨ ∃ offset, zone = zoneText offset)
    (reads : ∀ rest, Ends rest → Meets (parseZone (zone ++ rest)) (ReadsZone offset rest))
    (prints : PrintsLocal moment zone text) :
    Meets (parseTimestampText text) fun result =>
      result = moment - offset * 1000000 ∧ Fits 64 result := by
  obtain ⟨date, numbered, rfl⟩ := prints
  have day : dayMicroseconds = 86400000000 := rfl
  rw [day] at numbered ⊢
  refine (parseTimestampText_text (by omega) zoned reads).weaken
    fun result exact => ⟨exact.1.trans ?_, exact.2⟩
  rw [numbered]
  omega

/-! ## Hexadecimal texts -/

theorem hexValue_hexDigit {digit : ℕ} (small : digit < 16) :
    hexValue (hexDigit digit) = some digit := by
  interval_cases digit <;> rfl

theorem hexByte_text (byte : UInt8) :
    hexByte (hexDigit (byte.toNat / 16)) (hexDigit (byte.toNat % 16)) = some byte := by
  have below := byte.toNat_lt
  have whole : byte.toNat / 16 * 16 + byte.toNat % 16 = byte.toNat := Nat.div_add_mod' ..
  rw [hexByte, hexValue_hexDigit (by omega), hexValue_hexDigit (Nat.mod_lt _ (by norm_num))]
  simp only [Option.bind_eq_bind, Option.bind_some, Option.pure_def, whole, UInt8.ofNat_toNat]

theorem hexText_cons (byte : UInt8) (bytes : Bytes) :
    hexText (byte :: bytes) =
      hexDigit (byte.toNat / 16) :: hexDigit (byte.toNat % 16) :: hexText bytes := rfl

theorem hexBytes_hexText (bytes : Bytes) : hexBytes (hexText bytes) = some bytes := by
  induction bytes with
  | nil => rfl
  | cons byte bytes induction =>
      rw [hexText_cons, hexBytes, hexByte_text, induction]
      rfl

/-- A place where the groups of a UUID are separated. -/
def Dash (input : ℕ) : Prop := input = 8 ∨ input = 13 ∨ input = 18 ∨ input = 23

theorem parseUuidLoop_dash {input : ℕ} {output rest : Bytes} (dash : Dash input) :
    parseUuidLoop input output (0x2D :: rest) = parseUuidLoop (input + 1) output rest := by
  rw [parseUuidLoop.eq_def]
  dsimp only
  rw [if_pos (show input = 8 ∨ input = 13 ∨ input = 18 ∨ input = 23 from dash), if_pos rfl]

/-- A group without a separator is read byte by byte. -/
theorem parseUuidLoop_group {bytes output rest : Bytes} {input : ℕ}
    (plain : ∀ index < bytes.length, ¬Dash (input + 2 * index))
    (room : output.length + bytes.length ≤ 16) :
    parseUuidLoop input output (hexText bytes ++ rest) =
      parseUuidLoop (input + 2 * bytes.length) (output ++ bytes) rest := by
  induction bytes generalizing input output with
  | nil => simp [hexText]
  | cons byte bytes induction =>
      rw [List.length_cons] at room plain
      have later (index : ℕ) (inside : index < bytes.length) : ¬Dash (input + 2 + 2 * index) := by
        have := plain (index + 1) (by omega)
        rwa [show input + 2 * (index + 1) = input + 2 + 2 * index by ring] at this
      have here : ¬Dash input := plain 0 (by omega)
      have tail := @induction (output ++ [byte]) (input + 2) later
        (by rw [List.length_append, List.length_singleton]; omega)
      rw [hexText_cons, List.cons_append, List.cons_append, parseUuidLoop,
        if_neg (show ¬(input = 8 ∨ input = 13 ∨ input = 18 ∨ input = 23) from here)]
      simp only [hexByte_text, if_neg (show ¬16 ≤ output.length by omega), tail]
      rw [List.append_assoc, List.singleton_append, List.length_cons]
      congr 1
      ring

theorem parseUuidText_text {bytes : Bytes} (length : bytes.length = 16) :
    Meets (parseUuidText (uuidText bytes)) (· = bytes) := by
  have group (input count start : ℕ) (rest : Bytes) (inside : start + count ≤ 16)
      (plain : ∀ index < count, ¬Dash (input + 2 * index)) :
      parseUuidLoop input (bytes.take start) (hexText ((bytes.drop start).take count) ++ rest) =
        parseUuidLoop (input + 2 * count) (bytes.take (start + count)) rest := by
    have size : ((bytes.drop start).take count).length = count := by
      rw [List.length_take, List.length_drop]
      omega
    have front : (bytes.take start).length = start := by
      rw [List.length_take]
      omega
    rw [parseUuidLoop_group (by rwa [size]) (by rw [front, size]; omega), size, List.take_add]
  have last : (bytes.drop 10).take 6 = bytes.drop 10 := by
    rw [List.take_of_length_le]
    rw [List.length_drop]
    omega
  have loop : parseUuidLoop 0 [] (uuidText bytes) = some bytes := by
    have first := group 0 4 0 (0x2D :: (hexText ((bytes.drop 4).take 2) ++
      0x2D :: (hexText ((bytes.drop 6).take 2) ++ 0x2D :: (hexText ((bytes.drop 8).take 2) ++
        0x2D :: hexText (bytes.drop 10))))) (by norm_num) (by unfold Dash; omega)
    rw [List.take_zero, List.drop_zero] at first
    rw [uuidText, first, parseUuidLoop_dash (by norm_num [Dash]),
      group 9 2 4 _ (by norm_num) (by unfold Dash; omega), parseUuidLoop_dash (by norm_num [Dash]),
      group 14 2 6 _ (by norm_num) (by unfold Dash; omega), parseUuidLoop_dash (by norm_num [Dash]),
      group 19 2 8 _ (by norm_num) (by unfold Dash; omega), parseUuidLoop_dash (by norm_num [Dash]),
      ← List.append_nil (hexText (bytes.drop 10)), ← last,
      group 24 6 10 _ (by norm_num) (by unfold Dash; omega), parseUuidLoop,
      List.take_of_length_le (by omega)]
  unfold parseUuidText
  split
  · exact .rejected
  · rw [loop]
    dsimp only
    rw [if_pos length]
    exact Meets.ok rfl

/-! ## Sent and printed values -/

theorem holdsNumber_signed {count : ℕ} (number : Signed (8 * count)) :
    HoldsNumber count number (littleEndian count number) :=
  ⟨number.2, rfl⟩

variable (parseDouble : Bytes → Option (ℤ × ℤ))

/-- A sent date is refused or stored exactly, but for minus infinity. -/
theorem binaryDate_exact (time : Extended 32) :
    Meets (binaryDate (bigEndian 4 time.word)) fun slot =>
      ¬(PgValue.date time).NegInfinite → (PgValue.date time).Exact slot := by
  refine Meets.weaken (binaryDate_sent time) ?_
  intro slot sent finite
  obtain ⟨small, rfl⟩ := sent
  cases time with
  | negInfinity => exact absurd trivial finite
  | finite number =>
      have bounds := number.2
      norm_num at bounds
      have below : (number : ℤ) ≤ 2147472690 := small
      exact ⟨fits32.2 ⟨by rw [pgEpoch_dayNumber]; omega, by rw [pgEpoch_dayNumber]; omega⟩, rfl⟩
  | infinity => norm_num [Extended.word] at small

/-- A sent timestamp is refused or stored exactly, but for minus infinity. -/
theorem binaryTimestamp_exact {time : Extended 64} (finite : time ≠ .negInfinity) :
    Meets (binaryTimestamp (bigEndian 8 time.word)) fun slot =>
      (PgValue.timestamp time).Exact slot ∧ (PgValue.timestamptz time).Exact slot := by
  refine Meets.weaken (binaryTimestamp_sent time) ?_
  intro slot sent
  obtain ⟨small, rfl⟩ := sent
  cases time with
  | negInfinity => exact absurd rfl finite
  | finite number =>
      have bounds := number.2
      norm_num at bounds
      have below : (number : ℤ) ≤ 9222425352054775807 := small
      have holds : HoldsNumber 8 (unixMicroseconds number)
          (littleEndian 8 ((number : ℤ) + 946684800000000)) :=
        ⟨fits64.2 ⟨by rw [unixMicroseconds_eq]; omega, by rw [unixMicroseconds_eq]; omega⟩, rfl⟩
      exact ⟨holds, holds⟩
  | infinity => norm_num [Extended.word] at small

theorem binaryTimestamp_safe (time : Extended 64) :
    Meets (binaryTimestamp (bigEndian 8 time.word)) fun _ => True :=
  Meets.weaken (binaryTimestamp_sent time) fun _ _ => trivial

/-- A sent value is refused or stored exactly, but for minus infinity. -/
theorem slotBytes_sent (value : PgValue) :
    Meets (slotBytes parseDouble { typeOid := value.typeOid, format := .binary } value.sent)
      fun slot => ¬value.NegInfinite → value.Exact slot := by
  cases value with
  | bool bit =>
      refine Meets.require fun _ => Meets.ok fun _ => rfl
  | int2 number =>
      refine Meets.require fun _ => Meets.ok fun _ => ?_
      have decoded := @wrap_sent 2 number (by norm_num) number.2
      exact decoded.symm ▸ @holdsNumber_signed 2 number
  | int4 number =>
      refine Meets.require fun _ => Meets.ok fun _ => ?_
      exact (littleEndian_sent 4 number).symm ▸ @holdsNumber_signed 4 number
  | int8 number =>
      refine Meets.require fun _ => Meets.ok fun _ => ?_
      have decoded := @wrap_sent 8 number (by norm_num) number.2
      exact decoded.symm ▸ @holdsNumber_signed 8 number
  | oid number => exact Meets.require fun _ => Meets.ok fun _ => littleEndian_sent 4 number
  | uuid bytes => exact Meets.require fun _ => Meets.ok fun _ => rfl
  | bytea bytes => exact Meets.ok fun _ => rfl
  | date time => exact Meets.require fun _ => binaryDate_exact time
  | timestamp time =>
      refine Meets.require fun _ => ?_
      by_cases finite : time = .negInfinity
      · exact (binaryTimestamp_safe time).weaken fun _ _ other =>
          absurd (finite ▸ trivial) other
      · exact (binaryTimestamp_exact finite).weaken fun _ exact _ => exact.1
  | timestamptz time =>
      refine Meets.require fun _ => ?_
      by_cases finite : time = .negInfinity
      · exact (binaryTimestamp_safe time).weaken fun _ _ other =>
          absurd (finite ▸ trivial) other
      · exact (binaryTimestamp_exact finite).weaken fun _ exact _ => exact.2

theorem infinityText_short : infinityText.length < 19 ∧ (0x2D :: infinityText).length < 19 := by
  decide

/-- A printed timestamp without a zone is refused or stored exactly. -/
theorem timestampText_exact {time : Extended 64} {text : Bytes}
    (prints : PrintsExtended PrintsTimestamp time text) :
    Meets (parseTimestampText text) fun result =>
      (PgValue.timestamp time).Exact (littleEndian 8 result) := by
  cases time with
  | negInfinity =>
      obtain rfl := prints
      exact (parseTimestampText_short infinityText_short.2).weaken fun _ exact => exact.1.elim
  | finite number =>
      refine (parseTimestampText_local (.inl rfl) (fun rest => parseZone_none) prints).weaken
        fun result exact => ?_
      obtain ⟨same, fits⟩ := exact
      rw [zero_mul, sub_zero] at same
      exact ⟨same ▸ fits, same ▸ rfl⟩
  | infinity =>
      obtain rfl := prints
      exact (parseTimestampText_short infinityText_short.1).weaken fun _ exact => exact.1.elim

/-- A timestamp printed in some zone is refused or stored exactly. -/
theorem timestamptzText_exact {time : Extended 64} {text : Bytes}
    (prints : PrintsExtended PrintsZoned time text) :
    Meets (parseTimestampText text) fun result =>
      (PgValue.timestamptz time).Exact (littleEndian 8 result) := by
  cases time with
  | negInfinity =>
      obtain rfl := prints
      exact (parseTimestampText_short infinityText_short.2).weaken fun _ exact => exact.1.elim
  | finite number =>
      obtain ⟨offset, shown⟩ := prints
      refine (parseTimestampText_local (.inr ⟨offset, rfl⟩) (fun rest => parseZone_zoneText)
        shown).weaken fun result exact => ?_
      obtain ⟨same, fits⟩ := exact
      rw [add_sub_cancel_right] at same
      exact ⟨same ▸ fits, same ▸ rfl⟩
  | infinity =>
      obtain rfl := prints
      exact (parseTimestampText_short infinityText_short.1).weaken fun _ exact => exact.1.elim

theorem dateText_exact {time : Extended 32} {text : Bytes}
    (prints : PrintsExtended PrintsDate time text) :
    Meets (parseDateText text) fun days => (PgValue.date time).Exact (littleEndian 4 days) := by
  cases time with
  | negInfinity =>
      obtain rfl := prints
      rw [parseDateText_negInfinity]
      exact .rejected
  | finite number =>
      obtain ⟨date, numbered, rfl⟩ := prints
      refine parseDateText_prints.weaken fun days exact => ?_
      obtain ⟨rfl, fits⟩ := exact
      exact ⟨numbered ▸ fits, congrArg _ numbered⟩
  | infinity =>
      obtain rfl := prints
      rw [parseDateText_infinity]
      exact .rejected

/-- A printed value is refused or stored exactly. -/
theorem slotBytes_printed {value : PgValue} {text : Bytes} (prints : value.Prints text) :
    Meets (slotBytes parseDouble { typeOid := value.typeOid, format := .text } text)
      value.Exact := by
  cases value with
  | bool bit =>
      obtain rfl := prints
      cases bit <;> exact Meets.ok rfl
  | int2 number =>
      obtain rfl := prints
      refine (parseSigned_integer _ _ _).bind fun parsed same => Meets.ok ?_
      exact same.symm ▸ @holdsNumber_signed 2 number
  | int4 number =>
      obtain rfl := prints
      refine (parseSigned_integer _ _ _).bind fun parsed same => Meets.ok ?_
      exact same.symm ▸ @holdsNumber_signed 4 number
  | int8 number =>
      obtain rfl := prints
      refine (parseSigned_integer _ _ _).bind fun parsed same => Meets.ok ?_
      exact same.symm ▸ @holdsNumber_signed 8 number
  | oid number =>
      obtain rfl := prints
      have high := number.2.2
      norm_num at high
      refine (parseUnsigned_integer number.2.1 (by omega)).bind fun parsed same => Meets.ok ?_
      exact congrArg (littleEndian 4) same
  | uuid bytes =>
      obtain rfl := prints
      exact parseUuidText_text bytes.2
  | bytea bytes =>
      obtain rfl := prints
      refine @Meets.weaken Bytes _ (· = bytes) _ ?_ fun _ same => same
      have stored : slotBytes parseDouble { typeOid := 17, format := .text }
          (0x5C :: 0x78 :: hexText bytes) = .ok bytes := by
        simp [slotBytes, valueBytes, mapType, hexBytes_hexText]
      exact stored.symm ▸ Meets.ok rfl
  | date time => exact (dateText_exact prints).bind fun _ exact => Meets.ok exact
  | timestamp time => exact (timestampText_exact prints).bind fun _ exact => Meets.ok exact
  | timestamptz time => exact (timestamptzText_exact prints).bind fun _ exact => Meets.ok exact

end Arrow
end Embedded
end Postgamma
