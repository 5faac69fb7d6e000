import Mathlib
import Postgamma.Library.Decimal
import Postgamma.Python.Codec

/-!
# Intervals

A `timedelta` as a parameter and as a column of the type `interval`. The text has one sign in
front of the days; PostgreSQL reads it as the sign of the days alone, while the decoder takes it
for the sign of everything.
-/

namespace Postgamma
namespace Python

open Text (Bytes)
open Decimal (value digits zeropad trimmed takeDigits isDigit)

/-- A `datetime.timedelta`. -/
@[ext]
structure Timedelta where
  days : ℤ
  seconds : ℕ
  microseconds : ℕ
  days_le : days.natAbs ≤ 999999999
  seconds_lt : seconds < 86400
  microseconds_lt : microseconds < 1000000

namespace Timedelta

/-- The microseconds of a duration, with days of 24 hours. -/
def total (duration : Timedelta) : ℤ :=
  duration.days * 86400000000 + duration.seconds * 1000000 + duration.microseconds

/-- The normalization of the constructor; nothing stands for `OverflowError`. -/
def ofTotal (total : ℤ) : Option Timedelta :=
  if bound : (total / 86400000000).natAbs ≤ 999999999 then
    some
      { days := total / 86400000000
        seconds := (total % 86400000000 / 1000000).toNat
        microseconds := (total % 1000000).toNat
        days_le := bound
        seconds_lt := by omega
        microseconds_lt := by omega }
  else none

theorem ofTotal_total (duration : Timedelta) : ofTotal duration.total = some duration := by
  obtain ⟨days, seconds, microseconds, days_le, seconds_lt, microseconds_lt⟩ := duration
  have floor : (days * 86400000000 + seconds * 1000000 + microseconds) / 86400000000 = days := by
    omega
  have middle : ((days * 86400000000 + seconds * 1000000 + microseconds) % 86400000000 /
      1000000).toNat = seconds := by omega
  have rest : ((days * 86400000000 + seconds * 1000000 + microseconds) % 1000000).toNat =
      microseconds := by omega
  simp only [ofTotal, total, floor, middle, rest, dif_pos days_le]

theorem total_injective {first second : Timedelta} (same : first.total = second.total) :
    first = second := by
  have one := ofTotal_total first
  rw [same, ofTotal_total] at one
  exact (Option.some.inj one).symm

/-- Everything up to the largest number of whole days in either direction is a duration. -/
theorem ofTotal_isSome {total : ℤ} (low : -86399999913600000000 ≤ total)
    (high : total < 86400000000000000000) : ∃ duration, ofTotal total = some duration ∧
      duration.total = total := by
  have bound : (total / 86400000000).natAbs ≤ 999999999 := by omega
  refine ⟨_, by rw [ofTotal, dif_pos bound], ?_⟩
  simp only [Timedelta.total]
  omega

end Timedelta

/-- What follows a given word at the head of a text. -/
def skip (word : Bytes) (text : Bytes) : Option Bytes :=
  if word.isPrefixOf text then some (text.drop word.length) else none

/-- A number of exactly two digits. -/
def takeTwo (text : Bytes) : Option (ℕ × Bytes) :=
  let (run, rest) := takeDigits 2 text
  if run.length = 2 then some (value run, rest) else none

/-- A time of day without its sign, in microseconds. -/
structure Clock where
  hours : ℕ
  minutes : ℕ
  seconds : ℕ
  fraction : Bytes

/-- `int((fraction or "0").ljust(6, "0"))`. -/
def ljust (fraction : Bytes) : ℕ :=
  value (fraction ++ List.replicate (6 - fraction.length) 0x30)

/-- The microseconds of a time of day. -/
def Clock.total (clock : Clock) : ℤ :=
  clock.hours * 3600000000 + clock.minutes * 60000000 + clock.seconds * 1000000 +
    ljust clock.fraction

/-- `HH:MM:SS` with at most six digits of a fraction, up to the end of the text. -/
def takeClock (text : Bytes) : Option Clock := do
  let (hours, text) ← takeTwo text
  let text ← skip [0x3A] text
  let (minutes, text) ← takeTwo text
  let text ← skip [0x3A] text
  let (seconds, text) ← takeTwo text
  match text with
  | [] => some ⟨hours, minutes, seconds, []⟩
  | point :: text =>
      let (fraction, rest) := takeDigits 6 text
      if point = 0x2E ∧ fraction ≠ [] ∧ rest = [] then some ⟨hours, minutes, seconds, fraction⟩
      else none

/-- A number of days with its unit and the blanks around it. -/
def takeDays (text : Bytes) : Option (Bytes × Bytes) := do
  let (days, text) := takeDigits text.length text
  if days = [] then none
  let text ← skip [0x20, 0x64, 0x61, 0x79] text
  let text := (skip [0x73] text).getD text
  let text ← skip [0x20] text
  return (days, text)

/-- A sign in front of a number, and what follows it. -/
def takeSign (text : Bytes) : ℤ × Bytes :=
  match skip [0x2D] text with
  | some rest => (-1, rest)
  | none => (1, (skip [0x2B] text).getD text)

/-- The duration that PostgreSQL reads, days and time of day each with a sign of their own. -/
def readInterval (text : Bytes) : Option ℤ := do
  let (sign, text) := takeSign text
  let (days, text) ← takeDays text
  let (clockSign, text) := takeSign text
  let clock ← takeClock text
  return sign * (value days * 86400000000) + clockSign * clock.total

/-- What the decoders raise. -/
inductive DecodeError
  | valueError (message : String)
  /-- `UnicodeDecodeError`. -/
  | notAscii
  /-- `bytes.fromhex` refuses a text. -/
  | notHexadecimal
  /-- `int` refuses a text of so many digits. -/
  | tooManyDigits
  /-- `OverflowError`. -/
  | overflow
  deriving DecidableEq

/-- The groups of `_INTERVAL`. -/
structure IntervalGroups where
  negative : Bool
  days : Bytes
  clock : Clock

/-- `_INTERVAL.fullmatch`. -/
def matchInterval (text : Bytes) : Option IntervalGroups := do
  let negative := (skip [0x2D] text).isSome
  let text := (skip [0x2D] text).getD text
  let (days, text) ← takeDays text
  let clock ← takeClock text
  return ⟨negative, days, clock⟩

def decodeInterval (data : Bytes) (format : Format) : Except DecodeError Timedelta :=
  if format = .binary then .error (.valueError "binary interval decoding is not enabled")
  else if data.any (fun byte => 128 ≤ byte.toNat) then .error .notAscii
  else
    match matchInterval data with
    | none => .error (.valueError "interval contains months, years, or a non-ISO style")
    | some groups =>
        if 4300 < groups.days.length then .error .tooManyDigits
        else
          match Timedelta.ofTotal (value groups.days * 86400000000 + groups.clock.total) with
          | none => .error .overflow
          | some result =>
              if groups.negative then
                match Timedelta.ofTotal (-result.total) with
                | none => .error .overflow
                | some result => .ok result
              else .ok result

theorem utf8_ascii {data : Bytes} (ascii : ∀ byte ∈ data, byte.toNat < 128) :
    utf8 (data.map UInt8.toNat) = .ok data := by
  induction data with
  | nil => rfl
  | cons byte data induction =>
      have small := ascii byte List.mem_cons_self
      have valid : byte.toNat.isValidChar := Or.inl (by omega)
      have tail := induction fun other member => ascii other (List.mem_cons_of_mem _ member)
      have single : String.utf8EncodeChar (Char.ofNat byte.toNat) = [byte] := by
        have point := Text.char_toNat_ofNat valid
        have size : (Char.ofNat byte.toNat).utf8Size = 1 := by
          rw [Char.utf8Size_eq_one_iff, UInt32.le_iff_toNat_le, Char.toNat_val, point]
          simpa using Nat.le_of_lt_succ small
        rw [String.utf8EncodeChar_eq_singleton size]
        congr 1
        rw [← UInt8.toNat_inj, UInt32.toNat_toUInt8, Char.toNat_val, point]
        exact Nat.mod_eq_of_lt byte.toNat_lt
      rw [List.map_cons, utf8, if_pos valid, tail, single]
      rfl

theorem lit_toString (number : ℕ) :
    lit (toString number) = (zeropad 1 number).map UInt8.toNat := by
  rw [lit, ← Decimal.toDigits_eq]
  exact congrArg (List.map Char.toNat) Nat.toList_repr

theorem twoDigits_eq (number : ℕ) :
    twoDigits number = (zeropad 2 number).map UInt8.toNat := by
  rw [twoDigits, lit_toString]
  split_ifs with small
  · rw [Decimal.zeropad_eq (show number < 10 ^ 1 by simpa using small),
      Decimal.zeropad_eq (show number < 10 ^ 2 by omega)]
    have first : number / 10 = 0 := by omega
    simp [digits, first]
    rfl
  · have long : 2 ≤ (Nat.digits 10 number).length :=
      (Nat.lt_digits_length_iff (k := 1) (by norm_num) number).mpr (by omega)
    rw [zeropad, zeropad, max_eq_right (by omega), max_eq_right long]

def fractionBytes (microseconds : ℕ) : Bytes :=
  if microseconds = 0 then [] else 0x2E :: trimmed (zeropad 6 microseconds)

theorem zeropad_six {number : ℕ} (small : number < 1000000) :
    zeropad 6 number = List.replicate (6 - (zeropad 1 number).length) 0x30 ++ zeropad 1 number := by
  have few : (Nat.digits 10 number).length ≤ 6 :=
    (Nat.digits_length_le_iff (by norm_num) number).mpr (by simpa using small)
  have wide : max 1 (Nat.digits 10 number).length ≤ 6 := max_le (by norm_num) few
  have below : number < 10 ^ max 1 (Nat.digits 10 number).length :=
    (Nat.lt_base_pow_length_digits (by norm_num)).trans_le
      (Nat.pow_le_pow_right (by norm_num) (le_max_right ..))
  rw [Decimal.zeropad_eq (show number < 10 ^ 6 by simpa using small), zeropad,
    Decimal.digits_length, ← Decimal.digits_add below, Nat.sub_add_cancel wide]

theorem fraction_eq {microseconds : ℕ} (small : microseconds < 1000000) :
    fraction microseconds = (fractionBytes microseconds).map UInt8.toNat := by
  rw [fraction, fractionBytes, lit_toString]
  split_ifs
  · rfl
  have padded : List.replicate (6 - ((zeropad 1 microseconds).map UInt8.toNat).length) 48 ++
      (zeropad 1 microseconds).map UInt8.toNat = (zeropad 6 microseconds).map UInt8.toNat := by
    rw [zeropad_six small, List.map_append, List.map_replicate, List.length_map]
    rfl
  have zero : (fun byte : UInt8 => byte.toNat == 48) = fun byte => decide (byte = 0x30) := by
    funext byte
    rw [Bool.eq_iff_iff, beq_iff_eq, decide_eq_true_iff, ← UInt8.toNat_inj]
    rfl
  simp only [padded, ← List.map_reverse, List.dropWhile_map, List.map_cons, trimmed,
    List.rdropWhile]
  exact congrArg (fun test => 46 :: ((zeropad 6 microseconds).reverse.dropWhile test).reverse.map
    UInt8.toNat) zero

/-- The octets of a time of day. -/
def clockBytes (rest : ℕ) : Bytes :=
  zeropad 2 (rest / 3600000000) ++ (0x3A :: (zeropad 2 (rest % 3600000000 / 60000000) ++
    (0x3A :: (zeropad 2 (rest % 60000000 / 1000000) ++ fractionBytes (rest % 1000000)))))

def intervalBytes (total : ℤ) : Bytes :=
  (if total < 0 then [0x2D] else []) ++ (zeropad 1 (total.natAbs / 86400000000) ++
    ([0x20, 0x64, 0x61, 0x79, 0x73, 0x20] ++ clockBytes (total.natAbs % 86400000000)))

theorem encodeInterval_eq (duration : Timedelta) :
    encodeInterval duration.days duration.seconds duration.microseconds =
      (intervalBytes duration.total).map UInt8.toNat := by
  have small : duration.total.natAbs % 86400000000 % 1000000 < 1000000 := Nat.mod_lt _ (by norm_num)
  have sign : (if duration.total < 0 then lit "-" else []) =
      (if duration.total < 0 then [0x2D] else []).map UInt8.toNat := by
    split_ifs <;> rfl
  have unit : lit " days " = [0x20, 0x64, 0x61, 0x79, 0x73, 0x20].map UInt8.toNat := rfl
  have colon : lit ":" = [0x3A].map UInt8.toNat := rfl
  have whole : duration.days * 86400000000 + duration.seconds * 1000000 + duration.microseconds =
      duration.total := rfl
  simp only [encodeInterval, intervalBytes, clockBytes, whole, sign, unit, colon, lit_toString,
    twoDigits_eq, fraction_eq small, List.map_append, List.map_cons, List.map_nil,
    List.append_assoc, List.cons_append, List.nil_append]

theorem skip_append (word rest : Bytes) : skip word (word ++ rest) = some rest := by
  rw [skip, if_pos (by simp), List.drop_left]

theorem zeropad_two {number : ℕ} (small : number < 100) : (zeropad 2 number).length = 2 := by
  rw [Decimal.zeropad_eq (show number < 10 ^ 2 by simpa using small), Decimal.digits_length]

theorem takeTwo_zeropad {number : ℕ} (small : number < 100) (rest : Bytes) :
    takeTwo (zeropad 2 number ++ rest) = some (number, rest) := by
  have taken := Decimal.takeDigits_full (Decimal.zeropad_isDigit 2 number) rest
  rw [zeropad_two small] at taken
  simp [takeTwo, taken, zeropad_two small, Decimal.value_zeropad]

theorem ljust_trimmed {number : ℕ} (small : number < 1000000) :
    ljust (trimmed (zeropad 6 number)) = number := by
  have six : (zeropad 6 number).length = 6 := by
    rw [Decimal.zeropad_eq (show number < 10 ^ 6 by simpa using small), Decimal.digits_length]
  have padded := Decimal.value_trimmed (zeropad 6 number)
  have zeros : ∀ (run : Bytes) (count : ℕ),
      value (run ++ List.replicate count 0x30) = value run * 10 ^ count := by
    intro run count
    induction count with
    | zero => simp
    | succ count induction =>
        rw [List.replicate_succ', ← List.append_assoc, Decimal.value_concat, induction, pow_succ]
        simp [Decimal.digitValue]
        ring
  rw [six, Decimal.value_zeropad] at padded
  rw [ljust, zeros, padded]

/-- The time of day that is written, read back. -/
theorem takeClock_clockBytes {rest : ℕ} (small : rest < 86400000000) :
    ∃ clock, takeClock (clockBytes rest) = some clock ∧ clock.total = rest := by
  have below : rest % 1000000 < 1000000 := Nat.mod_lt _ (by norm_num)
  have colon : ∀ text : Bytes, skip [0x3A] (0x3A :: text) = some text := skip_append [0x3A]
  simp only [takeClock, clockBytes, Option.bind_eq_bind,
    takeTwo_zeropad (show rest / 3600000000 < 100 by omega),
    takeTwo_zeropad (show rest % 3600000000 / 60000000 < 100 by omega),
    takeTwo_zeropad (show rest % 60000000 / 1000000 < 100 by omega), Option.bind_some, colon]
  by_cases whole : rest % 1000000 = 0
  · rw [fractionBytes, if_pos whole]
    refine ⟨_, rfl, ?_⟩
    have none : ljust [] = 0 := rfl
    simp only [Clock.total, none]
    omega
  · have nonempty : trimmed (zeropad 6 (rest % 1000000)) ≠ [] :=
      Decimal.trimmed_ne_nil (by rwa [Decimal.value_zeropad])
    have taken : takeDigits 6 (trimmed (zeropad 6 (rest % 1000000))) =
        (trimmed (zeropad 6 (rest % 1000000)), []) := by
      have six : (zeropad 6 (rest % 1000000)).length = 6 := by
        rw [Decimal.zeropad_eq (show rest % 1000000 < 10 ^ 6 by simpa using below),
          Decimal.digits_length]
      have run : takeDigits 6 (trimmed (zeropad 6 (rest % 1000000)) ++ []) =
          (trimmed (zeropad 6 (rest % 1000000)), []) := Decimal.takeDigits_stop
        (fun byte member => Decimal.zeropad_isDigit 6 (rest % 1000000) byte
          (Decimal.trimmed_subset member)) ((Decimal.trimmed_length_le _).trans six.le) (by simp)
      rwa [List.append_nil] at run
    rw [fractionBytes, if_neg whole]
    simp only [taken]
    refine ⟨_, if_pos ⟨trivial, nonempty, trivial⟩, ?_⟩
    simp only [Clock.total, ljust_trimmed below]
    omega

/-- The days that are written, read back in front of anything. -/
theorem takeDays_written (days : ℕ) (rest : Bytes) :
    takeDays (zeropad 1 days ++ ([0x20, 0x64, 0x61, 0x79, 0x73, 0x20] ++ rest)) =
      some (zeropad 1 days, rest) := by
  have taken : takeDigits
      (zeropad 1 days ++ ([0x20, 0x64, 0x61, 0x79, 0x73, 0x20] ++ rest)).length
      (zeropad 1 days ++ ([0x20, 0x64, 0x61, 0x79, 0x73, 0x20] ++ rest)) =
      (zeropad 1 days, [0x20, 0x64, 0x61, 0x79, 0x73, 0x20] ++ rest) := Decimal.takeDigits_stop
    (Decimal.zeropad_isDigit 1 days) (by simp) (by simp [isDigit])
  have day : skip [0x20, 0x64, 0x61, 0x79] ([0x20, 0x64, 0x61, 0x79, 0x73, 0x20] ++ rest) =
      some ([0x73, 0x20] ++ rest) := skip_append [0x20, 0x64, 0x61, 0x79] _
  have plural : skip [0x73] ([0x73, 0x20] ++ rest) = some (0x20 :: rest) := skip_append [0x73] _
  have blank : skip [0x20] (0x20 :: rest) = some rest := skip_append [0x20] _
  simp only [takeDays, taken, if_neg (Decimal.zeropad_ne_nil days one_pos), day, plural, blank,
    Option.bind_eq_bind, Option.bind_some, Option.getD_some, Option.pure_def]

theorem skip_digits {sign : UInt8} (other : isDigit sign = false) {text : Bytes}
    (nonempty : text ≠ []) (all : ∀ byte ∈ text, isDigit byte = true) (rest : Bytes) :
    skip [sign] (text ++ rest) = none := by
  cases text with
  | nil => exact absurd rfl nonempty
  | cons byte text =>
      have differs : sign ≠ byte := by
        rintro rfl
        rw [all sign List.mem_cons_self] at other
        cases other
      simp [skip, differs]

theorem takeSign_digits {text : Bytes} (nonempty : text ≠ [])
    (all : ∀ byte ∈ text, isDigit byte = true) (rest : Bytes) :
    takeSign (text ++ rest) = (1, text ++ rest) := by
  rw [takeSign, skip_digits (by decide) nonempty all, skip_digits (by decide) nonempty all]
  rfl

theorem takeSign_clock (rest : ℕ) : takeSign (clockBytes rest) = (1, clockBytes rest) :=
  takeSign_digits (Decimal.zeropad_ne_nil _ two_pos) (Decimal.zeropad_isDigit 2 _) _

/-- The text behind the sign. -/
def unsignedBytes (magnitude : ℕ) : Bytes :=
  zeropad 1 (magnitude / 86400000000) ++
    ([0x20, 0x64, 0x61, 0x79, 0x73, 0x20] ++ clockBytes (magnitude % 86400000000))

theorem skip_sign (total : ℤ) : skip [0x2D] (intervalBytes total) =
    if total < 0 then some (unsignedBytes total.natAbs) else none := by
  rw [intervalBytes]
  split_ifs
  · exact skip_append [0x2D] _
  · exact skip_digits (by decide) (Decimal.zeropad_ne_nil _ one_pos)
      (Decimal.zeropad_isDigit 1 _) _

theorem takeSign_written (total : ℤ) : takeSign (intervalBytes total) =
    (if total < 0 then -1 else 1, unsignedBytes total.natAbs) := by
  by_cases negative : total < 0
  · simp only [takeSign, skip_sign, if_pos negative]
  · rw [intervalBytes, if_neg negative, if_neg negative, List.nil_append]
    exact takeSign_digits (Decimal.zeropad_ne_nil _ one_pos) (Decimal.zeropad_isDigit 1 _) _

theorem takeDays_unsigned (magnitude : ℕ) : takeDays (unsignedBytes magnitude) =
    some (zeropad 1 (magnitude / 86400000000), clockBytes (magnitude % 86400000000)) :=
  takeDays_written _ _

/-- What the text of a duration denotes: the days with the sign, the time of day without. -/
theorem readInterval_written (total : ℤ) :
    readInterval (intervalBytes total) = some
      ((if total < 0 then -1 else 1) * ((total.natAbs / 86400000000 : ℕ) * 86400000000 : ℤ) +
        (total.natAbs % 86400000000 : ℕ)) := by
  obtain ⟨clock, taken, same⟩ := takeClock_clockBytes
    (Nat.mod_lt total.natAbs (show 0 < 86400000000 by norm_num))
  simp only [readInterval, takeSign_written, takeDays_unsigned, takeSign_clock, taken,
    Option.bind_eq_bind, Option.bind_some, Option.pure_def, Decimal.value_zeropad, same, one_mul]

theorem matchInterval_written (total : ℤ) :
    ∃ clock : Clock, clock.total = (total.natAbs % 86400000000 : ℕ) ∧
      matchInterval (intervalBytes total) =
        some ⟨decide (total < 0), zeropad 1 (total.natAbs / 86400000000), clock⟩ := by
  obtain ⟨clock, taken, same⟩ := takeClock_clockBytes
    (Nat.mod_lt total.natAbs (show 0 < 86400000000 by norm_num))
  refine ⟨clock, same, ?_⟩
  by_cases negative : total < 0
  · have sign : skip [0x2D] (intervalBytes total) = some (unsignedBytes total.natAbs) := by
      rw [skip_sign, if_pos negative]
    simp only [matchInterval, sign, Option.getD_some, takeDays_unsigned, taken,
      Option.bind_eq_bind, Option.bind_some, Option.pure_def, Option.isSome_some,
      decide_eq_true negative]
  · have sign : skip [0x2D] (intervalBytes total) = none := by
      rw [skip_sign, if_neg negative]
    have plain : intervalBytes total = unsignedBytes total.natAbs := by
      rw [intervalBytes, if_neg negative, List.nil_append]
      rfl
    rw [plain] at sign
    simp only [matchInterval, sign, plain, Option.getD_none, takeDays_unsigned, taken,
      Option.bind_eq_bind, Option.bind_some, Option.pure_def, Option.isSome_none,
      decide_eq_false negative]

theorem digit_ascii {byte : UInt8} (digit : isDigit byte = true) : byte.toNat < 128 := by
  simp only [isDigit, Bool.and_eq_true, decide_eq_true_eq] at digit
  omega

theorem intervalBytes_ascii (total : ℤ) : ∀ byte ∈ intervalBytes total, byte.toNat < 128 := by
  have number : ∀ (width amount : ℕ), ∀ byte ∈ zeropad width amount, byte.toNat < 128 :=
    fun width amount byte member => digit_ascii (Decimal.zeropad_isDigit width amount byte member)
  have fraction : ∀ amount, ∀ byte ∈ fractionBytes amount, byte.toNat < 128 := by
    intro amount byte member
    rw [fractionBytes] at member
    split_ifs at member
    · cases member
    · rcases List.mem_cons.mp member with rfl | member
      · decide
      · exact number 6 amount byte (Decimal.trimmed_subset member)
  have word : ∀ byte ∈ ([0x20, 0x64, 0x61, 0x79, 0x73, 0x20] : Bytes), byte.toNat < 128 := by
    simp
  intro byte member
  simp only [intervalBytes, clockBytes, List.mem_append, List.mem_cons (a := byte) (b := 0x3A)]
    at member
  obtain sign | days | unit | hours | rfl | minutes | rfl | seconds | rest := member
  · split_ifs at sign
    · rw [List.mem_singleton.mp sign]
      decide
    · cases sign
  · exact number 1 _ byte days
  · exact word byte unit
  · exact number 2 _ byte hours
  · decide
  · exact number 2 _ byte minutes
  · decide
  · exact number 2 _ byte seconds
  · exact fraction _ byte rest

theorem decodeInterval_written (duration : Timedelta) :
    decodeInterval (intervalBytes duration.total) .text = .ok duration := by
  obtain ⟨clock, rest, found⟩ := matchInterval_written duration.total
  have ascii : (intervalBytes duration.total).any (fun byte => 128 ≤ byte.toNat) = false := by
    simpa using intervalBytes_ascii duration.total
  have bounds : duration.total.natAbs ≤ 86400000000 * 999999999 + 86399999999 := by
    have days := duration.days_le
    have seconds := duration.seconds_lt
    have microseconds := duration.microseconds_lt
    simp only [Timedelta.total]
    omega
  have short : (zeropad 1 (duration.total.natAbs / 86400000000)).length ≤ 4300 := by
    rw [zeropad, Decimal.digits_length]
    have few := (Nat.digits_length_le_iff (b := 10) (k := 9) (by norm_num)
      (duration.total.natAbs / 86400000000)).mpr (by omega)
    omega
  have whole : (value (zeropad 1 (duration.total.natAbs / 86400000000)) * 86400000000 +
      clock.total : ℤ) = duration.total.natAbs := by
    rw [Decimal.value_zeropad, rest]
    omega
  obtain ⟨size, made, sizeTotal⟩ := @Timedelta.ofTotal_isSome
    (duration.total.natAbs : ℤ) (by omega) (by omega)
  rw [decodeInterval, if_neg (by decide), ascii, if_neg (by decide), found]
  simp only [if_neg (Nat.not_lt.mpr short), whole, made, decide_eq_true_eq, sizeTotal]
  have back := Timedelta.ofTotal_total duration
  split_ifs with negative
  · rw [show -(duration.total.natAbs : ℤ) = duration.total by omega, back]
  · refine congrArg Except.ok (Timedelta.total_injective ?_)
    omega

/-- With the sign on the days alone, a negative duration is right without a time of day. -/
theorem signed_days_iff (total : ℤ) :
    (if total < 0 then -1 else 1) * ((total.natAbs / 86400000000 : ℕ) * 86400000000 : ℤ) +
        (total.natAbs % 86400000000 : ℕ) = total ↔
      0 ≤ total ∨ total % 86400000000 = 0 := by
  split_ifs <;> omega

/-- The text of a duration, read by PostgreSQL, denotes that duration exactly when the duration
is not negative or is a number of whole days; the decoder gives it back in any case. -/
theorem interval_denotes_iff {custom : CustomEncoders} (builtin : custom .timedelta = none)
    (duration : Timedelta) :
    (∃ data, encodeParameter custom
          (.timedelta duration.days duration.seconds duration.microseconds) =
        .ok ⟨intervalOid, .text, false, data⟩ ∧
      readInterval data = some duration.total ∧ decodeInterval data .text = .ok duration) ↔
      0 ≤ duration.days ∨ duration.seconds = 0 ∧ duration.microseconds = 0 := by
  have encoded : encodeParameter custom
      (.timedelta duration.days duration.seconds duration.microseconds) =
        .ok ⟨intervalOid, .text, false, intervalBytes duration.total⟩ := by
    have octets := utf8_ascii (intervalBytes_ascii duration.total)
    have present : (Value.timedelta duration.days duration.seconds
        duration.microseconds).isNone = false := rfl
    rw [encodeParameter, present, if_neg Bool.false_ne_true, Value.classOf, builtin]
    simp only [Value.base, encodeBuiltin, encodeInterval_eq, text, octets]
    rfl
  have whole : (0 ≤ duration.total ∨ duration.total % 86400000000 = 0) ↔
      0 ≤ duration.days ∨ duration.seconds = 0 ∧ duration.microseconds = 0 := by
    have seconds := duration.seconds_lt
    have microseconds := duration.microseconds_lt
    simp only [Timedelta.total]
    omega
  rw [← whole, ← signed_days_iff]
  constructor
  · rintro ⟨data, same, read, -⟩
    rw [encoded, Except.ok.injEq, EncodedParameter.mk.injEq] at same
    rw [← same.2.2.2, readInterval_written, Option.some.injEq] at read
    exact read
  · intro agrees
    refine ⟨_, encoded, ?_, decodeInterval_written duration⟩
    rw [readInterval_written, agrees]

/-- `timedelta(hours=-12)`. -/
def halfDayBefore : Timedelta where
  days := -1
  seconds := 43200
  microseconds := 0
  days_le := by norm_num
  seconds_lt := by norm_num
  microseconds_lt := by norm_num

theorem interval_denotes_iff_halfDay :
    (∃ data, encodeParameter (fun _ => none) (.timedelta halfDayBefore.days
          halfDayBefore.seconds halfDayBefore.microseconds) =
        .ok ⟨intervalOid, .text, false, data⟩ ∧
      readInterval data = some halfDayBefore.total ∧
      decodeInterval data .text = .ok halfDayBefore) ↔
      0 ≤ halfDayBefore.days ∨ halfDayBefore.seconds = 0 ∧ halfDayBefore.microseconds = 0 :=
  @interval_denotes_iff (fun _ => none) rfl halfDayBefore

/-- Twelve hours before become the text of twelve hours after. -/
theorem half_day_misread :
    ∃ data, encodeParameter (fun _ => none) (.timedelta halfDayBefore.days
          halfDayBefore.seconds halfDayBefore.microseconds) =
        .ok ⟨intervalOid, .text, false, data⟩ ∧
      readInterval data = some 43200000000 ∧ halfDayBefore.total = -43200000000 :=
  ⟨[0x2D, 0x30, 0x20, 0x64, 0x61, 0x79, 0x73, 0x20, 0x31, 0x32, 0x3A, 0x30, 0x30, 0x3A, 0x30,
    0x30], rfl, rfl, rfl⟩

end Python
end Postgamma
