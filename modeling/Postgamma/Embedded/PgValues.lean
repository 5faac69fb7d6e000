import Mathlib
import Postgamma.Library.Calendar
import Postgamma.Library.Decimal
import Postgamma.Library.TwosComplement

/-!
# PostgreSQL values and their two forms

The values of the types that have an exact Arrow counterpart, the bytes that the send function of
the type writes, and the texts that its output function prints with the ISO date style and the
hexadecimal form of byte strings. A timestamp with time zone is printed in any zone.
-/

namespace Postgamma
namespace Embedded

open Text (Bytes)
open Decimal (digits integer trimmed value zeropad)
open TwosComplement (Fits Signed bigEndian littleEndian)

/-- A time that may be infinite: the extreme words stand for the infinities. -/
inductive Extended (width : ℕ) where
  | negInfinity
  | finite (number : { number : ℤ // -2 ^ (width - 1) < number ∧ number < 2 ^ (width - 1) - 1 })
  | infinity

/-- The word that stands for a time. -/
def Extended.word {width : ℕ} : Extended width → ℤ
  | negInfinity => -2 ^ (width - 1)
  | finite number => number
  | infinity => 2 ^ (width - 1) - 1

/-- A value of one of the types. Dates count days, timestamps microseconds, from the year 2000. -/
inductive PgValue where
  | bool (bit : Bool)
  | int2 (number : Signed 16)
  | int4 (number : Signed 32)
  | int8 (number : Signed 64)
  | oid (number : { number : ℤ // 0 ≤ number ∧ number < 2 ^ 32 })
  | uuid (bytes : { bytes : Bytes // bytes.length = 16 })
  | bytea (bytes : Bytes)
  | date (time : Extended 32)
  | timestamp (time : Extended 64)
  | timestamptz (time : Extended 64)

namespace PgValue

def typeOid : PgValue → ℕ
  | bool _ => 16
  | int2 _ => 21
  | int4 _ => 23
  | int8 _ => 20
  | oid _ => 26
  | uuid _ => 2950
  | bytea _ => 17
  | date _ => 1082
  | timestamp _ => 1114
  | timestamptz _ => 1184

/-- Minus infinity of a date or a timestamp. -/
def NegInfinite : PgValue → Prop
  | date .negInfinity => True
  | timestamp .negInfinity => True
  | timestamptz .negInfinity => True
  | _ => False

/-- The bytes of the send function. -/
def sent : PgValue → Bytes
  | bool bit => [if bit then 1 else 0]
  | int2 number => bigEndian 2 number
  | int4 number => bigEndian 4 number
  | int8 number => bigEndian 8 number
  | oid number => bigEndian 4 number
  | uuid bytes => bytes
  | bytea bytes => bytes
  | date time => bigEndian 4 time.word
  | timestamp time => bigEndian 8 time.word
  | timestamptz time => bigEndian 8 time.word

end PgValue

/-- A hexadecimal digit in lower case. -/
def hexDigit (digit : ℕ) : UInt8 := UInt8.ofNat (if digit < 10 then 0x30 + digit else 0x57 + digit)

/-- Two hexadecimal digits for each byte. -/
def hexText (bytes : Bytes) : Bytes :=
  bytes.flatMap fun byte => [hexDigit (byte.toNat / 16), hexDigit (byte.toNat % 16)]

def uuidText (bytes : Bytes) : Bytes :=
  hexText (bytes.take 4) ++ 0x2D :: (hexText ((bytes.drop 4).take 2) ++
    0x2D :: (hexText ((bytes.drop 6).take 2) ++ 0x2D :: (hexText ((bytes.drop 8).take 2) ++
      0x2D :: hexText (bytes.drop 10))))

/-- The year, month and day of a date. Years before the common era are counted backwards. -/
def dateText (date : Calendar.Date) : Bytes :=
  zeropad 4 (if 0 < date.year then date.year else 1 - date.year).toNat ++
    0x2D :: (zeropad 2 date.month ++ 0x2D :: zeropad 2 date.day)

/-- The era behind a date. -/
def eraText (date : Calendar.Date) : Bytes := if 0 < date.year then [] else [0x20, 0x42, 0x43]

/-- The fraction of a second, without its trailing zeros. -/
def fractionText (fraction : ℕ) : Bytes :=
  if fraction = 0 then [] else 0x2E :: trimmed (digits 6 fraction)

/-- The hour, minute and second of a time of day in microseconds. -/
def clockText (time : ℕ) : Bytes :=
  zeropad 2 (time / 3600000000) ++ 0x3A :: (zeropad 2 (time / 60000000 % 60) ++
    0x3A :: zeropad 2 (time / 1000000 % 60))

/-- A zone that is `offset` seconds ahead of UTC. Minutes and seconds are printed when needed. -/
def zoneText (offset : ℤ) : Bytes :=
  (if 0 ≤ offset then 0x2B else 0x2D) :: (zeropad 2 (offset.natAbs / 3600) ++
    if offset.natAbs % 60 ≠ 0 then
      0x3A :: (zeropad 2 (offset.natAbs / 60 % 60) ++ 0x3A :: zeropad 2 (offset.natAbs % 60))
    else if offset.natAbs / 60 % 60 ≠ 0 then 0x3A :: zeropad 2 (offset.natAbs / 60 % 60)
    else [])

def timestampText (date : Calendar.Date) (time : ℕ) (zone : Bytes) : Bytes :=
  dateText date ++ 0x20 :: (clockText time ++ (fractionText (time % 1000000) ++
    (zone ++ eraText date)))

def infinityText : Bytes := [0x69, 0x6E, 0x66, 0x69, 0x6E, 0x69, 0x74, 0x79]

/-- The first of January 2000, from which dates and timestamps count. -/
def pgEpoch : Calendar.Date :=
  ⟨2000, 1, 1, Nat.one_pos, Nat.le_of_ble_eq_true rfl, Nat.one_pos, Nat.le_of_ble_eq_true rfl⟩

def dayMicroseconds : ℤ := 86400000000

/-- The microseconds since 1970 of a timestamp in UTC. -/
def unixMicroseconds (number : ℤ) : ℤ := number + pgEpoch.dayNumber * dayMicroseconds

/-- The texts that print the microseconds since 1970 of a local time: the date is the one of the
day, the time of day is what remains. -/
def PrintsLocal (moment : ℤ) (zone text : Bytes) : Prop :=
  ∃ date : Calendar.Date, date.dayNumber = moment / dayMicroseconds ∧
    text = timestampText date (moment % dayMicroseconds).toNat zone

def PrintsDate (number : ℤ) (text : Bytes) : Prop :=
  ∃ date : Calendar.Date, date.dayNumber = number + pgEpoch.dayNumber ∧
    text = dateText date ++ eraText date

/-- The texts that print a finite timestamp without a time zone. -/
def PrintsTimestamp (number : ℤ) (text : Bytes) : Prop :=
  PrintsLocal (unixMicroseconds number) [] text

/-- The texts that print a finite timestamp in some zone. -/
def PrintsZoned (number : ℤ) (text : Bytes) : Prop :=
  ∃ offset : ℤ, PrintsLocal (unixMicroseconds number + offset * 1000000) (zoneText offset) text

/-- The texts that print a time, with the texts that print the finite ones. -/
def PrintsExtended {width : ℕ} (finite : ℤ → Bytes → Prop) : Extended width → Bytes → Prop
  | .negInfinity, text => text = 0x2D :: infinityText
  | .finite number, text => finite number text
  | .infinity, text => text = infinityText

/-- The texts that the output function prints for a value. -/
def PgValue.Prints : PgValue → Bytes → Prop
  | .bool bit, text => text = [if bit then 0x74 else 0x66]
  | .int2 number, text => text = integer number
  | .int4 number, text => text = integer number
  | .int8 number, text => text = integer number
  | .oid number, text => text = integer number
  | .uuid bytes, text => text = uuidText bytes
  | .bytea bytes, text => text = 0x5C :: 0x78 :: hexText bytes
  | .date time, text => PrintsExtended PrintsDate time text
  | .timestamp time, text => PrintsExtended PrintsTimestamp time text
  | .timestamptz time, text => PrintsExtended PrintsZoned time text

theorem exists_printsDate (number : ℤ) : ∃ text, PrintsDate number text := by
  obtain ⟨date, numbered⟩ := Calendar.Date.exists_dayNumber (number + pgEpoch.dayNumber)
  exact ⟨_, date, numbered, rfl⟩

theorem exists_printsLocal (moment : ℤ) (zone : Bytes) : ∃ text, PrintsLocal moment zone text := by
  obtain ⟨date, numbered⟩ := Calendar.Date.exists_dayNumber (moment / dayMicroseconds)
  exact ⟨_, date, numbered, rfl⟩

theorem exists_printsExtended {width : ℕ} {finite : ℤ → Bytes → Prop}
    (total : ∀ number, ∃ text, finite number text) (time : Extended width) :
    ∃ text, PrintsExtended finite time text := by
  cases time with
  | negInfinity => exact ⟨_, rfl⟩
  | finite number => exact total number
  | infinity => exact ⟨_, rfl⟩

/-- Every value has a text. -/
theorem PgValue.exists_prints (value : PgValue) : ∃ text, value.Prints text := by
  cases value with
  | date time => exact exists_printsExtended exists_printsDate time
  | timestamp time => exact exists_printsExtended (fun _ => exists_printsLocal _ _) time
  | timestamptz time =>
      refine exists_printsExtended (fun number => ?_) time
      obtain ⟨text, prints⟩ := exists_printsLocal (unixMicroseconds number + 0 * 1000000) (zoneText 0)
      exact ⟨text, 0, prints⟩
  | _ => exact ⟨_, rfl⟩

/-- A slot of `count` bytes holds a number, which fits it. -/
def HoldsNumber (count : ℕ) (number : ℤ) (slot : Bytes) : Prop :=
  Fits (8 * count) number ∧ slot = littleEndian count number

/-- The slots that are exact for a value: days and microseconds count from 1970, and nothing is
exact for an infinite time. -/
def PgValue.Exact : PgValue → Bytes → Prop
  | .bool bit, slot => slot = [if bit then 1 else 0]
  | .int2 number, slot => HoldsNumber 2 number slot
  | .int4 number, slot => HoldsNumber 4 number slot
  | .int8 number, slot => HoldsNumber 8 number slot
  | .oid number, slot => slot = littleEndian 4 number
  | .uuid bytes, slot => slot = bytes
  | .bytea bytes, slot => slot = bytes
  | .date (.finite number), slot => HoldsNumber 4 (number + pgEpoch.dayNumber) slot
  | .timestamp (.finite number), slot => HoldsNumber 8 (unixMicroseconds number) slot
  | .timestamptz (.finite number), slot => HoldsNumber 8 (unixMicroseconds number) slot
  | .date _, _ => False
  | .timestamp _, _ => False
  | .timestamptz _, _ => False

theorem PgValue.Exact.unique {value : PgValue} {first second : Bytes} (one : value.Exact first)
    (other : value.Exact second) : first = second := by
  cases value with
  | date time =>
      cases time with
      | finite number => exact one.2.trans other.2.symm
      | _ => exact one.elim
  | timestamp time =>
      cases time with
      | finite number => exact one.2.trans other.2.symm
      | _ => exact one.elim
  | timestamptz time =>
      cases time with
      | finite number => exact one.2.trans other.2.symm
      | _ => exact one.elim
  | int2 number => exact one.2.trans other.2.symm
  | int4 number => exact one.2.trans other.2.symm
  | int8 number => exact one.2.trans other.2.symm
  | _ => exact Eq.trans one (Eq.symm other)

end Embedded
end Postgamma
