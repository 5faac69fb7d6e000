import Mathlib
import Postgamma.Library.Decimal
import Postgamma.Library.TwosComplement

/-!
# Decoding of PostgreSQL values for the Arrow export

The two decoders of every fixed-width type, the one of its binary and the one of its text form, and
the bytes of the variable-width types. Signed computations are checked: one that leaves its type is
an overflow, which is told apart from a refused value.
-/

namespace Postgamma
namespace Embedded
namespace Arrow

open Text (Bytes)
open Decimal (isDigit digitValue takeDigits)
open TwosComplement (Fits littleEndian unsigned wrap)

/-- Why a conversion has no result. -/
inductive Failure where
  /-- The value is refused. -/
  | rejected
  /-- A signed computation leaves its type. -/
  | overflow
  deriving DecidableEq, Repr

/-- Go on only under a condition. -/
def require (condition : Prop) [Decidable condition] : Except Failure Unit :=
  if condition then .ok () else .error .rejected

/-- The result of a signed computation in a type of `width` bits. -/
def checked (width : ℕ) (number : ℤ) : Except Failure ℤ :=
  if Fits width number then .ok number else .error .overflow

/-- An `int` computation. -/
abbrev int32 : ℤ → Except Failure ℤ := checked 32

/-- An `int64_t` computation. -/
abbrev int64 : ℤ → Except Failure ℤ := checked 64

/-- The white space of the C locale. -/
def isSpace (byte : UInt8) : Bool := byte = 0x20 || (9 ≤ byte.toNat && byte.toNat ≤ 13)

/-- The sign in front of a number, and what follows it. -/
def takeSign : Bytes → ℤ × ℕ × Bytes
  | 0x2D :: rest => (-1, 1, rest)
  | 0x2B :: rest => (1, 1, rest)
  | text => (1, 0, text)

/-- The integer at the head of a text: white space, a sign and digits, of which sign and digits
take `width` characters at most. -/
def scanInteger (width : ℕ) (text : Bytes) : Option (ℤ × Bytes) :=
  let (sign, used, text) := takeSign (text.dropWhile isSpace)
  let (run, rest) := takeDigits (width - used) text
  if run = [] then none else some (sign * Decimal.value run, rest)

/-- The parts of a `sscanf` format. -/
inductive Directive where
  /-- `%<width>d` and `%<width>u`. -/
  | integer (width : ℕ)
  /-- A character that must be there. -/
  | byte (byte : UInt8)
  /-- A blank, which takes any white space. -/
  | space

/-- The numbers that `sscanf` assigns. -/
def sscanf : List Directive → Bytes → List ℤ
  | [], _ => []
  | .integer width :: format, text =>
      match scanInteger width text with
      | some (number, rest) => number :: sscanf format rest
      | none => []
  | .byte byte :: format, text =>
      match text with
      | first :: rest => if first = byte then sscanf format rest else []
      | [] => []
  | .space :: format, text => sscanf format (text.dropWhile isSpace)

/-- `strtoll` in base ten: the number and what follows it. Nothing stands for a text without a
number and for a number out of range. -/
def strtoll (text : Bytes) : Option (ℤ × Bytes) :=
  (scanInteger text.length text).filter fun scanned => Fits 64 scanned.1

/-- `strtoull` in base ten. A negative number wraps. -/
def strtoull (text : Bytes) : Option (ℤ × Bytes) :=
  ((scanInteger text.length text).filter fun scanned => scanned.1.natAbs < 2 ^ 64).map
    fun scanned => (scanned.1 % 2 ^ 64, scanned.2)

def hexValue (byte : UInt8) : Option ℕ :=
  if 0x30 ≤ byte.toNat ∧ byte.toNat ≤ 0x39 then some (byte.toNat - 0x30)
  else if 0x61 ≤ byte.toNat ∧ byte.toNat ≤ 0x66 then some (byte.toNat - 0x61 + 10)
  else if 0x41 ≤ byte.toNat ∧ byte.toNat ≤ 0x46 then some (byte.toNat - 0x41 + 10)
  else none

/-- The byte of two hexadecimal digits. -/
def hexByte (high low : UInt8) : Option UInt8 := do
  let high ← hexValue high
  let low ← hexValue low
  return UInt8.ofNat (high * 16 + low)

def parseBool (data : Bytes) : Except Failure Bool :=
  if data = [0x74] ∨ data = [0x31] then .ok true
  else if data = [0x66] ∨ data = [0x30] then .ok false
  else if data = [0x74, 0x72, 0x75, 0x65] then .ok true
  else if data = [0x66, 0x61, 0x6C, 0x73, 0x65] then .ok false
  else .error .rejected

/-- `parse_signed`. The copy of the text ends with a zero byte, at which the number must end. -/
def parseSigned (minimum maximum : ℤ) (data : Bytes) : Except Failure ℤ :=
  if data.length = 0 ∨ 96 ≤ data.length then .error .rejected
  else
    match strtoll (data ++ [0]) with
    | none => .error .rejected
    | some (parsed, rest) =>
        if rest.length ≠ 1 ∨ parsed < minimum ∨ maximum < parsed then .error .rejected
        else .ok parsed

def parseUnsigned (maximum : ℤ) (data : Bytes) : Except Failure ℤ :=
  if data.length = 0 ∨ 96 ≤ data.length ∨ data.head? = some 0x2D then .error .rejected
  else
    match strtoull (data ++ [0]) with
    | none => .error .rejected
    | some (parsed, rest) =>
        if rest.length ≠ 1 ∨ maximum < parsed then .error .rejected else .ok parsed

def civilDays (year : ℤ) (month day : UInt32) : Except Failure ℤ := do
  let adjustedYear ← int32 (year - if month ≤ 2 then 1 else 0)
  let dividend ← if 0 ≤ adjustedYear then .ok adjustedYear else int32 (adjustedYear - 399)
  let era := dividend.tdiv 400
  let cycle ← int32 (era * 400)
  let remainder ← int32 (adjustedYear - cycle)
  let yearOfEra := UInt32.ofInt remainder
  let adjustedMonth := if 2 < month then month - 3 else month + 9
  let dayOfYear := (153 * adjustedMonth + 2) / 5 + day - 1
  let dayOfEra := yearOfEra * 365 + yearOfEra / 4 - yearOfEra / 100 + dayOfYear
  let days ← int64 (era * 146097)
  let days ← int64 (days + dayOfEra.toNat)
  int64 (days - 719468)

def parseDateText (data : Bytes) : Except Failure ℤ := do
  require (data.length = 10 ∧ data[4]? = some 0x2D ∧ data[7]? = some 0x2D)
  match sscanf [.integer 4, .byte 0x2D, .integer 2, .byte 0x2D, .integer 2] (data ++ [0]) with
  | [year, month, day] => do
      let month := UInt32.ofInt month
      let day := UInt32.ofInt day
      require (1 ≤ month ∧ month ≤ 12 ∧ 1 ≤ day ∧ day ≤ 31)
      let converted ← civilDays year month day
      require (Fits 32 converted)
      return converted
  | _ => .error .rejected

/-- The digits of a fraction: the first six count. -/
def fractionDigits (fraction : ℤ) (count : ℕ) : Bytes → Except Failure (ℤ × ℕ × Bytes)
  | [] => .ok (fraction, count, [])
  | byte :: rest =>
      if isDigit byte then
        if count < 6 then do
          let scaled ← int64 (fraction * 10)
          let fraction ← int64 (scaled + digitValue byte)
          fractionDigits fraction (count + 1) rest
        else fractionDigits fraction (count + 1) rest
      else .ok (fraction, count, byte :: rest)

/-- The zeros that a fraction of fewer than six digits lacks. -/
def padFraction (fraction : ℤ) : ℕ → Except Failure ℤ
  | 0 => .ok fraction
  | missing + 1 => do
      let fraction ← int64 (fraction * 10)
      padFraction fraction missing

/-- The fraction of a second, in microseconds. -/
def parseFraction : Bytes → Except Failure (ℤ × Bytes)
  | 0x2E :: cursor => do
      let (fraction, count, cursor) ← fractionDigits 0 0 cursor
      require (count ≠ 0)
      let fraction ← padFraction fraction (6 - count)
      return (fraction, cursor)
  | cursor => .ok (0, cursor)

def twoDigits : Bytes → Except Failure (ℕ × Bytes)
  | first :: second :: cursor =>
      if isDigit first && isDigit second then
        .ok (digitValue first * 10 + digitValue second, cursor)
      else .error .rejected
  | _ => .error .rejected

/-- A zone offset. -/
structure Zone where
  sign : ℤ
  hour : ℕ
  minute : ℕ

/-- The minutes of a zone offset, if they are there. -/
def zoneMinutes : Bytes → Except Failure (ℕ × Bytes)
  | 0x3A :: cursor => twoDigits cursor
  | cursor => .ok (0, cursor)

def zoneOffset (sign : ℤ) (cursor : Bytes) : Except Failure (Zone × Bytes) := do
  let (hour, cursor) ← twoDigits cursor
  let (minute, cursor) ← zoneMinutes cursor
  require (hour ≤ 23 ∧ minute ≤ 59)
  return ({ sign, hour, minute }, cursor)

/-- The zone offset, if it is there. -/
def parseZone : Bytes → Except Failure (Zone × Bytes)
  | 0x2B :: cursor => zoneOffset 1 cursor
  | 0x2D :: cursor => zoneOffset (-1) cursor
  | cursor => .ok ({ sign := 0, hour := 0, minute := 0 }, cursor)

/-- The seconds since the epoch of a date, a time of day and a zone offset. -/
def zonedSeconds (days : ℤ) (hour minute second : UInt32) (zone : Zone) : Except Failure ℤ := do
  let seconds ← int64 (days * 86400)
  let hours ← int64 (hour.toNat * 3600)
  let seconds ← int64 (seconds + hours)
  let minutes ← int64 (minute.toNat * 60)
  let seconds ← int64 (seconds + minutes)
  let seconds ← int64 (seconds + second.toNat)
  let offsetHours ← int64 (zone.hour * 3600)
  let offsetMinutes ← int64 (zone.minute * 60)
  let magnitude ← int64 (offsetHours + offsetMinutes)
  let offset ← int64 (zone.sign * magnitude)
  int64 (seconds - offset)

/-- The microseconds of seconds and a fraction. -/
def microseconds (seconds fraction : ℤ) : Except Failure ℤ := do
  require (seconds ≤ Int.tdiv 9223372036854775807 1000000 ∧
    Int.tdiv (-9223372036854775808) 1000000 ≤ seconds)
  let scaled ← int64 (seconds * 1000000)
  int64 (scaled + fraction)

def parseTimestampText (data : Bytes) : Except Failure ℤ := do
  require (19 ≤ data.length ∧ data.length < 128)
  match sscanf [.integer 4, .byte 0x2D, .integer 2, .byte 0x2D, .integer 2, .space, .integer 2,
      .byte 0x3A, .integer 2, .byte 0x3A, .integer 2] (data ++ [0]) with
  | [year, month, day, hour, minute, second] => do
      let hour := UInt32.ofInt hour
      let minute := UInt32.ofInt minute
      let second := UInt32.ofInt second
      require (hour ≤ 23 ∧ minute ≤ 59 ∧ second ≤ 60)
      let (fraction, cursor) ← parseFraction ((data ++ [0]).drop 19)
      let (zone, cursor) ← parseZone cursor
      require (cursor.head? = some 0)
      let days ← civilDays year (UInt32.ofInt month) (UInt32.ofInt day)
      let seconds ← zonedSeconds days hour minute second zone
      microseconds seconds fraction
  | _ => .error .rejected

/-- The loop of `parse_uuid_text`: the position of the input and the bytes written. -/
def parseUuidLoop (input : ℕ) (output : Bytes) : Bytes → Option Bytes
  | [] => some output
  | byte :: rest =>
      if input = 8 ∨ input = 13 ∨ input = 18 ∨ input = 23 then
        if byte = 0x2D then parseUuidLoop (input + 1) output rest else none
      else
        match rest with
        | [] => none
        | next :: rest =>
            if 16 ≤ output.length then none
            else
              match hexByte byte next with
              | some written => parseUuidLoop (input + 2) (output ++ [written]) rest
              | none => none

def parseUuidText (data : Bytes) : Except Failure Bytes :=
  if data.length ≠ 36 then .error .rejected
  else
    match parseUuidLoop 0 [] data with
    | some output => if output.length = 16 then .ok output else .error .rejected
    | none => .error .rejected

/-- The bytes of a hexadecimal text. -/
def hexBytes : Bytes → Option Bytes
  | [] => some []
  | high :: low :: rest => do
      let byte ← hexByte high low
      let bytes ← hexBytes rest
      return byte :: bytes
  | _ => none

/-- The format of a result column. -/
inductive Format where
  | text
  | binary
  deriving DecidableEq, Repr

/-- What the export reads of a result column. -/
structure ResultField where
  typeOid : ℕ
  format : Format
  deriving DecidableEq, Repr

/-- The kinds of Arrow columns. -/
inductive ArrowKind where
  | bool
  | int16
  | int32
  | uint32
  | int64
  | float32
  | float64
  | date32
  | timestamp
  | uuid
  | utf8
  | binary
  deriving DecidableEq, Repr

/-- An Arrow type: its format string, its width in bytes and whether its width varies. -/
structure ArrowType where
  kind : ArrowKind
  format : String
  width : ℕ
  isVariable : Bool

def mapType (field : ResultField) : ArrowType :=
  match field.typeOid with
  | 16 => ⟨.bool, "b", 1, false⟩
  | 21 => ⟨.int16, "s", 2, false⟩
  | 23 => ⟨.int32, "i", 4, false⟩
  | 26 => ⟨.uint32, "I", 4, false⟩
  | 20 => ⟨.int64, "l", 8, false⟩
  | 700 => ⟨.float32, "f", 4, false⟩
  | 701 => ⟨.float64, "g", 8, false⟩
  | 1082 => ⟨.date32, "tdD", 4, false⟩
  | 1114 => ⟨.timestamp, "tsu:", 8, false⟩
  | 1184 => ⟨.timestamp, "tsu:UTC", 8, false⟩
  | 2950 => ⟨.uuid, "w:16", 16, false⟩
  | 17 => ⟨.binary, "z", 0, true⟩
  | 25 => ⟨.utf8, "u", 0, true⟩
  | 1042 => ⟨.utf8, "u", 0, true⟩
  | 1043 => ⟨.utf8, "u", 0, true⟩
  | _ => if field.format = .binary then ⟨.binary, "z", 0, true⟩ else ⟨.utf8, "u", 0, true⟩

def valueBytes (field : ResultField) (data : Bytes) (kind : ArrowKind) : Except Failure Bytes :=
  if kind = .uuid then
    if field.format = .binary then
      if data.length ≠ 16 then .error .rejected else .ok data
    else parseUuidText data
  else if field.typeOid = 17 ∧ field.format = .text then
    match data with
    | 0x5C :: 0x78 :: digits =>
        match hexBytes digits with
        | some bytes => .ok bytes
        | none => .error .rejected
    | _ => .error .rejected
  else .ok data

/-- A date of the binary format, counted from the year 2000. -/
def binaryDate (data : Bytes) : Except Failure Bytes := do
  let date := wrap 32 (unsigned data)
  require (date ≤ 2147483647 - 10957)
  let date ← int32 (date + 10957)
  return littleEndian 4 date

/-- A timestamp of the binary format, counted from the year 2000. -/
def binaryTimestamp (data : Bytes) : Except Failure Bytes := do
  let converted := wrap 64 (unsigned data)
  require (converted ≤ 9223372036854775807 - 946684800000000)
  let converted ← int64 (converted + 946684800000000)
  return littleEndian 8 converted

/-- The binary half of `convert_fixed_value`: the bytes that are stored at the target. -/
def convertBinary (data : Bytes) : ArrowKind → Except Failure Bytes
  | .bool => do
      require (data.length = 1 ∧ data.headD 0 ≤ 1)
      return data
  | .int16 => do
      require (data.length = 2)
      return littleEndian 2 (wrap 16 (unsigned data))
  | .int32 | .uint32 | .float32 => do
      require (data.length = 4)
      return littleEndian 4 (unsigned data)
  | .date32 => do
      require (data.length = 4)
      binaryDate data
  | .int64 => do
      require (data.length = 8)
      return littleEndian 8 (wrap 64 (unsigned data))
  | .timestamp => do
      require (data.length = 8)
      binaryTimestamp data
  | .float64 => do
      require (data.length = 8)
      return littleEndian 8 (unsigned data)
  | .uuid => do
      require (data.length = 16)
      return data
  | .utf8 | .binary => .error .rejected

variable (parseDouble : Bytes → Option (ℤ × ℤ))

/-- The text half of `convert_fixed_value`. The parameter is `parse_double`: the bits of the double
and of the float it is narrowed to. -/
def convertText (data : Bytes) : ArrowKind → Except Failure Bytes
  | .bool => do
      let converted ← parseBool data
      return [if converted then 1 else 0]
  | .int16 => do
      let converted ← parseSigned (-32768) 32767 data
      return littleEndian 2 converted
  | .int32 => do
      let converted ← parseSigned (-2147483648) 2147483647 data
      return littleEndian 4 converted
  | .uint32 => do
      let converted ← parseUnsigned 4294967295 data
      return littleEndian 4 converted
  | .int64 => do
      let converted ← parseSigned (-9223372036854775808) 9223372036854775807 data
      return littleEndian 8 converted
  | .float32 =>
      match parseDouble data with
      | some (_, bits) => .ok (littleEndian 4 bits)
      | none => .error .rejected
  | .float64 =>
      match parseDouble data with
      | some (bits, _) => .ok (littleEndian 8 bits)
      | none => .error .rejected
  | .date32 => do
      let days ← parseDateText data
      return littleEndian 4 days
  | .timestamp => do
      let microseconds ← parseTimestampText data
      return littleEndian 8 microseconds
  | .uuid => parseUuidText data
  | .utf8 | .binary => .error .rejected

def convertFixedValue (field : ResultField) (data : Bytes) (kind : ArrowKind) :
    Except Failure Bytes :=
  match field.format with
  | .binary => convertBinary data kind
  | .text => convertText parseDouble data kind

/-- The bytes that the export stores for a value. -/
def slotBytes (field : ResultField) (data : Bytes) : Except Failure Bytes :=
  if (mapType field).isVariable then valueBytes field data (mapType field).kind
  else convertFixedValue parseDouble field data (mapType field).kind

end Arrow
end Embedded
end Postgamma
