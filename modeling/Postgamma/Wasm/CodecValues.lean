import Mathlib
import Postgamma.Library.Json

/-!
# Codecs for the values of one element

The text that `Codecs.parameter` writes for a value of a type that is no array, and the value that
`Codecs.value` reads from such a text.  The text of a number that is no safe integer and the text of a
JSON value are left to the functions of the language.
-/

namespace Postgamma.Wasm

open Text (Bytes Utf16)
open Json (SafeInt ascii)

/-- The errors that the codecs throw. -/
inductive CodecError
  | type (message : String)
  | range (message : String)
  /-- A `SyntaxError` of `JSON.parse`. -/
  | parsing

/-- A number of a script: an integer that is safe, minus zero, or another one. -/
inductive JSNumber (ν : Type)
  | safe (number : SafeInt)
  | negativeZero
  | other (number : ν)

/-- A value of a script that is not `undefined`; an object is no array, date or byte array. -/
inductive JSValue (ν κ : Type)
  | null
  | boolean (truth : Bool)
  | number (number : JSNumber ν)
  | bigint (number : ℤ)
  | string (text : Utf16)
  | bytes (bytes : Bytes)
  /-- With the text of `toISOString`. -/
  | date (text : Utf16)
  | array (items : List (JSValue ν κ))
  /-- An object with the values and perhaps the lower bounds of an array. -/
  | arrayValue (values : List (JSValue ν κ)) (lowerBounds : Option (List (JSNumber ν)))
  | object (members : κ)

/-- The functions of the language. -/
structure Builtins (ν κ : Type) where
  nan : ν
  infinity : ν
  negativeInfinity : ν
  /-- `String(number)`. -/
  numberText : ν → Utf16
  /-- `Number(text)`. -/
  number : Utf16 → JSNumber ν
  stringify : JSValue ν κ → Option Utf16
  /-- `JSON.parse`, with nothing for an error. -/
  parse : Utf16 → Option (JSValue ν κ)

variable {ν κ : Type}

/-- `String(number)`. -/
def JSNumber.text (builtins : Builtins ν κ) : JSNumber ν → Utf16
  | safe number => Json.integer number
  | negativeZero => ascii "0"
  | other number => builtins.numberText number

/-- `Number(number)` of a big integer. -/
def JSNumber.ofInt (builtins : Builtins ν κ) (number : ℤ) : JSNumber ν :=
  if small : |number| ≤ 2 ^ 53 - 1 then safe ⟨number, small⟩
  else builtins.number (Json.integer number)

/-- A text that consists of digits. -/
def readNatural (text : Utf16) : Option ℕ :=
  match Json.takeDigits text with
  | (digits, []) => if digits = [] then none else some (Json.digitsValue digits)
  | _ => none

/-- The number of a text that matches `^[+-]?\\d+$`. -/
def readInteger : Utf16 → Option ℤ
  | 0x2D :: rest => (readNatural rest).map fun number : ℕ => -(number : ℤ)
  | 0x2B :: rest => (readNatural rest).map Int.ofNat
  | text => (readNatural text).map Int.ofNat

/-- The text of a value that `integer` looks at. -/
def integerText : JSValue ν κ → Except CodecError Utf16
  | .number (.safe number) => .ok (Json.integer number)
  | .number .negativeZero => .ok (ascii "0")
  | .number (.other _) =>
      .error (.type "Integer numbers must be safe integers; use bigint or text")
  | .bigint number => .ok (Json.integer number)
  | .string text => .ok text
  | _ => .error (.type "Expected an integer")

def integer (value : JSValue ν κ) (least most : ℤ) : Except CodecError ℤ := do
  match readInteger (← integerText value) with
  | none => .error (.type "Expected an integer")
  | some number =>
      if number < least ∨ most < number then
        .error (.range "Integer is outside the PostgreSQL type range")
      else .ok number

/-- Pairs of hexadecimal digits. -/
def hexPairs : Utf16 → Option Bytes
  | [] => some []
  | [_] => none
  | high :: low :: rest => do
      let high ← Json.hexDigit? high
      let low ← Json.hexDigit? low
      return UInt8.ofNat (0x10 * high + low) :: (← hexPairs rest)

def octalDigit? (bound : ℕ) (unit : UInt16) : Option ℕ :=
  (Json.digit? unit).filter fun digit => decide (digit < bound)

def escapedBytes : Utf16 → Except CodecError Bytes
  | [] => .ok []
  | unit :: rest =>
      if unit ≠ 0x5C then
        if 127 < unit.toNat then .error (.type "Invalid bytea escape")
        else (escapedBytes rest).map (UInt8.ofNat unit.toNat :: ·)
      else
        match rest with
        | [] => .error (.type "Invalid bytea escape")
        | first :: rest =>
            if first = 0x5C then (escapedBytes rest).map (0x5C :: ·)
            else
              match rest with
              | second :: third :: rest =>
                  match octalDigit? 4 first, octalDigit? 8 second, octalDigit? 8 third with
                  | some first, some second, some third =>
                      (escapedBytes rest).map
                        (UInt8.ofNat (64 * first + 8 * second + third) :: ·)
                  | _, _, _ => .error (.type "Invalid bytea escape")
              | _ => .error (.type "Invalid bytea escape")

def bytesText : Utf16 → Except CodecError Bytes
  | 0x5C :: 0x78 :: rest =>
      match hexPairs rest with
      | some bytes => .ok bytes
      | none => .error (.type "Invalid bytea hex")
  | text => escapedBytes text

/-- The hexadecimal text of bytes. -/
def hexText (bytes : Bytes) : Utf16 :=
  0x5C :: 0x78 :: bytes.flatMap fun byte =>
    [Json.hexDigit (byte.toNat / 0x10), Json.hexDigit (byte.toNat % 0x10)]

/-- A text behind its sign. -/
def dropSign : Utf16 → Utf16
  | 0x2D :: rest | 0x2B :: rest => rest
  | text => text

/-- A text is an exponent or empty. -/
def isExponent : Utf16 → Bool
  | [] => true
  | unit :: rest =>
      (unit = 0x65 || unit = 0x45) && (readNatural (dropSign rest)).isSome

/-- A text matches `^[+-]?(?:\\d+(?:\\.\\d*)?|\\.\\d+)(?:[eE][+-]?\\d+)?$`. -/
def isFloat (text : Utf16) : Bool :=
  match Json.takeDigits (dropSign text) with
  | ([], 0x2E :: rest) =>
      (Json.takeDigits rest).1 ≠ [] && isExponent (Json.takeDigits rest).2
  | ([], _) => false
  | (_, 0x2E :: rest) => isExponent (Json.takeDigits rest).2
  | (_, rest) => isExponent rest

/-- `CodecOptions.json`. -/
inductive JsonMode
  | text
  | javascript
  deriving DecidableEq

/-- `RawValue`. -/
inductive RawValue
  | text (text : Utf16)
  | bytes (bytes : Bytes)

/-- `TypeCodec` on texts. -/
structure TypeCodec (ν κ : Type) where
  decode : Utf16 → Except CodecError (JSValue ν κ)
  encode : Option (JSValue ν κ → Except CodecError RawValue)

/-- `Codecs`. -/
structure Codecs (ν κ : Type) where
  custom : ℕ → Option (TypeCodec ν κ)
  json : JsonMode
  builtins : Builtins ν κ

/-- The least and the greatest number of an integer type. -/
def integerRange : ℕ → ℤ × ℤ
  | 20 => (-9223372036854775808, 9223372036854775807)
  | 21 => (-32768, 32767)
  | 23 => (-2147483648, 2147483647)
  | _ => (0, 4294967295)

def temporalOids : List ℕ := [1082, 1083, 1114, 1184, 1186, 1266]

namespace Codecs

variable (codecs : Codecs ν κ)

/-- `value` of a text of a type with a codec of its own kind, without the custom ones and arrays. -/
def scalarValue (oid : ℕ) (text : Utf16) : Except CodecError (JSValue ν κ) :=
  if oid = 16 then
    if text = ascii "t" then .ok (.boolean true)
    else if text = ascii "f" then .ok (.boolean false)
    else .error (.type "Invalid boolean")
  else if oid = 17 then (bytesText text).map .bytes
  else if oid = 20 then
    (integer (.string text : JSValue ν κ) (integerRange oid).1 (integerRange oid).2).map .bigint
  else if oid = 21 ∨ oid = 23 ∨ oid = 26 then
    (integer (.string text : JSValue ν κ) (integerRange oid).1 (integerRange oid).2).map
      fun number => .number (JSNumber.ofInt codecs.builtins number)
  else if oid = 700 ∨ oid = 701 then
    if text = ascii "NaN" then .ok (.number (.other codecs.builtins.nan))
    else if text = ascii "Infinity" ∨ text = ascii "-Infinity" then
      .ok (.number (codecs.builtins.number text))
    else if isFloat text then .ok (.number (codecs.builtins.number text))
    else .error (.type "Invalid floating point value")
  else if (oid = 114 ∨ oid = 3802) ∧ codecs.json = .javascript then
    match codecs.builtins.parse text with
    | some value => .ok value
    | none => .error .parsing
  else .ok (.string text)

/-- `parameter` of a value that is not null, of a type without a custom encoder that is no array. -/
def scalarParameter (oid : ℕ) (value : JSValue ν κ) : Except CodecError RawValue :=
  if oid = 17 then
    match value with
    | .bytes bytes => .ok (.bytes bytes)
    | _ => .error (.type "bytea expects Uint8Array")
  else if oid = 16 then
    match value with
    | .boolean truth => .ok (.text (if truth then ascii "t" else ascii "f"))
    | _ => .error (.type "bool expects boolean")
  else if oid = 20 ∨ oid = 21 ∨ oid = 23 ∨ oid = 26 then
    (integer value (integerRange oid).1 (integerRange oid).2).map
      fun number => .text (Json.integer number)
  else if oid = 114 ∨ oid = 3802 then
    match codecs.builtins.stringify value with
    | some text => .ok (.text text)
    | none => .error (.type "Value is not JSON serializable")
  else if oid = 700 ∨ oid = 701 then
    match value with
    | .number number => .ok (.text (number.text codecs.builtins))
    | _ => .error (.type "Float expects number")
  else if oid = 1700 then
    match value with
    | .string text => .ok (.text text)
    | .bigint number => .ok (.text (Json.integer number))
    | _ => .error (.type "numeric expects exact text or bigint")
  else
    match value with
    | .string text => .ok (.text text)
    | .date text =>
        if oid = 1184 then .ok (.text text)
        else if oid ∈ temporalOids then
          .error (.type "Temporal values expect PostgreSQL text")
        else .error (.type "Expected PostgreSQL text or a registered encoder")
    | _ =>
        if oid ∈ temporalOids then .error (.type "Temporal values expect PostgreSQL text")
        else .error (.type "Expected PostgreSQL text or a registered encoder")

/-- `value` of the text of an element. -/
def elementValue (oid : ℕ) (text : Utf16) : Except CodecError (JSValue ν κ) :=
  match codecs.custom oid with
  | some custom => custom.decode text
  | none => codecs.scalarValue oid text

/-- `parameter` of an element that is not null. -/
def elementParameter (oid : ℕ) (value : JSValue ν κ) : Except CodecError RawValue :=
  match codecs.custom oid with
  | some ⟨_, some encode⟩ => encode value
  | _ => codecs.scalarParameter oid value

def elementText (oid : ℕ) (value : JSValue ν κ) : Except CodecError Utf16 := do
  match ← codecs.elementParameter oid value with
  | .bytes bytes =>
      if oid ≠ 17 then .error (.type "Array element encoders must produce text")
      else .ok (hexText bytes)
  | .text text => .ok text

end Codecs

theorem takeDigits_natural (number : ℕ) : Json.takeDigits (Json.natural number) =
    (Json.decimalDigits number, []) := by
  have stop : Json.takeDigits [] = ([], []) := rfl
  have taken := Json.takeDigits_append (Json.decimalDigits_lt number) stop
  rwa [List.append_nil] at taken

theorem decimalDigits_ne_nil (number : ℕ) : Json.decimalDigits number ≠ [] := by
  rcases Json.decimalDigits_cases number with same | ⟨first, rest, same⟩
  · rw [same]
    simp
  · rw [same]
    simp

theorem readNatural_natural (number : ℕ) : readNatural (Json.natural number) = some number := by
  simp only [readNatural, takeDigits_natural, if_neg (decimalDigits_ne_nil number),
    Json.digitsValue_decimalDigits]

/-- A numeral without a sign begins with a digit. -/
theorem natural_head (number : ℕ) :
    ∃ unit rest, Json.natural number = unit :: rest ∧ unit ≠ 0x2D ∧ unit ≠ 0x2B := by
  obtain ⟨unit, rest, same, least, most⟩ := Json.natural_eq_cons number
  refine ⟨unit, rest, same, ?_, ?_⟩
  · rintro rfl
    exact absurd least (by decide)
  · rintro rfl
    exact absurd least (by decide)

theorem dropSign_integer (number : ℤ) :
    dropSign (Json.integer number) = Json.natural number.natAbs := by
  rw [Json.integer]
  split_ifs
  · rfl
  · obtain ⟨unit, rest, same, minus, plus⟩ := natural_head number.natAbs
    rw [same, dropSign]
    · rintro other ⟨⟩
      exact minus rfl
    · rintro other ⟨⟩
      exact plus rfl

theorem readInteger_integer (number : ℤ) : readInteger (Json.integer number) = some number := by
  rw [Json.integer]
  split_ifs with negative
  · simp only [readInteger, readNatural_natural, Option.map_some]
    congr 1
    omega
  · have read := readNatural_natural number.natAbs
    obtain ⟨unit, rest, same, minus, plus⟩ := natural_head number.natAbs
    rw [same] at read ⊢
    rw [readInteger, read, Option.map_some, Int.ofNat_eq_natCast]
    · congr 1
      omega
    · rintro other ⟨⟩
      exact minus rfl
    · rintro other ⟨⟩
      exact plus rfl

theorem isFloat_integer (number : ℤ) : isFloat (Json.integer number) = true := by
  rw [isFloat, dropSign_integer, takeDigits_natural]
  obtain ⟨first, rest, same⟩ := List.exists_cons_of_ne_nil (decimalDigits_ne_nil number.natAbs)
  rw [same]
  rfl

/-- A value whose text is the numeral of a number in the range. -/
theorem integer_inside {value : JSValue ν κ} {number least most : ℤ}
    (written : integerText value = .ok (Json.integer number)) (above : least ≤ number)
    (below : number ≤ most) : integer value least most = .ok number := by
  have inside : ¬(number < least ∨ most < number) := by omega
  simp only [integer, written, readInteger_integer, bind, Except.bind, if_neg inside]

theorem hexPairs_hexText (bytes : Bytes) :
    hexPairs (bytes.flatMap fun byte =>
      [Json.hexDigit (byte.toNat / 0x10), Json.hexDigit (byte.toNat % 0x10)]) = some bytes := by
  induction bytes with
  | nil => rfl
  | cons byte rest induction =>
      have bound := byte.toNat_lt
      rw [List.flatMap_cons]
      simp only [List.cons_append, List.nil_append, hexPairs,
        Json.hexDigit?_hexDigit (show byte.toNat / 0x10 < 16 by omega),
        Json.hexDigit?_hexDigit (show byte.toNat % 0x10 < 16 by omega), induction,
        Option.bind_eq_bind, Option.bind_some]
      have whole : 0x10 * (byte.toNat / 0x10) + byte.toNat % 0x10 = byte.toNat :=
        Nat.div_add_mod byte.toNat 0x10
      rw [whole, UInt8.ofNat_toNat]
      rfl

theorem bytesText_hexText (bytes : Bytes) : bytesText (hexText bytes) = .ok bytes := by
  simp only [bytesText, hexText, hexPairs_hexText]

/-- A value that JSON can write, and that is neither null nor an array. -/
def Builtins.Json (builtins : Builtins ν κ) : JSValue ν κ → Prop
  | .boolean _ | .string _ | .object _ | .number (.safe _) => True
  | .number (.other number) =>
      number ≠ builtins.nan ∧ number ≠ builtins.infinity ∧ number ≠ builtins.negativeInfinity
  | _ => False

/-- What the language says of its functions: a number and a JSON value are read back from their
text. -/
structure Builtins.Lawful (builtins : Builtins ν κ) : Prop where
  number_integer : ∀ number : SafeInt, builtins.number (Json.integer number) = .safe number
  text_nan : builtins.numberText builtins.nan = ascii "NaN"
  text_infinity : builtins.numberText builtins.infinity = ascii "Infinity"
  text_negativeInfinity : builtins.numberText builtins.negativeInfinity = ascii "-Infinity"
  text_finite : ∀ number, number ≠ builtins.nan → number ≠ builtins.infinity →
    number ≠ builtins.negativeInfinity → isFloat (builtins.numberText number) = true
  number_text : ∀ number, builtins.number (builtins.numberText number) = .other number
  json : ∀ value, builtins.Json value →
    ∃ text, builtins.stringify value = some text ∧ builtins.parse text = some value

/-- The types whose values are any text. -/
def IsText (oid : ℕ) : Prop :=
  oid ∉ [16, 17, 20, 21, 23, 26, 700, 701, 114, 3802]

/-- The values that a type decodes texts to and takes as parameters. -/
inductive Codecs.Decoded (codecs : Codecs ν κ) (oid : ℕ) : JSValue ν κ → Prop
  | boolean (plain : codecs.custom oid = none) (known : oid = 16) (truth : Bool) :
      codecs.Decoded oid (.boolean truth)
  | bytes (plain : codecs.custom oid = none) (known : oid = 17) (bytes : Bytes) :
      codecs.Decoded oid (.bytes bytes)
  | bigint (plain : codecs.custom oid = none) (known : oid = 20) (number : ℤ)
      (above : (integerRange oid).1 ≤ number) (below : number ≤ (integerRange oid).2) :
      codecs.Decoded oid (.bigint number)
  | integer (plain : codecs.custom oid = none) (known : oid = 21 ∨ oid = 23 ∨ oid = 26)
      (number : SafeInt) (above : (integerRange oid).1 ≤ number)
      (below : number ≤ (integerRange oid).2) : codecs.Decoded oid (.number (.safe number))
  | float (plain : codecs.custom oid = none) (known : oid = 700 ∨ oid = 701) (number : ν) :
      codecs.Decoded oid (.number (.other number))
  | whole (plain : codecs.custom oid = none) (known : oid = 700 ∨ oid = 701) (number : SafeInt) :
      codecs.Decoded oid (.number (.safe number))
  | json (plain : codecs.custom oid = none) (known : oid = 114 ∨ oid = 3802)
      (mode : codecs.json = .javascript) (value : JSValue ν κ)
      (written : codecs.builtins.Json value) : codecs.Decoded oid value
  | text (plain : codecs.custom oid = none) (known : IsText oid) (text : Utf16) :
      codecs.Decoded oid (.string text)
  /-- A value that a codec of the application reads back. -/
  | custom (codec : TypeCodec ν κ) (registered : codecs.custom oid = some codec)
      (encode : JSValue ν κ → Except CodecError RawValue) (encodes : codec.encode = some encode)
      (value : JSValue ν κ) (item : value ≠ .null) (single : ∀ items, value ≠ .array items)
      (text : Utf16) (encoded : encode value = .ok (.text text))
      (decoded : codec.decode text = .ok value) : codecs.Decoded oid value

theorem Codecs.Decoded.single {codecs : Codecs ν κ} {oid : ℕ} {value : JSValue ν κ}
    (decoded : codecs.Decoded oid value) :
    value ≠ .null ∧ ∀ items, value ≠ .array items := by
  cases decoded with
  | boolean | bytes | bigint | integer | float | whole | text => simp
  | json plain known mode value written =>
      constructor
      · rintro rfl
        exact written
      · rintro items rfl
        exact written
  | custom codec registered encode encodes value item single text encoded decoded =>
      exact ⟨item, single⟩

namespace Codecs

variable {codecs : Codecs ν κ} {oid : ℕ} {value : JSValue ν κ}

theorem elementText_plain (plain : codecs.custom oid = none) {text : Utf16}
    (written : codecs.scalarParameter oid value = .ok (.text text)) :
    codecs.elementText oid value = .ok text := by
  simp only [elementText, elementParameter, plain, written]
  rfl

theorem elementValue_plain (plain : codecs.custom oid = none) (text : Utf16) :
    codecs.elementValue oid text = codecs.scalarValue oid text := by
  rw [elementValue, plain]

theorem scalarParameter_integer (known : oid = 20 ∨ oid = 21 ∨ oid = 23 ∨ oid = 26) :
    codecs.scalarParameter oid value =
      (integer value (integerRange oid).1 (integerRange oid).2).map
        fun number => .text (Json.integer number) := by
  rcases known with rfl | rfl | rfl | rfl <;> rfl

theorem scalarValue_bigint (text : Utf16) :
    codecs.scalarValue 20 text =
      (integer (.string text : JSValue ν κ) (integerRange 20).1 (integerRange 20).2).map .bigint :=
  rfl

theorem scalarValue_integer (known : oid = 21 ∨ oid = 23 ∨ oid = 26) (text : Utf16) :
    codecs.scalarValue oid text =
      (integer (.string text : JSValue ν κ) (integerRange oid).1 (integerRange oid).2).map
        fun number => .number (JSNumber.ofInt codecs.builtins number) := by
  rcases known with rfl | rfl | rfl <;> rfl

theorem scalarValue_number (known : oid = 700 ∨ oid = 701) {text : Utf16}
    (number : text ≠ ascii "NaN") :
    codecs.scalarValue oid text =
      if text = ascii "Infinity" ∨ text = ascii "-Infinity" then
        .ok (.number (codecs.builtins.number text))
      else if isFloat text then .ok (.number (codecs.builtins.number text))
      else .error (.type "Invalid floating point value") := by
  rcases known with rfl | rfl <;> simp [scalarValue, number]

theorem scalarValue_infinity (known : oid = 700 ∨ oid = 701) {text : Utf16}
    (infinite : text = ascii "Infinity" ∨ text = ascii "-Infinity") :
    codecs.scalarValue oid text = .ok (.number (codecs.builtins.number text)) := by
  rw [scalarValue_number known, if_pos infinite]
  rintro rfl
  rcases infinite with same | same <;> exact absurd same (by decide)

theorem scalarValue_float (known : oid = 700 ∨ oid = 701) {text : Utf16}
    (float : isFloat text = true) :
    codecs.scalarValue oid text = .ok (.number (codecs.builtins.number text)) := by
  rw [scalarValue_number known, if_pos float, ite_self]
  rintro rfl
  exact absurd float (by decide)

/-- A value of an element is read back from its text. -/
theorem element_round_trip (lawful : codecs.builtins.Lawful) (decoded : codecs.Decoded oid value) :
    ∃ text, codecs.elementText oid value = .ok text ∧ codecs.elementValue oid text = .ok value := by
  cases decoded with
  | boolean plain known truth =>
      subst known
      refine ⟨if truth then ascii "t" else ascii "f", elementText_plain plain rfl, ?_⟩
      rw [elementValue_plain plain]
      cases truth <;> rfl
  | bytes plain known bytes =>
      subst known
      refine ⟨hexText bytes, ?_, ?_⟩
      · simp only [elementText, elementParameter, plain]
        rfl
      · rw [elementValue_plain plain]
        simp only [scalarValue, bytesText_hexText]
        rfl
  | bigint plain known number above below =>
      refine ⟨Json.integer number, elementText_plain plain ?_, ?_⟩
      · rw [scalarParameter_integer (.inl known), integer_inside rfl above below]
        rfl
      · subst known
        rw [elementValue_plain plain, scalarValue_bigint, integer_inside rfl above below]
        rfl
  | integer plain known number above below =>
      refine ⟨Json.integer number, elementText_plain plain ?_, ?_⟩
      · rw [scalarParameter_integer (.inr known), integer_inside rfl above below]
        rfl
      · rw [elementValue_plain plain, scalarValue_integer known, integer_inside rfl above below]
        simp only [Except.map, JSNumber.ofInt, dif_pos number.2]
  | float plain known number =>
      refine ⟨codecs.builtins.numberText number, elementText_plain plain ?_, ?_⟩
      · rcases known with rfl | rfl <;> rfl
      · rw [elementValue_plain plain]
        by_cases nan : number = codecs.builtins.nan
        · rw [nan, lawful.text_nan]
          rcases known with rfl | rfl <;> rfl
        by_cases infinity : number = codecs.builtins.infinity
        · rw [scalarValue_infinity known (.inl (infinity ▸ lawful.text_infinity)),
            lawful.number_text]
        by_cases negative : number = codecs.builtins.negativeInfinity
        · rw [scalarValue_infinity known (.inr (negative ▸ lawful.text_negativeInfinity)),
            lawful.number_text]
        rw [scalarValue_float known (lawful.text_finite number nan infinity negative),
          lawful.number_text]
  | whole plain known number =>
      refine ⟨Json.integer number, elementText_plain plain ?_, ?_⟩
      · rcases known with rfl | rfl <;> rfl
      · rw [elementValue_plain plain, scalarValue_float known (isFloat_integer number),
          lawful.number_integer]
  | json plain known mode value written =>
      obtain ⟨text, stringified, parsed⟩ := lawful.json value written
      refine ⟨text, elementText_plain plain ?_, ?_⟩
      · rcases known with rfl | rfl <;> simp [scalarParameter, stringified]
      · rw [elementValue_plain plain]
        rcases known with rfl | rfl <;> simp [scalarValue, mode, parsed]
  | text plain known text =>
      simp only [IsText, List.mem_cons, List.not_mem_nil, or_false, not_or] at known
      obtain ⟨h16, h17, h20, h21, h23, h26, h700, h701, h114, h3802⟩ := known
      refine ⟨text, elementText_plain plain ?_, ?_⟩
      · simp only [scalarParameter, h16, h17, h20, h21, h23, h26, h700, h701, h114, h3802, or_self,
          if_false]
        split_ifs <;> rfl
      · rw [elementValue_plain plain]
        simp only [scalarValue, h16, h17, h20, h21, h23, h26, h700, h701, h114, h3802, or_self,
          if_false, false_and]
  | custom codec registered encode encodes value item single text encoded decoded =>
      refine ⟨text, ?_, ?_⟩
      · obtain ⟨decode, encode'⟩ := codec
        cases encodes
        simp only [elementText, elementParameter, registered, encoded]
        rfl
      · rw [elementValue, registered]
        exact decoded

end Codecs

end Postgamma.Wasm
