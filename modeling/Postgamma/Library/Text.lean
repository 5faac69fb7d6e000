import Mathlib.Tactic

/-!
# UTF-16 strings and the UTF-8 encoder and decoder of the Encoding standard

A script string is a sequence of UTF-16 code units and may hold lone surrogates. The encoder
first replaces each of them by the replacement character and then writes UTF-8; the decoder is
the fatal UTF-8 decoder, which drops one leading byte order mark. A string survives the round
trip exactly when it is well formed and does not start with that mark.
-/

namespace Postgamma
namespace Text

/-- A sequence of octets. -/
abbrev Bytes := List UInt8

/-- A script string as its UTF-16 code units. -/
abbrev Utf16 := List UInt16

/-- A leading surrogate code unit. -/
abbrev High (unit : UInt16) : Prop := 0xD800 ≤ unit.toNat ∧ unit.toNat ≤ 0xDBFF

/-- A trailing surrogate code unit. -/
abbrev Low (unit : UInt16) : Prop := 0xDC00 ≤ unit.toNat ∧ unit.toNat ≤ 0xDFFF

/-- A surrogate code unit of either kind. -/
abbrev Surrogate (unit : UInt16) : Prop := 0xD800 ≤ unit.toNat ∧ unit.toNat ≤ 0xDFFF

def replacement : Char := Char.ofNat 0xFFFD

def byteOrderMark : Char := Char.ofNat 0xFEFF

/-- The scalar value of a code unit that is not part of a surrogate pair. -/
def scalarOf (unit : UInt16) : Char :=
  if Surrogate unit then replacement else Char.ofNat unit.toNat

def pairScalar (high low : UInt16) : Char :=
  Char.ofNat (0x10000 + (high.toNat - 0xD800) * 0x400 + (low.toNat - 0xDC00))

/-- Conversion to scalar values: lone surrogates become the replacement character. -/
def toScalars : Utf16 → List Char
  | [] => []
  | [unit] => [scalarOf unit]
  | first :: second :: rest =>
      if High first ∧ Low second then
        pairScalar first second :: toScalars rest
      else
        scalarOf first :: toScalars (second :: rest)

/-- The UTF-16 code units of a scalar value. -/
def unitsOf (scalar : Char) : Utf16 :=
  if scalar.toNat < 0x10000 then
    [UInt16.ofNat scalar.toNat]
  else
    [UInt16.ofNat (0xD800 + (scalar.toNat - 0x10000) / 0x400),
      UInt16.ofNat (0xDC00 + (scalar.toNat - 0x10000) % 0x400)]

/-- The UTF-16 string of a sequence of scalar values. -/
def ofScalars (scalars : List Char) : Utf16 := scalars.flatMap unitsOf

/-- Every surrogate of the string is part of a pair. -/
def WellFormed : Utf16 → Prop
  | [] => True
  | [unit] => ¬Surrogate unit
  | first :: second :: rest =>
      if High first ∧ Low second then
        WellFormed rest
      else
        ¬Surrogate first ∧ WellFormed (second :: rest)

/-- Drop one leading byte order mark. -/
def stripMark : List Char → List Char
  | [] => []
  | scalar :: scalars => if scalar = byteOrderMark then scalars else scalar :: scalars

def encode (text : Utf16) : Bytes := (toScalars text).flatMap String.utf8EncodeChar

/-- `TextDecoder.decode` of a fatal UTF-8 decoder that was not asked to keep the mark. -/
def decode (bytes : Bytes) : Option Utf16 :=
  bytes.toByteArray.utf8Decode?.map fun scalars => ofScalars (stripMark scalars.toList)

theorem char_toNat_ofNat {value : Nat} (valid : value.isValidChar) :
    (Char.ofNat value).toNat = value := by
  rw [Char.ofNat, dif_pos valid]
  exact UInt32.toNat_ofNatLT

theorem char_isValid (scalar : Char) :
    scalar.toNat < 0xD800 ∨ 0xDFFF < scalar.toNat ∧ scalar.toNat < 0x110000 :=
  scalar.valid

theorem unit_toNat_lt (unit : UInt16) : unit.toNat < 0x10000 := unit.toNat_lt

theorem toNat_ofNat_unit {value : Nat} (small : value < 0x10000) :
    (UInt16.ofNat value).toNat = value := by
  simpa using Nat.mod_eq_of_lt small

theorem toScalars_cons {unit : UInt16} (plain : ¬Surrogate unit) (rest : Utf16) :
    toScalars (unit :: rest) = Char.ofNat unit.toNat :: toScalars rest := by
  cases rest with
  | nil => simp [toScalars, scalarOf, plain]
  | cons second rest =>
      have single : ¬(High unit ∧ Low second) := by
        rintro ⟨high, -⟩
        exact plain ⟨high.1, by omega⟩
      simp [toScalars, scalarOf, plain, single]

theorem toScalars_unitsOf_append (scalar : Char) (rest : Utf16) :
    toScalars (unitsOf scalar ++ rest) = scalar :: toScalars rest := by
  have valid := char_isValid scalar
  by_cases basic : scalar.toNat < 0x10000
  · have value := toNat_ofNat_unit basic
    have plain : ¬Surrogate (UInt16.ofNat scalar.toNat) := by
      rw [Surrogate, value]
      omega
    rw [unitsOf, if_pos basic, List.singleton_append, toScalars_cons plain, value,
      Char.ofNat_toNat]
  · have highValue : (UInt16.ofNat (0xD800 + (scalar.toNat - 0x10000) / 0x400)).toNat =
        0xD800 + (scalar.toNat - 0x10000) / 0x400 := toNat_ofNat_unit (by omega)
    have lowValue : (UInt16.ofNat (0xDC00 + (scalar.toNat - 0x10000) % 0x400)).toNat =
        0xDC00 + (scalar.toNat - 0x10000) % 0x400 := toNat_ofNat_unit (by omega)
    have paired : High (UInt16.ofNat (0xD800 + (scalar.toNat - 0x10000) / 0x400)) ∧
        Low (UInt16.ofNat (0xDC00 + (scalar.toNat - 0x10000) % 0x400)) := by
      rw [High, Low, highValue, lowValue]
      omega
    have joined : 0x10000 + (0xD800 + (scalar.toNat - 0x10000) / 0x400 - 0xD800) * 0x400 +
        (0xDC00 + (scalar.toNat - 0x10000) % 0x400 - 0xDC00) = scalar.toNat := by omega
    rw [unitsOf, if_neg basic, List.cons_append, List.singleton_append, toScalars, if_pos paired,
      pairScalar, highValue, lowValue, joined, Char.ofNat_toNat]

@[simp]
theorem toScalars_ofScalars (scalars : List Char) : toScalars (ofScalars scalars) = scalars := by
  induction scalars with
  | nil => rfl
  | cons scalar scalars induction =>
      rw [ofScalars, List.flatMap_cons, toScalars_unitsOf_append]
      exact congrArg (scalar :: ·) induction

theorem unitsOf_ofNat {unit : UInt16} (plain : ¬Surrogate unit) :
    unitsOf (Char.ofNat unit.toNat) = [unit] := by
  have bound := unit_toNat_lt unit
  have valid : unit.toNat.isValidChar := by
    simp only [Nat.isValidChar]
    simp only [Surrogate] at plain
    omega
  have value := char_toNat_ofNat valid
  rw [unitsOf, value, if_pos bound]
  simp

theorem unitsOf_pairScalar {high low : UInt16} (isHigh : High high) (isLow : Low low) :
    unitsOf (pairScalar high low) = [high, low] := by
  have valid : (0x10000 + (high.toNat - 0xD800) * 0x400 + (low.toNat - 0xDC00)).isValidChar := by
    simp only [Nat.isValidChar]
    omega
  have value := char_toNat_ofNat valid
  rw [unitsOf, pairScalar, value, if_neg (by omega)]
  have highPart : 0xD800 + (0x10000 + (high.toNat - 0xD800) * 0x400 + (low.toNat - 0xDC00) -
      0x10000) / 0x400 = high.toNat := by omega
  have lowPart : 0xDC00 + (0x10000 + (high.toNat - 0xD800) * 0x400 + (low.toNat - 0xDC00) -
      0x10000) % 0x400 = low.toNat := by omega
  rw [highPart, lowPart]
  simp

theorem ofScalars_toScalars {text : Utf16} (formed : WellFormed text) :
    ofScalars (toScalars text) = text := by
  induction text using toScalars.induct with
  | case1 => rfl
  | case2 unit =>
      simp only [WellFormed] at formed
      simp [toScalars, scalarOf, formed, ofScalars, unitsOf_ofNat formed]
  | case3 first second rest paired induction =>
      simp only [WellFormed, if_pos paired] at formed
      rw [toScalars, if_pos paired, ofScalars, List.flatMap_cons,
        unitsOf_pairScalar paired.1 paired.2]
      exact congrArg (first :: second :: ·) (induction formed)
  | case4 first second rest single induction =>
      simp only [WellFormed, if_neg single] at formed
      rw [toScalars, if_neg single, scalarOf, if_neg formed.1, ofScalars, List.flatMap_cons,
        unitsOf_ofNat formed.1]
      exact congrArg (first :: ·) (induction formed.2)

theorem wellFormed_cons {unit : UInt16} (plain : ¬Surrogate unit) {rest : Utf16}
    (formed : WellFormed rest) : WellFormed (unit :: rest) := by
  cases rest with
  | nil => exact plain
  | cons second rest =>
      have single : ¬(High unit ∧ Low second) := by
        rintro ⟨high, -⟩
        exact plain ⟨high.1, by omega⟩
      simp only [WellFormed, if_neg single]
      exact ⟨plain, formed⟩

theorem wellFormed_append {left right : Utf16} (leftFormed : WellFormed left)
    (rightFormed : WellFormed right) : WellFormed (left ++ right) := by
  induction left using WellFormed.induct with
  | case1 => exact rightFormed
  | case2 unit => exact wellFormed_cons leftFormed rightFormed
  | case3 first second rest paired induction =>
      simp only [WellFormed, if_pos paired] at leftFormed
      simp only [List.cons_append, WellFormed, if_pos paired]
      exact induction leftFormed
  | case4 first second rest single induction =>
      simp only [WellFormed, if_neg single] at leftFormed
      exact wellFormed_cons leftFormed.1 (induction leftFormed.2)

theorem wellFormed_unitsOf_append (scalar : Char) {rest : Utf16} (formed : WellFormed rest) :
    WellFormed (unitsOf scalar ++ rest) := by
  have valid := char_isValid scalar
  by_cases basic : scalar.toNat < 0x10000
  · have value := toNat_ofNat_unit basic
    rw [unitsOf, if_pos basic]
    apply wellFormed_cons _ formed
    rw [Surrogate, value]
    omega
  · have highValue : (UInt16.ofNat (0xD800 + (scalar.toNat - 0x10000) / 0x400)).toNat =
        0xD800 + (scalar.toNat - 0x10000) / 0x400 := toNat_ofNat_unit (by omega)
    have lowValue : (UInt16.ofNat (0xDC00 + (scalar.toNat - 0x10000) % 0x400)).toNat =
        0xDC00 + (scalar.toNat - 0x10000) % 0x400 := toNat_ofNat_unit (by omega)
    have paired : High (UInt16.ofNat (0xD800 + (scalar.toNat - 0x10000) / 0x400)) ∧
        Low (UInt16.ofNat (0xDC00 + (scalar.toNat - 0x10000) % 0x400)) := by
      rw [High, Low, highValue, lowValue]
      omega
    rw [unitsOf, if_neg basic]
    simp only [List.cons_append, List.nil_append, WellFormed, if_pos paired]
    exact formed

theorem wellFormed_ofScalars (scalars : List Char) : WellFormed (ofScalars scalars) := by
  induction scalars with
  | nil => trivial
  | cons scalar scalars induction => exact wellFormed_unitsOf_append scalar induction

/-- The string that the decoder returns for an encoded string. -/
def roundTrip (text : Utf16) : Utf16 := ofScalars (stripMark (toScalars text))

theorem decode_encode (text : Utf16) : decode (encode text) = some (roundTrip text) := by
  have decoded : (encode text).toByteArray.utf8Decode? = some (toScalars text).toArray :=
    List.utf8Decode?_utf8Encode
  simp [decode, decoded, roundTrip]

/-- The string comes back unchanged from the encoder and the decoder. -/
def Lossless (text : Utf16) : Prop := roundTrip text = text

theorem lossless_iff (text : Utf16) :
    Lossless text ↔ WellFormed text ∧ text.head? ≠ some 0xFEFF := by
  constructor
  · intro lossless
    have scalars : toScalars text = stripMark (toScalars text) := by
      conv_lhs => rw [← lossless, roundTrip, toScalars_ofScalars]
    refine ⟨lossless ▸ wellFormed_ofScalars _, ?_⟩
    intro marked
    obtain ⟨rest, rfl⟩ := List.head?_eq_some_iff.mp marked
    have mark : Char.ofNat (0xFEFF : UInt16).toNat = byteOrderMark := rfl
    rw [toScalars_cons (by decide), mark] at scalars
    have lengths := congrArg List.length scalars
    simp [stripMark] at lengths
  · rintro ⟨formed, unmarked⟩
    have unchanged : stripMark (toScalars text) = toScalars text := by
      cases scalars : toScalars text with
      | nil => rfl
      | cons scalar rest =>
          have ordinary : scalar ≠ byteOrderMark := by
            rintro rfl
            have units := ofScalars_toScalars formed
            rw [scalars, ofScalars, List.flatMap_cons] at units
            exact unmarked (units ▸ rfl)
          simp [stripMark, ordinary]
    rw [Lossless, roundTrip, unchanged, ofScalars_toScalars formed]

/-- The scalar values that the bytes encode. -/
def scalars (bytes : Bytes) : Option (List Char) := bytes.toByteArray.utf8Decode?.map Array.toList

/-- The text that the bytes encode. -/
def spelling (bytes : Bytes) : Option Utf16 := (scalars bytes).map ofScalars

/-- The bytes begin with an encoded byte order mark. -/
def Marked (bytes : Bytes) : Prop := [0xEF, 0xBB, 0xBF] <+: bytes

instance (bytes : Bytes) : Decidable (Marked bytes) :=
  inferInstanceAs (Decidable ([0xEF, 0xBB, 0xBF] <+: bytes))

theorem ofScalars_injective : Function.Injective ofScalars :=
  Function.LeftInverse.injective toScalars_ofScalars

theorem decode_of_scalars {bytes : Bytes} {letters : List Char} (valid : scalars bytes = some letters) :
    decode bytes = some (ofScalars (stripMark letters)) := by
  obtain ⟨array, decoded, rfl⟩ := Option.map_eq_some_iff.mp valid
  rw [decode, decoded]
  rfl

@[simp]
theorem scalars_flatMap (letters : List Char) :
    scalars (letters.flatMap String.utf8EncodeChar) = some letters := by
  have decoded : (letters.flatMap String.utf8EncodeChar).toByteArray.utf8Decode? =
      some letters.toArray := List.utf8Decode?_utf8Encode
  simp [scalars, decoded]

theorem bytes_of_scalars {bytes : Bytes} {letters : List Char}
    (valid : scalars bytes = some letters) : bytes = letters.flatMap String.utf8EncodeChar := by
  obtain ⟨array, decoded, rfl⟩ := Option.map_eq_some_iff.mp valid
  have encoded := @ByteArray.utf8Encode_get_utf8Decode? bytes.toByteArray (by simp [decoded])
  simp only [decoded, Option.get_some, List.utf8Encode] at encoded
  have data := congrArg (fun array => array.data.toList) encoded
  simpa using data.symm

theorem marked_iff {bytes : Bytes} {letters : List Char} (valid : scalars bytes = some letters) :
    Marked bytes ↔ letters.head? = some byteOrderMark := by
  have encoded := bytes_of_scalars valid
  have mark : String.utf8EncodeChar byteOrderMark = [0xEF, 0xBB, 0xBF] := by decide
  constructor
  · rintro ⟨rest, rfl⟩
    have first : ([0xEF, 0xBB, 0xBF] ++ rest : Bytes).toByteArray.utf8DecodeChar? 0 =
        some byteOrderMark := by
      rw [← mark, List.toByteArray_append]
      exact ByteArray.utf8DecodeChar?_utf8EncodeChar_append
    cases letters with
    | nil => simp at encoded
    | cons letter letters =>
        rw [encoded, ← List.utf8Encode, List.utf8DecodeChar?_utf8Encode_cons] at first
        rw [List.head?_cons, Option.some.inj first]
  · intro marked
    obtain ⟨rest, rfl⟩ := List.head?_eq_some_iff.mp marked
    rw [encoded, List.flatMap_cons, mark]
    exact List.prefix_append _ _

theorem decode_eq_spelling_iff {bytes : Bytes} {text : Utf16} (valid : spelling bytes = some text) :
    decode bytes = some text ↔ ¬Marked bytes := by
  obtain ⟨letters, decoded, rfl⟩ := Option.map_eq_some_iff.mp valid
  rw [decode_of_scalars decoded, marked_iff decoded, Option.some_inj, ofScalars_injective.eq_iff]
  cases letters with
  | nil => simp [stripMark]
  | cons letter letters =>
      by_cases marked : letter = byteOrderMark
      · simp [stripMark, marked]
      · simp [stripMark, marked]

end Text
end Postgamma
