import Mathlib
import Postgamma.Python.Intervals
import Postgamma.Wasm.CodecValues

/-!
# Columns of the type `bytea`

PostgreSQL writes the bytes of a `bytea` in one of two ways, which a session setting chooses. The
script client reads both. The Python client reads the hexadecimal one and takes any other text
for the bytes themselves.
-/

namespace Postgamma
namespace Python

open Text (Bytes Utf16)
open Wasm (bytesText escapedBytes octalDigit?)

/-- `bytea_output`. -/
inductive ByteaOutput
  | hex
  | escape
  deriving DecidableEq

/-- A hexadecimal digit as PostgreSQL writes it. -/
def hexOctet (digit : ℕ) : UInt8 :=
  if digit < 10 then UInt8.ofNat (0x30 + digit) else UInt8.ofNat (0x57 + digit)

/-- A byte that the escape format leaves alone. -/
abbrev Plain (byte : UInt8) : Prop := 0x20 ≤ byte.toNat ∧ byte.toNat ≤ 0x7E ∧ byte ≠ 0x5C

/-- A byte in the escape format. -/
def escapedOctets (byte : UInt8) : Bytes :=
  if Plain byte then [byte]
  else if byte = 0x5C then [0x5C, 0x5C]
  else
    [0x5C, UInt8.ofNat (0x30 + byte.toNat / 64), UInt8.ofNat (0x30 + byte.toNat / 8 % 8),
      UInt8.ofNat (0x30 + byte.toNat % 8)]

def byteaOut (output : ByteaOutput) (bytes : Bytes) : Bytes :=
  match output with
  | .hex =>
      0x5C :: 0x78 :: bytes.flatMap fun byte =>
        [hexOctet (byte.toNat / 0x10), hexOctet (byte.toNat % 0x10)]
  | .escape => bytes.flatMap escapedOctets

/-- The script string of a text in ASCII. -/
def characters (text : Bytes) : Utf16 := text.map fun byte => UInt16.ofNat byte.toNat

/-- The value of a hexadecimal digit. -/
def hexValue? (byte : UInt8) : Option ℕ :=
  if 0x30 ≤ byte.toNat ∧ byte.toNat ≤ 0x39 then some (byte.toNat - 0x30)
  else if 0x41 ≤ byte.toNat ∧ byte.toNat ≤ 0x46 then some (byte.toNat - 0x41 + 10)
  else if 0x61 ≤ byte.toNat ∧ byte.toNat ≤ 0x66 then some (byte.toNat - 0x61 + 10)
  else none

/-- `bytes.fromhex`, which passes over blanks between the pairs. -/
def fromHex : Bytes → Option Bytes
  | [] => some []
  | first :: rest =>
      if first = 0x20 ∨ (9 ≤ first.toNat ∧ first.toNat ≤ 13) then fromHex rest
      else
        match rest with
        | [] => none
        | second :: rest => do
            let high ← hexValue? first
            let low ← hexValue? second
            return UInt8.ofNat (0x10 * high + low) :: (← fromHex rest)

def decodeBytea (data : Bytes) (format : Format) : Except DecodeError Bytes :=
  if format = .binary then .ok data
  else if [0x5C, 0x78].isPrefixOf data then
    if (data.drop 2).any (fun byte => 128 ≤ byte.toNat) then .error .notAscii
    else
      match fromHex (data.drop 2) with
      | some bytes => .ok bytes
      | none => .error .notHexadecimal
  else .ok data

theorem hexOctet_toNat {digit : ℕ} (small : digit < 16) :
    (hexOctet digit).toNat = if digit < 10 then 0x30 + digit else 0x57 + digit := by
  interval_cases digit <;> rfl

theorem hexValue?_hexOctet {digit : ℕ} (small : digit < 16) :
    hexValue? (hexOctet digit) = some digit := by
  interval_cases digit <;> rfl

theorem characters_hexOctet {digit : ℕ} (small : digit < 16) :
    UInt16.ofNat (hexOctet digit).toNat = Json.hexDigit digit := by
  interval_cases digit <;> rfl

theorem characters_hex (bytes : Bytes) :
    characters (byteaOut .hex bytes) = Wasm.hexText bytes := by
  have pairs : (bytes.flatMap fun byte =>
        [hexOctet (byte.toNat / 0x10), hexOctet (byte.toNat % 0x10)]).map
          (fun byte => UInt16.ofNat byte.toNat) =
      bytes.flatMap fun byte =>
        [Json.hexDigit (byte.toNat / 0x10), Json.hexDigit (byte.toNat % 0x10)] := by
    rw [List.map_flatMap]
    congr 1
    funext byte
    have bound := byte.toNat_lt
    rw [List.map_cons, List.map_cons, List.map_nil, characters_hexOctet (by omega),
      characters_hexOctet (by omega)]
  rw [characters, byteaOut, List.map_cons, List.map_cons, pairs]
  rfl

theorem fromHex_pairs (bytes : Bytes) :
    fromHex (bytes.flatMap fun byte =>
      [hexOctet (byte.toNat / 0x10), hexOctet (byte.toNat % 0x10)]) = some bytes := by
  induction bytes with
  | nil => rfl
  | cons byte bytes induction =>
      have bound := byte.toNat_lt
      have high : byte.toNat / 0x10 < 16 := by omega
      have shown : ¬(hexOctet (byte.toNat / 0x10) = 0x20 ∨
          (9 ≤ (hexOctet (byte.toNat / 0x10)).toNat ∧
            (hexOctet (byte.toNat / 0x10)).toNat ≤ 13)) := by
        rw [← UInt8.toNat_inj, hexOctet_toNat high]
        split_ifs <;> simp <;> omega
      have whole : UInt8.ofNat (0x10 * (byte.toNat / 0x10) + byte.toNat % 0x10) = byte := by
        rw [Nat.div_add_mod]
        exact UInt8.ofNat_toNat
      rw [List.flatMap_cons, List.cons_append, List.singleton_append, fromHex, if_neg shown]
      simp only [hexValue?_hexOctet high,
        hexValue?_hexOctet (show byte.toNat % 0x10 < 16 by omega), induction,
        Option.bind_eq_bind, Option.bind_some, whole, Option.pure_def]

theorem hexOctet_ascii {digit : ℕ} (small : digit < 16) : (hexOctet digit).toNat < 128 := by
  rw [hexOctet_toNat small]
  split_ifs <;> omega

theorem decodeBytea_hex (bytes : Bytes) :
    decodeBytea (byteaOut .hex bytes) .text = .ok bytes := by
  have ascii : (bytes.flatMap fun byte =>
      [hexOctet (byte.toNat / 0x10), hexOctet (byte.toNat % 0x10)]).any
        (fun byte => 128 ≤ byte.toNat) = false := by
    simp only [List.any_eq_false, List.mem_flatMap, decide_eq_true_eq, not_le]
    rintro octet ⟨byte, -, member⟩
    have bound := byte.toNat_lt
    rcases List.mem_cons.mp member with rfl | member
    · exact hexOctet_ascii (by omega)
    · rw [List.mem_singleton.mp member]
      exact hexOctet_ascii (by omega)
  have marked : [0x5C, 0x78].isPrefixOf (byteaOut .hex bytes) = true := rfl
  have behind : (byteaOut .hex bytes).drop 2 = bytes.flatMap fun byte =>
      [hexOctet (byte.toNat / 0x10), hexOctet (byte.toNat % 0x10)] := rfl
  rw [decodeBytea, if_neg (by decide), if_pos marked, behind, ascii, if_neg Bool.false_ne_true,
    fromHex_pairs]

theorem escapedOctets_length {byte : UInt8} (special : ¬Plain byte) :
    2 ≤ (escapedOctets byte).length := by
  rw [escapedOctets, if_neg special]
  split_ifs <;> simp

theorem escaped_length (bytes : Bytes) : bytes.length ≤ (bytes.flatMap escapedOctets).length := by
  induction bytes with
  | nil => simp
  | cons byte bytes induction =>
      have one : 1 ≤ (escapedOctets byte).length := by
        by_cases plain : Plain byte
        · rw [escapedOctets, if_pos plain]
          rfl
        · exact (escapedOctets_length plain).trans' one_le_two
      rw [List.flatMap_cons, List.length_append, List.length_cons]
      omega

/-- The escape format is the bytes themselves exactly when none of them is special. -/
theorem escaped_eq_iff (bytes : Bytes) :
    bytes.flatMap escapedOctets = bytes ↔ ∀ byte ∈ bytes, Plain byte := by
  induction bytes with
  | nil => simp
  | cons byte bytes induction =>
      rw [List.flatMap_cons, List.forall_mem_cons]
      by_cases plain : Plain byte
      · rw [escapedOctets, if_pos plain, List.singleton_append, List.cons.injEq, induction]
        exact ⟨fun same => ⟨plain, same.2⟩, fun all => ⟨rfl, all.2⟩⟩
      · constructor
        · intro same
          have lengths := congrArg List.length same
          have two := escapedOctets_length plain
          have rest := escaped_length bytes
          rw [List.length_append, List.length_cons] at lengths
          omega
        · exact fun all => absurd all.1 plain

/-- No text in the escape format looks like one in the hexadecimal format. -/
theorem escaped_unmarked (bytes : Bytes) :
    ∀ rest, bytes.flatMap escapedOctets ≠ 0x5C :: 0x78 :: rest := by
  intro rest same
  cases bytes with
  | nil => cases same
  | cons byte bytes =>
      rw [List.flatMap_cons, escapedOctets] at same
      split_ifs at same with plain slash
      · rw [List.singleton_append, List.cons.injEq] at same
        exact plain.2.2 same.1
      · simp at same
      · have bound := byte.toNat_lt
        have second := congrArg UInt8.toNat (List.cons.inj (List.cons.inj same).2).1
        rw [UInt8.toNat_ofNat'] at second
        simp at second
        omega

theorem decodeBytea_escape (bytes : Bytes) :
    decodeBytea (byteaOut .escape bytes) .text = .ok (bytes.flatMap escapedOctets) := by
  have unmarked : ¬[0x5C, 0x78].isPrefixOf (bytes.flatMap escapedOctets) = true := by
    rw [List.isPrefixOf_iff_prefix]
    rintro ⟨rest, same⟩
    exact escaped_unmarked bytes rest same.symm
  rw [decodeBytea, if_neg (by decide), byteaOut, if_neg unmarked]

theorem octalDigit?_ofNat {bound digit : ℕ} (small : digit < 8) (below : digit < bound) :
    octalDigit? bound (UInt16.ofNat (UInt8.ofNat (0x30 + digit)).toNat) = some digit := by
  have read : Json.digit? (UInt16.ofNat (UInt8.ofNat (0x30 + digit)).toNat) = some digit := by
    interval_cases digit <;> rfl
  rw [octalDigit?, read, Option.filter_some, if_pos (decide_eq_true below)]

/-- One byte of the escape format is read back in front of anything. -/
theorem escapedBytes_octets (byte : UInt8) (rest : Utf16) :
    escapedBytes (characters (escapedOctets byte) ++ rest) =
      (escapedBytes rest).map (byte :: ·) := by
  have bound := byte.toNat_lt
  rw [escapedOctets]
  split_ifs with plain slash
  · have value : (UInt16.ofNat byte.toNat).toNat = byte.toNat :=
      Text.toNat_ofNat_unit (by omega)
    have other : UInt16.ofNat byte.toNat ≠ 0x5C := by
      intro same
      refine plain.2.2 (UInt8.toNat_inj.mp ?_)
      rw [← value, same]
      rfl
    have small : ¬127 < (UInt16.ofNat byte.toNat).toNat := by omega
    rw [characters, List.map_singleton, List.singleton_append, Wasm.escapedBytes.eq_def]
    simp only [if_pos other, if_neg small]
    rw [value, UInt8.ofNat_toNat]
  · subst slash
    have mark : ¬(UInt16.ofNat (UInt8.toNat 0x5C) ≠ 0x5C) := by decide
    have again : UInt16.ofNat (UInt8.toNat 0x5C) = 0x5C := by decide
    simp only [characters, List.map_cons, List.map_nil, List.cons_append, List.nil_append]
    rw [Wasm.escapedBytes.eq_def]
    simp only [if_neg mark, if_pos again]
  · have whole : UInt8.ofNat (64 * (byte.toNat / 64) + 8 * (byte.toNat / 8 % 8) +
        byte.toNat % 8) = byte := by
      have sum : 64 * (byte.toNat / 64) + 8 * (byte.toNat / 8 % 8) + byte.toNat % 8 =
          byte.toNat := by omega
      rw [sum, UInt8.ofNat_toNat]
    have first := @octalDigit?_ofNat 4 (byte.toNat / 64) (by omega) (by omega)
    have second := @octalDigit?_ofNat 8 (byte.toNat / 8 % 8) (by omega) (by omega)
    have third := @octalDigit?_ofNat 8 (byte.toNat % 8) (by omega) (by omega)
    have digit : UInt16.ofNat (UInt8.ofNat (0x30 + byte.toNat / 64)).toNat ≠ 0x5C := by
      intro same
      rw [same] at first
      cases first
    have mark : ¬(UInt16.ofNat (UInt8.toNat 0x5C) ≠ 0x5C) := by decide
    simp only [characters, List.map_cons, List.map_nil, List.cons_append, List.nil_append]
    rw [Wasm.escapedBytes.eq_def]
    simp only [if_neg mark, if_neg digit, first, second, third, whole]

theorem characters_injective : Function.Injective characters := by
  refine List.map_injective_iff.mpr fun first second same => UInt8.toNat_inj.mp ?_
  have one := first.toNat_lt
  have two := second.toNat_lt
  rw [← Text.toNat_ofNat_unit (show first.toNat < 0x10000 by omega), same,
    Text.toNat_ofNat_unit (by omega)]

theorem bytesText_escape (bytes : Bytes) :
    bytesText (characters (byteaOut .escape bytes)) = .ok bytes := by
  have read : escapedBytes (characters (bytes.flatMap escapedOctets)) = .ok bytes := by
    induction bytes with
    | nil => rfl
    | cons byte bytes induction =>
        rw [characters] at induction
        rw [List.flatMap_cons, characters, List.map_append]
        refine (escapedBytes_octets byte _).trans ?_
        rw [induction]
        rfl
  rw [byteaOut, Wasm.bytesText.eq_def]
  split
  · rename_i rest same
    obtain ⟨first, others, whole, one, more⟩ := List.map_eq_cons_iff.mp same
    obtain ⟨second, others, rfl, two, -⟩ := List.map_eq_cons_iff.mp more
    have slash : first = 0x5C := by
      have marked : characters [first] = characters [0x5C] := congrArg (fun unit => [unit]) one
      exact List.singleton_inj.mp (characters_injective marked)
    have letter : second = 0x78 := by
      have marked : characters [second] = characters [0x78] := congrArg (fun unit => [unit]) two
      exact List.singleton_inj.mp (characters_injective marked)
    rw [slash, letter] at whole
    exact absurd whole (escaped_unmarked bytes others)
  · exact read

/-- Both clients give back the bytes of a column exactly when the server writes the hexadecimal
format or no byte is special in the escape format. -/
theorem bytea_decoded_iff (output : ByteaOutput) (bytes : Bytes) :
    (bytesText (characters (byteaOut output bytes)) = .ok bytes ∧
      decodeBytea (byteaOut output bytes) .text = .ok bytes) ↔
      output = .hex ∨
        ∀ byte ∈ bytes, 0x20 ≤ byte.toNat ∧ byte.toNat ≤ 0x7E ∧ byte ≠ 0x5C := by
  cases output with
  | hex =>
      rw [characters_hex]
      exact ⟨fun _ => .inl rfl, fun _ => ⟨Wasm.bytesText_hexText bytes, decodeBytea_hex bytes⟩⟩
  | escape =>
      rw [decodeBytea_escape, Except.ok.injEq, escaped_eq_iff]
      constructor
      · exact fun both => .inr both.2
      · rintro (other | plain)
        · cases other
        · exact ⟨bytesText_escape bytes, plain⟩

/-- A zero byte in the escape format comes back as four bytes. -/
theorem zero_byte_misread :
    byteaOut .escape [0] = [0x5C, 0x30, 0x30, 0x30] ∧
      bytesText (characters (byteaOut .escape [0])) = .ok [0] ∧
      decodeBytea (byteaOut .escape [0]) .text = .ok [0x5C, 0x30, 0x30, 0x30] :=
  ⟨rfl, bytesText_escape [0], rfl⟩

end Python
end Postgamma
