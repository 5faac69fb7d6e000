import Postgamma.Library.Text

/-!
# Little-endian words in byte strings

Reading and writing unsigned 32-bit words at a byte offset, and the reflected CRC-32 of a byte
string. A read past the end is zero; the formats built on these words check lengths first.
-/

namespace Postgamma
namespace LittleEndian

open Text (Bytes)

/-- The four bytes of a word, least significant first. Larger values wrap. -/
def u32 (value : Nat) : Bytes :=
  [UInt8.ofNat value, UInt8.ofNat (value / 2 ^ 8), UInt8.ofNat (value / 2 ^ 16),
    UInt8.ofNat (value / 2 ^ 24)]

/-- The value of four bytes. -/
def wordOf (a b c d : UInt8) : Nat :=
  a.toNat + b.toNat * 2 ^ 8 + c.toNat * 2 ^ 16 + d.toNat * 2 ^ 24

/-- The word at a byte offset. -/
def getUint32 (bytes : Bytes) (offset : Nat) : Nat :=
  match bytes.drop offset with
  | a :: b :: c :: d :: _ => wordOf a b c d
  | _ => 0

/-- Replace the word at a byte offset. -/
def setUint32 (bytes : Bytes) (offset value : Nat) : Bytes :=
  bytes.take offset ++ u32 value ++ bytes.drop (offset + 4)

@[simp]
theorem u32_length (value : Nat) : (u32 value).length = 4 := rfl

theorem wordOf_u32 {value : Nat} (small : value < 2 ^ 32) :
    wordOf (UInt8.ofNat value) (UInt8.ofNat (value / 2 ^ 8)) (UInt8.ofNat (value / 2 ^ 16))
      (UInt8.ofNat (value / 2 ^ 24)) = value := by
  simp only [wordOf, UInt8.toNat_ofNat']
  omega

theorem u32_wordOf (a b c d : UInt8) : u32 (wordOf a b c d) = [a, b, c, d] := by
  have first := a.toNat_lt
  have second := b.toNat_lt
  have third := c.toNat_lt
  have fourth := d.toNat_lt
  simp only [u32, List.cons.injEq, and_true]
  refine ⟨?_, ?_, ?_, ?_⟩ <;>
    apply UInt8.toNat.inj <;>
    simp only [UInt8.toNat_ofNat', wordOf] <;>
    omega

/-- The bytes of the word at the start. -/
theorem u32_getUint32 {bytes : Bytes} (enough : 4 ≤ bytes.length) :
    u32 (getUint32 bytes 0) = bytes.take 4 := by
  match bytes, enough with
  | a :: b :: c :: d :: rest, _ => exact u32_wordOf a b c d

theorem getUint32_u32 {value : Nat} (small : value < 2 ^ 32) (rest : Bytes) :
    getUint32 (u32 value ++ rest) 0 = value := by
  simpa [getUint32, u32] using wordOf_u32 small

theorem getUint32_skip (front rest : Bytes) (offset : Nat) :
    getUint32 (front ++ rest) (front.length + offset) = getUint32 rest offset := by
  rw [getUint32, getUint32, List.drop_length_add_append]

/-- A word behind a prefix of known length. -/
theorem getUint32_at {front rest : Bytes} {value offset : Nat} (small : value < 2 ^ 32)
    (position : front.length = offset) :
    getUint32 (front ++ (u32 value ++ rest)) offset = value := by
  subst position
  simpa using (getUint32_skip front (u32 value ++ rest) 0).trans (getUint32_u32 small rest)

/-- A word depends on its four bytes only. -/
theorem getUint32_congr {first second : Bytes} {offset : Nat}
    (same : (first.drop offset).take 4 = (second.drop offset).take 4) :
    getUint32 first offset = getUint32 second offset := by
  have window (bytes : Bytes) : getUint32 bytes offset = getUint32 ((bytes.drop offset).take 4) 0 := by
    unfold getUint32
    rw [List.drop_zero]
    rcases bytes.drop offset with _ | ⟨a, _ | ⟨b, _ | ⟨c, _ | ⟨d, rest⟩⟩⟩⟩ <;> rfl
  rw [window first, window second, same]

/-- A word that lies in front of a cut is not touched by what is put behind the cut. -/
theorem getUint32_cut {bytes rest : Bytes} {count offset : Nat} (inside : offset + 4 ≤ count)
    (long : offset + 4 ≤ bytes.length) :
    getUint32 (bytes.take count ++ rest) offset = getUint32 bytes offset := by
  apply getUint32_congr
  rw [List.drop_append_of_le_length (by rw [List.length_take]; omega), List.take_append_of_le_length
    (by rw [List.length_drop, List.length_take]; omega), List.drop_take, List.take_take]
  congr 1
  omega

theorem getUint32_lt (bytes : Bytes) (offset : Nat) : getUint32 bytes offset < 2 ^ 32 := by
  unfold getUint32
  split
  · rename_i a b c d _ _
    have := a.toNat_lt
    have := b.toNat_lt
    have := c.toNat_lt
    have := d.toNat_lt
    simp only [wordOf]
    omega
  · norm_num

/-- Overwriting the word behind a prefix of known length. -/
theorem setUint32_at {front rest : Bytes} {offset : Nat} (old new : Nat)
    (position : front.length = offset) :
    setUint32 (front ++ (u32 old ++ rest)) offset new = front ++ (u32 new ++ rest) := by
  subst position
  have dropped : (u32 old ++ rest).drop 4 = rest := rfl
  rw [setUint32, List.drop_length_add_append, dropped, List.take_left, List.append_assoc]

def words (values : List Nat) : Bytes := values.flatMap u32

@[simp]
theorem words_length (values : List Nat) : (words values).length = 4 * values.length := by
  induction values with
  | nil => rfl
  | cons value values induction =>
      have split : words (value :: values) = u32 value ++ words values := rfl
      rw [split, List.length_append, induction, u32_length, List.length_cons]
      omega

/-- The word at an index of consecutive words behind a prefix. -/
theorem getUint32_words {front rest : Bytes} {values : List Nat} {index value offset : Nat}
    (found : values[index]? = some value) (small : value < 2 ^ 32)
    (position : front.length + 4 * index = offset) :
    getUint32 (front ++ (words values ++ rest)) offset = value := by
  induction values generalizing front index with
  | nil => simp at found
  | cons head values induction =>
      have split : words (head :: values) = u32 head ++ words values := rfl
      rw [split, List.append_assoc]
      cases index with
      | zero =>
          obtain rfl : head = value := by simpa using found
          exact getUint32_at small position
      | succ index =>
          have shifted : (front ++ u32 head).length + 4 * index = offset := by
            rw [List.length_append, u32_length]
            omega
          have tail := induction (by simpa using found) shifted
          rwa [List.append_assoc] at tail

def crcBit (crc : UInt32) : UInt32 :=
  crc >>> 1 ^^^ (if crc &&& 1 = 0 then 0 else 0xedb88320)

def crcByte (crc : UInt32) (byte : UInt8) : UInt32 :=
  Nat.repeat crcBit 8 (crc ^^^ byte.toUInt32)

/-- The reflected CRC-32 of a byte string. -/
def crc32 (bytes : Bytes) : Nat := (bytes.foldl crcByte 0xffffffff ^^^ 0xffffffff).toNat

theorem crc32_lt (bytes : Bytes) : crc32 bytes < 2 ^ 32 :=
  (bytes.foldl crcByte 0xffffffff ^^^ 0xffffffff).toNat_lt

example : crc32 [0x31, 0x32, 0x33, 0x34, 0x35, 0x36, 0x37, 0x38, 0x39] = 0xcbf43926 := by
  decide +kernel

end LittleEndian
end Postgamma
