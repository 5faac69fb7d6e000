import Mathlib
import Postgamma.Library.Text

/-!
# Machine words

Integers that fit a two's complement word of a given number of bits, their bytes in either order,
and signed operations that have no meaning where their result does not fit.
-/

namespace Postgamma

/-- A subtraction of unsigned words that does not wrap. -/
theorem sub_no_wrap {modulus value amount : ℕ} (below : value < modulus) (enough : amount ≤ value) :
    (value + modulus - amount) % modulus = value - amount := by
  rw [Nat.sub_add_comm enough, Nat.add_mod_right]
  exact Nat.mod_eq_of_lt (by omega)

namespace TwosComplement

open Text (Bytes)

/-- A number that a signed word of `width` bits holds. -/
def Fits (width : ℕ) (number : ℤ) : Prop :=
  -2 ^ (width - 1) ≤ number ∧ number < 2 ^ (width - 1)

instance (width : ℕ) (number : ℤ) : Decidable (Fits width number) :=
  inferInstanceAs (Decidable (_ ∧ _))

/-- The values of a signed word. -/
abbrev Signed (width : ℕ) := { number : ℤ // Fits width number }

/-- The low bytes of a number, least significant first. -/
def littleEndian : ℕ → ℤ → Bytes
  | 0, _ => []
  | count + 1, number => UInt8.ofNat (number % 256).toNat :: littleEndian count (number / 256)

/-- The low bytes of a number, most significant first. -/
def bigEndian (count : ℕ) (number : ℤ) : Bytes := (littleEndian count number).reverse

/-- The unsigned number of bytes that are most significant first. -/
def unsigned (bytes : Bytes) : ℕ := bytes.foldl (fun total byte => 256 * total + byte.toNat) 0

/-- The signed word with given low bits. -/
def wrap (width : ℕ) (number : ℤ) : ℤ := Int.bmod number (2 ^ width)

@[simp]
theorem littleEndian_length (count : ℕ) (number : ℤ) :
    (littleEndian count number).length = count := by
  induction count generalizing number with
  | zero => rfl
  | succ count induction => simp [littleEndian, induction]

theorem emod_byte (number modulus : ℤ) :
    number % (256 * modulus) = number % 256 + 256 * (number / 256 % modulus) := by
  rw [Int.emod_def, Int.emod_def number 256, Int.emod_def (number / 256) modulus,
    ← Int.ediv_ediv_of_nonneg (by norm_num)]
  ring

/-- The bytes depend on the low bits only. -/
theorem littleEndian_emod (count : ℕ) (number : ℤ) :
    littleEndian count (number % 256 ^ count) = littleEndian count number := by
  induction count generalizing number with
  | zero => rfl
  | succ count induction =>
      have low : number % 256 ^ (count + 1) % 256 = number % 256 :=
        Int.emod_emod_of_dvd _ (dvd_pow_self _ (Nat.succ_ne_zero _))
      have high : number % 256 ^ (count + 1) / 256 = number / 256 % 256 ^ count := by
        rw [pow_succ', emod_byte]
        omega
      rw [littleEndian, littleEndian, low, high, induction]

theorem unsigned_bigEndian (count : ℕ) (number : ℤ) :
    (unsigned (bigEndian count number) : ℤ) = number % 256 ^ count := by
  rw [unsigned, bigEndian, List.foldl_reverse]
  induction count generalizing number with
  | zero => simp [littleEndian]
  | succ count induction =>
      have low : ((UInt8.ofNat (number % 256).toNat).toNat : ℤ) = number % 256 := by
        rw [UInt8.toNat_ofNat']
        omega
      rw [littleEndian, List.foldr_cons]
      push_cast
      rw [induction, low, pow_succ', emod_byte]
      ring

/-- A number that fits the word is not changed by wrapping its low bits. -/
theorem wrap_eq {width : ℕ} {number : ℤ} (positive : 0 < width) (fits : Fits width number) :
    wrap width (number % 2 ^ width) = number := by
  obtain ⟨width, rfl⟩ := Nat.exists_eq_add_of_lt positive
  obtain ⟨low, high⟩ := fits
  simp only [zero_add, Nat.add_sub_cancel] at low high
  have emod := Int.emod_bmod number (2 ^ (0 + width + 1))
  push_cast at emod
  rw [wrap, emod]
  apply Int.bmod_eq_of_le_mul_two <;> push_cast <;> rw [zero_add, pow_succ] <;> omega

/-- The largest number in a signed word of `width` bits. -/
def most (width : ℕ) : ℤ := 2 ^ (width - 1) - 1

/-- The result of a signed operation, with none where the operation overflows. -/
def checked (width : ℕ) (number : ℤ) : Option ℤ := if Fits width number then some number else none

theorem fits_le {width : ℕ} {number : ℤ} (fits : Fits width number) : number ≤ most width :=
  Int.le_sub_one_of_lt fits.2

theorem fits_of_nonneg {width : ℕ} {number : ℤ} (nonneg : 0 ≤ number)
    (small : number ≤ most width) : Fits width number :=
  ⟨(neg_nonpos.mpr (by positivity)).trans nonneg, Int.lt_of_le_sub_one small⟩

@[simp]
theorem checked_fits {width : ℕ} {number : ℤ} (fits : Fits width number) :
    checked width number = some number :=
  if_pos fits

theorem checked_overflow {width : ℕ} {number : ℤ} (large : most width < number) :
    checked width number = none :=
  if_neg fun fits => absurd (fits_le fits) (not_le.mpr large)

end TwosComplement
end Postgamma
