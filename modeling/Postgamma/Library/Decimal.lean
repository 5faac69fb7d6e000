import Mathlib
import Postgamma.Library.Text

/-!
# Decimal numerals in byte strings

Numerals with a least number of digits, the longest numeral at the head of a text, and a fraction
that is written without its trailing zeros.
-/

namespace Postgamma
namespace Decimal

open Text (Bytes)

/-- A decimal digit in ASCII. -/
def isDigit (byte : UInt8) : Bool := 0x30 ≤ byte.toNat && byte.toNat ≤ 0x39

def digitValue (byte : UInt8) : ℕ := byte.toNat - 0x30

def digitByte (digit : ℕ) : UInt8 := UInt8.ofNat (0x30 + digit)

/-- The number that a run of digits names, most significant first. -/
def value (digits : Bytes) : ℕ := digits.foldl (fun total byte => 10 * total + digitValue byte) 0

/-- The last digits of a number. -/
def digits : ℕ → ℕ → Bytes
  | 0, _ => []
  | count + 1, number => digits count (number / 10) ++ [digitByte (number % 10)]

/-- The digits of a number, padded with zeros to a least width. -/
def zeropad (width number : ℕ) : Bytes := digits (max width (Nat.digits 10 number).length) number

def integer (number : ℤ) : Bytes :=
  if number < 0 then 0x2D :: zeropad 1 number.natAbs else zeropad 1 number.natAbs

/-- A run of digits without its trailing zeros. -/
def trimmed (digits : Bytes) : Bytes := digits.rdropWhile (· = 0x30)

/-- At most `width` digits at the head of a text, and what follows them. -/
def takeDigits : ℕ → Bytes → Bytes × Bytes
  | 0, text => ([], text)
  | _ + 1, [] => ([], [])
  | width + 1, byte :: rest =>
      if isDigit byte then (byte :: (takeDigits width rest).1, (takeDigits width rest).2)
      else ([], byte :: rest)

theorem digitByte_toNat {digit : ℕ} (small : digit < 10) :
    (digitByte digit).toNat = 0x30 + digit := by
  rw [digitByte, UInt8.toNat_ofNat']
  omega

theorem isDigit_digitByte {digit : ℕ} (small : digit < 10) : isDigit (digitByte digit) = true := by
  simp only [isDigit, digitByte_toNat small, Bool.and_eq_true, decide_eq_true_eq]
  omega

theorem digitValue_digitByte {digit : ℕ} (small : digit < 10) :
    digitValue (digitByte digit) = digit := by
  rw [digitValue, digitByte_toNat small]
  omega

theorem digitValue_le {byte : UInt8} (digit : isDigit byte = true) : digitValue byte ≤ 9 := by
  simp only [isDigit, Bool.and_eq_true, decide_eq_true_eq] at digit
  simp only [digitValue]
  omega

@[simp]
theorem digits_length (count number : ℕ) : (digits count number).length = count := by
  induction count generalizing number with
  | zero => rfl
  | succ count induction => simp [digits, induction]

theorem digits_isDigit (count number : ℕ) : ∀ byte ∈ digits count number, isDigit byte = true := by
  induction count generalizing number with
  | zero => simp [digits]
  | succ count induction =>
      intro byte member
      rcases List.mem_append.mp member with member | member
      · exact induction _ byte member
      · rw [List.mem_singleton.mp member]
        exact isDigit_digitByte (Nat.mod_lt _ (by norm_num))

@[simp]
theorem value_nil : value [] = 0 := rfl

@[simp]
theorem value_concat (digits : Bytes) (byte : UInt8) :
    value (digits ++ [byte]) = 10 * value digits + digitValue byte := by
  simp [value]

theorem foldl_value (total : ℕ) (digits : Bytes) :
    digits.foldl (fun total byte => 10 * total + digitValue byte) total =
      total * 10 ^ digits.length + value digits := by
  induction digits using List.reverseRecOn with
  | nil => simp
  | append_singleton digits byte induction =>
      rw [List.foldl_append, induction, value_concat, List.length_append, List.length_singleton,
        pow_succ]
      simp only [List.foldl_cons, List.foldl_nil]
      ring

theorem value_cons (byte : UInt8) (digits : Bytes) :
    value (byte :: digits) = digitValue byte * 10 ^ digits.length + value digits := by
  rw [← foldl_value, value, List.foldl_cons, Nat.mul_zero, Nat.zero_add]

@[simp]
theorem value_digits (count number : ℕ) : value (digits count number) = number % 10 ^ count := by
  induction count generalizing number with
  | zero => simp [digits, Nat.mod_one]
  | succ count induction =>
      rw [digits, value_concat, induction, digitValue_digitByte (Nat.mod_lt _ (by norm_num)),
        pow_succ', Nat.mod_mul]
      ring

/-- A short number is padded to the width exactly. -/
theorem zeropad_eq {width number : ℕ} (small : number < 10 ^ width) :
    zeropad width number = digits width number := by
  have short : (Nat.digits 10 number).length ≤ width :=
    (Nat.digits_length_le_iff (by norm_num) number).mpr small
  rw [zeropad, max_eq_left short]

theorem zeropad_length_of_ge {width number : ℕ} (large : 10 ^ width ≤ number) :
    width < (zeropad width number).length := by
  have long : width < (Nat.digits 10 number).length :=
    (Nat.lt_digits_length_iff (by norm_num) number).mpr large
  rw [zeropad, digits_length]
  omega

theorem zeropad_isDigit (width number : ℕ) :
    ∀ byte ∈ zeropad width number, isDigit byte = true :=
  digits_isDigit _ number

theorem value_zeropad (width number : ℕ) : value (zeropad width number) = number := by
  have below : number < 10 ^ (Nat.digits 10 number).length :=
    Nat.lt_base_pow_length_digits (by norm_num)
  rw [zeropad, value_digits]
  exact Nat.mod_eq_of_lt (below.trans_le (Nat.pow_le_pow_right (by norm_num) (le_max_right ..)))

theorem zeropad_ne_nil {width : ℕ} (number : ℕ) (positive : 0 < width) :
    zeropad width number ≠ [] := by
  intro empty
  have length := congrArg List.length empty
  rw [zeropad, digits_length, List.length_nil] at length
  omega

theorem digits_zero (count : ℕ) : digits count 0 = List.replicate count 0x30 := by
  induction count with
  | zero => rfl
  | succ count induction =>
      rw [digits, Nat.zero_div, induction, List.replicate_succ']
      rfl

theorem digits_add {count number : ℕ} (small : number < 10 ^ count) (more : ℕ) :
    digits (more + count) number = List.replicate more 0x30 ++ digits count number := by
  induction count generalizing number with
  | zero =>
      obtain rfl : number = 0 := by simpa using small
      rw [Nat.add_zero, digits_zero, digits, List.append_nil]
  | succ count induction =>
      have front := @induction (number / 10) (by rw [pow_succ] at small; omega)
      rw [← Nat.add_assoc, digits, front, digits, List.append_assoc]

theorem digitChar_toNat {digit : ℕ} (small : digit < 10) :
    (Nat.digitChar digit).toNat = (digitByte digit).toNat := by
  rw [digitByte_toNat small, Nat.toNat_digitChar_of_lt_ten small]

theorem toDigits_eq (number : ℕ) :
    (Nat.toDigits 10 number).map Char.toNat = (zeropad 1 number).map UInt8.toNat := by
  induction number using Nat.strong_induction_on with
  | _ number induction =>
      by_cases small : number < 10
      · rw [Nat.toDigits_of_lt_base small, zeropad_eq (by simpa using small)]
        simp [digits, digitChar_toNat, Nat.mod_eq_of_lt small, small]
      · have shorter := induction (number / 10) (by omega)
        have split : zeropad 1 number = zeropad 1 (number / 10) ++
            [digitByte (number % 10)] := by
          have longer : (Nat.digits 10 number).length = (Nat.digits 10 (number / 10)).length + 1 := by
            rw [Nat.digits_def' (by norm_num) (by omega), List.length_cons]
          have nonempty : 0 < (Nat.digits 10 (number / 10)).length := by
            rw [List.length_pos_iff, Ne, Nat.digits_eq_nil_iff_eq_zero]
            omega
          rw [zeropad, zeropad, longer, max_eq_right (by omega), max_eq_right (by omega), digits]
        rw [Nat.toDigits_of_base_le (by norm_num) (by omega), split, List.map_append,
          List.map_append, shorter]
        simp [digitChar_toNat (Nat.mod_lt number (by norm_num : 0 < 10))]

/-- The zeros that a trimmed fraction lacks count as a power of ten. -/
theorem value_trimmed (digits : Bytes) :
    value (trimmed digits) * 10 ^ (digits.length - (trimmed digits).length) = value digits := by
  induction digits using List.reverseRecOn with
  | nil => rfl
  | append_singleton digits byte induction =>
      have shorter : (trimmed digits).length ≤ digits.length :=
        (List.rdropWhile_prefix _ _).length_le
      unfold trimmed at induction shorter ⊢
      rw [List.rdropWhile_concat]
      split
      · rename_i zero
        have zero : byte = 0x30 := by simpa using zero
        have grown : (digits ++ [byte]).length - (digits.rdropWhile (· = 0x30)).length =
            digits.length - (digits.rdropWhile (· = 0x30)).length + 1 := by
          rw [List.length_append, List.length_singleton]
          omega
        rw [grown, pow_succ, ← mul_assoc, induction, value_concat, zero]
        simp [digitValue, mul_comm]
      · simp

theorem trimmed_subset {digits : Bytes} {byte : UInt8} (member : byte ∈ trimmed digits) :
    byte ∈ digits :=
  (List.rdropWhile_prefix _ _).subset member

theorem trimmed_length_le (digits : Bytes) : (trimmed digits).length ≤ digits.length :=
  (List.rdropWhile_prefix _ _).length_le

theorem trimmed_ne_nil {digits : Bytes} (nonzero : value digits ≠ 0) : trimmed digits ≠ [] := by
  intro empty
  have total := value_trimmed digits
  rw [empty, value_nil, Nat.zero_mul] at total
  exact nonzero total.symm

theorem takeDigits_full {run : Bytes} (all : ∀ byte ∈ run, isDigit byte = true) (rest : Bytes) :
    takeDigits run.length (run ++ rest) = (run, rest) := by
  induction run with
  | nil => simp [takeDigits]
  | cons byte run induction =>
      have tail := induction fun other member => all other (List.mem_cons_of_mem _ member)
      simp [takeDigits, all byte List.mem_cons_self, tail]

/-- A run of digits ends before a byte that is no digit. -/
theorem takeDigits_stop {run rest : Bytes} {width : ℕ} (all : ∀ byte ∈ run, isDigit byte = true)
    (wide : run.length ≤ width) (stop : ∀ byte ∈ rest.head?, isDigit byte = false) :
    takeDigits width (run ++ rest) = (run, rest) := by
  induction run generalizing width with
  | nil =>
      cases width with
      | zero => rfl
      | succ width =>
          cases rest with
          | nil => rfl
          | cons byte rest => simp [takeDigits, stop byte rfl]
  | cons byte run induction =>
      cases width with
      | zero => simp at wide
      | succ width =>
          have tail := @induction width (fun other member => all other (List.mem_cons_of_mem _ member))
            (by simpa using wide)
          simp [takeDigits, all byte List.mem_cons_self, tail]

end Decimal
end Postgamma
