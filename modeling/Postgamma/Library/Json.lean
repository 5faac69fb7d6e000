import Postgamma.Library.Text
import Mathlib.Data.Nat.Digits.Lemmas
import Mathlib.Data.Int.Log
import Mathlib.Data.Rat.Floor

/-!
# JSON text over UTF-16 strings

The value grammar of `JSON.parse`, with number literals rounded to binary64, and the text that
`JSON.stringify` writes for strings, safe integers and records of them. The parser undoes the
writer on every string, lone surrogates included, because the writer escapes those.
-/

namespace Postgamma
namespace Json

open Text

/-- A script number that is not a NaN. Negative zero is not told apart from zero. -/
inductive Number where
  | finite (value : ℚ)
  /-- An infinity of the given sign. -/
  | infinite (negative : Bool)
  deriving DecidableEq

/-- Round to the nearest integer, ties to even. -/
def roundHalfEven (value : ℚ) : ℤ :=
  let below := ⌊value⌋
  let excess := value - below
  if excess < 1 / 2 then below
  else if 1 / 2 < excess then below + 1
  else if below % 2 = 0 then below else below + 1

/-- The binary exponent of the last place of the binary64 number nearest to a value. -/
def lastPlace (value : ℚ) : ℤ := max (Int.log 2 |value|) (-1022) - 52

def roundDouble (value : ℚ) : Number :=
  let unit := (2 : ℚ) ^ lastPlace value
  let rounded := roundHalfEven (value / unit) * unit
  if |rounded| < (2 : ℚ) ^ 1024 then .finite rounded else .infinite (decide (value < 0))

/-- `Number.isInteger` as the integer it finds. -/
def Number.integer? : Number → Option ℤ
  | .finite value => if value.den = 1 then some value.num else none
  | .infinite _ => none

/-- An integer that a script number holds exactly, as `Number.isSafeInteger` has it. -/
abbrev SafeInt := { value : ℤ // |value| ≤ 2 ^ 53 - 1 }

def SafeInt.number (value : SafeInt) : Number := .finite (value.val : ℚ)

@[simp]
theorem roundHalfEven_intCast (value : ℤ) : roundHalfEven (value : ℚ) = value := by
  simp [roundHalfEven]

/-- Integers below `2 ^ 53` are binary64 numbers. -/
theorem roundDouble_intCast {value : ℤ} (small : |value| < 2 ^ 53) :
    roundDouble (value : ℚ) = .finite (value : ℚ) := by
  have place : lastPlace (value : ℚ) ≤ 0 := by
    by_cases zero : value = 0
    · subst zero
      simp [lastPlace]
    · have logBound : Int.log 2 |(value : ℚ)| < 53 := by
        have positive : (0 : ℚ) < |(value : ℚ)| := by
          rw [abs_pos]
          exact_mod_cast zero
        rw [← Int.lt_zpow_iff_log_lt (by norm_num) positive]
        exact_mod_cast small
      simp only [lastPlace]
      omega
  obtain ⟨shift, shiftEquality⟩ := Int.exists_eq_neg_ofNat place
  have unit : (2 : ℚ) ^ lastPlace (value : ℚ) = ((2 : ℚ) ^ shift)⁻¹ := by
    rw [shiftEquality, zpow_neg, zpow_natCast]
  have scaled : (value : ℚ) / (2 : ℚ) ^ lastPlace (value : ℚ) =
      ((value * 2 ^ shift : ℤ) : ℚ) := by
    rw [unit, div_inv_eq_mul]
    push_cast
    rfl
  have rounded : (roundHalfEven ((value : ℚ) / (2 : ℚ) ^ lastPlace (value : ℚ)) : ℚ) *
      (2 : ℚ) ^ lastPlace (value : ℚ) = value := by
    rw [scaled, roundHalfEven_intCast, unit]
    push_cast
    field_simp
  have finite : |(value : ℚ)| < (2 : ℚ) ^ 1024 := by
    have : |(value : ℚ)| < (2 : ℚ) ^ 53 := by exact_mod_cast small
    exact this.trans (pow_lt_pow_right₀ (by norm_num) (by norm_num))
  simp only [roundDouble, rounded, if_pos finite]

/-- A JSON value. A record lists its members in the order of the text. -/
inductive Value where
  | null
  /-- A truth value. -/
  | boolean (value : Bool)
  | number (value : Number)
  | string (value : Utf16)
  | array (items : List Value)
  | record (members : List (Utf16 × Value))

/-- The value of a member. The last one counts where the text repeats a name. -/
def Value.member (value : Value) (name : Utf16) : Option Value :=
  match value with
  | .record members => (members.reverse.find? fun entry => entry.1 = name).map Prod.snd
  | _ => none

/-- Drop leading white space. -/
def skipSpace : Utf16 → Utf16
  | [] => []
  | unit :: rest =>
      if unit = 0x20 ∨ unit = 0x09 ∨ unit = 0x0A ∨ unit = 0x0D then skipSpace rest
      else unit :: rest

/-- The value of a decimal digit. -/
def digit? (unit : UInt16) : Option Nat :=
  if 0x30 ≤ unit.toNat ∧ unit.toNat ≤ 0x39 then some (unit.toNat - 0x30) else none

/-- The value of a hexadecimal digit. -/
def hexDigit? (unit : UInt16) : Option Nat :=
  if 0x30 ≤ unit.toNat ∧ unit.toNat ≤ 0x39 then some (unit.toNat - 0x30)
  else if 0x41 ≤ unit.toNat ∧ unit.toNat ≤ 0x46 then some (unit.toNat - 0x41 + 10)
  else if 0x61 ≤ unit.toNat ∧ unit.toNat ≤ 0x66 then some (unit.toNat - 0x61 + 10)
  else none

/-- The longest run of decimal digits, and what follows it. -/
def takeDigits : Utf16 → List Nat × Utf16
  | [] => ([], [])
  | unit :: rest =>
      match digit? unit with
      | some value => ((value :: (takeDigits rest).1), (takeDigits rest).2)
      | none => ([], unit :: rest)

/-- The number that a run of digits names, most significant first. -/
def digitsValue (digits : List Nat) : Nat := Nat.ofDigits 10 digits.reverse

/-- The character that a one-letter escape stands for. -/
def simpleEscape? (unit : UInt16) : Option UInt16 :=
  if unit = 0x22 then some 0x22
  else if unit = 0x5C then some 0x5C
  else if unit = 0x2F then some 0x2F
  else if unit = 0x62 then some 0x08
  else if unit = 0x66 then some 0x0C
  else if unit = 0x6E then some 0x0A
  else if unit = 0x72 then some 0x0D
  else if unit = 0x74 then some 0x09
  else none

/-- The code unit of a four-digit escape. -/
def hexUnit? (a b c d : UInt16) : Option UInt16 := do
  let a ← hexDigit? a
  let b ← hexDigit? b
  let c ← hexDigit? c
  let d ← hexDigit? d
  return UInt16.ofNat (a * 0x1000 + b * 0x100 + c * 0x10 + d)

/-- The rest of a string literal behind its opening quotation mark. -/
def parseChars : Utf16 → Option (Utf16 × Utf16)
  | [] => none
  | unit :: rest =>
      if unit = 0x22 then some ([], rest)
      else if unit = 0x5C then
        match rest with
        | [] => none
        | escape :: rest =>
            match simpleEscape? escape with
            | some value => (parseChars rest).map fun result => (value :: result.1, result.2)
            | none =>
                if escape = 0x75 then
                  match rest with
                  | a :: b :: c :: d :: rest =>
                      match hexUnit? a b c d with
                      | some value =>
                          (parseChars rest).map fun result => (value :: result.1, result.2)
                      | none => none
                  | _ => none
                else none
      else if unit.toNat < 0x20 then none
      else (parseChars rest).map fun result => (unit :: result.1, result.2)

/-- The digits of a fraction, when the text has one. -/
def parseFraction : Utf16 → Option (List Nat × Utf16)
  | 0x2E :: rest =>
      match takeDigits rest with
      | ([], _) => none
      | result => some result
  | text => some ([], text)

/-- The signed exponent, when the text has one. -/
def parseExponent : Utf16 → Option (ℤ × Utf16)
  | [] => some (0, [])
  | unit :: rest =>
      if unit = 0x65 ∨ unit = 0x45 then
        let (sign, rest) : ℤ × Utf16 :=
          match rest with
          | 0x2D :: rest => (-1, rest)
          | 0x2B :: rest => (1, rest)
          | rest => (1, rest)
        match takeDigits rest with
        | ([], _) => none
        | (digits, rest) => some (sign * digitsValue digits, rest)
      else some (0, unit :: rest)

/-- A number literal without its sign. -/
def parseUnsigned (text : Utf16) : Option (ℚ × Utf16) :=
  match takeDigits text with
  | ([], _) => none
  | (0 :: _ :: _, _) => none
  | (digits, rest) => do
      let (fraction, rest) ← parseFraction rest
      let (exponent, rest) ← parseExponent rest
      let mantissa : ℚ := digitsValue (digits ++ fraction)
      return (mantissa * (10 : ℚ) ^ (exponent - fraction.length), rest)

def parseNumber : Utf16 → Option (Number × Utf16)
  | 0x2D :: rest => (parseUnsigned rest).map fun result => (roundDouble (-result.1), result.2)
  | text => (parseUnsigned text).map fun result => (roundDouble result.1, result.2)

/-- The code units of an ASCII word. -/
def ascii (word : String) : Utf16 := word.toList.map fun letter => UInt16.ofNat letter.toNat

/-- Consume a fixed word. -/
def parseWord (word : Utf16) (value : Value) (text : Utf16) : Option (Value × Utf16) :=
  if word.isPrefixOf text then some (value, text.drop word.length) else none

mutual

/-- A value behind optional white space. The fuel bounds the nesting and the member counts. -/
def parseValue : Nat → Utf16 → Option (Value × Utf16)
  | 0, _ => none
  | fuel + 1, text =>
      match skipSpace text with
      | [] => none
      | unit :: rest =>
          if unit = 0x22 then
            (parseChars rest).map fun result => (.string result.1, result.2)
          else if unit = 0x7B then
            match skipSpace rest with
            | 0x7D :: rest => some (.record [], rest)
            | rest => (parseMembers fuel rest).map fun result => (.record result.1, result.2)
          else if unit = 0x5B then
            match skipSpace rest with
            | 0x5D :: rest => some (.array [], rest)
            | rest => (parseItems fuel rest).map fun result => (.array result.1, result.2)
          else if unit = 0x74 then parseWord (ascii "true") (.boolean true) (unit :: rest)
          else if unit = 0x66 then parseWord (ascii "false") (.boolean false) (unit :: rest)
          else if unit = 0x6E then parseWord (ascii "null") .null (unit :: rest)
          else (parseNumber (unit :: rest)).map fun result => (.number result.1, result.2)

/-- The members of a nonempty record, up to its closing brace. -/
def parseMembers : Nat → Utf16 → Option (List (Utf16 × Value) × Utf16)
  | 0, _ => none
  | fuel + 1, text =>
      match skipSpace text with
      | 0x22 :: rest => do
          let (name, rest) ← parseChars rest
          match skipSpace rest with
          | 0x3A :: rest => do
              let (value, rest) ← parseValue fuel rest
              match skipSpace rest with
              | 0x2C :: rest => do
                  let (members, rest) ← parseMembers fuel rest
                  return ((name, value) :: members, rest)
              | 0x7D :: rest => return ([(name, value)], rest)
              | _ => none
          | _ => none
      | _ => none

/-- The items of a nonempty array, up to its closing bracket. -/
def parseItems : Nat → Utf16 → Option (List Value × Utf16)
  | 0, _ => none
  | fuel + 1, text => do
      let (value, rest) ← parseValue fuel text
      match skipSpace rest with
      | 0x2C :: rest => do
          let (items, rest) ← parseItems fuel rest
          return (value :: items, rest)
      | 0x5D :: rest => return ([value], rest)
      | _ => none

end

/-- `JSON.parse`. A level of nesting takes two units of fuel and at least one code unit. -/
def parse (text : Utf16) : Option Value :=
  match parseValue (2 * text.length + 2) text with
  | some (value, rest) => if skipSpace rest = [] then some value else none
  | none => none

/-- A lower-case hexadecimal digit. -/
def hexDigit (value : Nat) : UInt16 :=
  if value < 10 then UInt16.ofNat (0x30 + value) else UInt16.ofNat (0x61 + (value - 10))

/-- The four-digit escape of a code unit. -/
def hexEscape (unit : UInt16) : Utf16 :=
  [0x5C, 0x75, hexDigit (unit.toNat / 0x1000), hexDigit (unit.toNat / 0x100 % 0x10),
    hexDigit (unit.toNat / 0x10 % 0x10), hexDigit (unit.toNat % 0x10)]

/-- The text of one code unit that is not part of a surrogate pair. -/
def escapeUnit (unit : UInt16) : Utf16 :=
  if unit = 0x08 then [0x5C, 0x62]
  else if unit = 0x09 then [0x5C, 0x74]
  else if unit = 0x0A then [0x5C, 0x6E]
  else if unit = 0x0C then [0x5C, 0x66]
  else if unit = 0x0D then [0x5C, 0x72]
  else if unit = 0x22 then [0x5C, 0x22]
  else if unit = 0x5C then [0x5C, 0x5C]
  else if unit.toNat < 0x20 ∨ Surrogate unit then hexEscape unit
  else [unit]

/-- The text of a string between its quotation marks. Pairs stay, lone surrogates are escaped. -/
def escape : Utf16 → Utf16
  | [] => []
  | [unit] => escapeUnit unit
  | first :: second :: rest =>
      if High first ∧ Low second then first :: second :: escape rest
      else escapeUnit first ++ escape (second :: rest)

/-- `JSON.stringify` of a string. -/
def quote (text : Utf16) : Utf16 := 0x22 :: (escape text ++ [0x22])

/-- The decimal digits of a natural number, most significant first. -/
def decimalDigits (value : Nat) : List Nat :=
  if value = 0 then [0] else (Nat.digits 10 value).reverse

/-- The decimal text of a natural number. -/
def natural (value : Nat) : Utf16 :=
  (decimalDigits value).map fun digit => UInt16.ofNat (0x30 + digit)

/-- `JSON.stringify` of a safe integer. -/
def integer (value : ℤ) : Utf16 :=
  if value < 0 then 0x2D :: natural value.natAbs else natural value.natAbs

/-- The members of a record, each a name with the text of its value. -/
def members : List (Utf16 × Utf16) → Utf16
  | [] => []
  | [(name, text)] => quote name ++ 0x3A :: text
  | (name, text) :: next :: rest =>
      quote name ++ 0x3A :: (text ++ 0x2C :: members (next :: rest))

/-- `JSON.stringify` of a record, given the texts of its members. -/
def record (fields : List (Utf16 × Utf16)) : Utf16 := 0x7B :: (members fields ++ [0x7D])

theorem hexDigit?_hexDigit {value : Nat} (small : value < 16) :
    hexDigit? (hexDigit value) = some value := by
  interval_cases value <;> rfl

theorem hexUnit?_hexEscape (unit : UInt16) :
    hexUnit? (hexDigit (unit.toNat / 0x1000)) (hexDigit (unit.toNat / 0x100 % 0x10))
      (hexDigit (unit.toNat / 0x10 % 0x10)) (hexDigit (unit.toNat % 0x10)) = some unit := by
  have bound := unit_toNat_lt unit
  have joined : unit.toNat / 0x1000 * 0x1000 + unit.toNat / 0x100 % 0x10 * 0x100 +
      unit.toNat / 0x10 % 0x10 * 0x10 + unit.toNat % 0x10 = unit.toNat := by omega
  simp only [hexUnit?, hexDigit?_hexDigit (show unit.toNat / 0x1000 < 16 by omega),
    hexDigit?_hexDigit (show unit.toNat / 0x100 % 0x10 < 16 by omega),
    hexDigit?_hexDigit (show unit.toNat / 0x10 % 0x10 < 16 by omega),
    hexDigit?_hexDigit (show unit.toNat % 0x10 < 16 by omega), Option.bind_eq_bind,
    Option.bind_some, joined]
  simp

theorem parseChars_plain {unit : UInt16} (rest : Utf16) (notQuote : unit ≠ 0x22)
    (notEscape : unit ≠ 0x5C) (printable : 0x20 ≤ unit.toNat) :
    parseChars (unit :: rest) =
      (parseChars rest).map fun result => (unit :: result.1, result.2) := by
  rw [parseChars.eq_def]
  simp only [notQuote, notEscape, if_false, if_neg (show ¬unit.toNat < 0x20 by omega)]

theorem parseChars_quotation (rest : Utf16) : parseChars (0x22 :: rest) = some ([], rest) := by
  rw [parseChars.eq_def]
  simp

theorem parseChars_simpleEscape {letter value : UInt16} (rest : Utf16)
    (found : simpleEscape? letter = some value) :
    parseChars (0x5C :: letter :: rest) =
      (parseChars rest).map fun result => (value :: result.1, result.2) := by
  rw [parseChars.eq_def]
  simp [found]

theorem parseChars_hexEscape (unit : UInt16) (rest : Utf16) :
    parseChars (hexEscape unit ++ rest) =
      (parseChars rest).map fun result => (unit :: result.1, result.2) := by
  rw [hexEscape, parseChars.eq_def]
  simp [simpleEscape?, hexUnit?_hexEscape]

theorem parseChars_escapeUnit (unit : UInt16) (rest : Utf16) :
    parseChars (escapeUnit unit ++ rest) =
      (parseChars rest).map fun result => (unit :: result.1, result.2) := by
  unfold escapeUnit
  split_ifs with backspace tab newline formFeed carriage quotation reverse special
  · exact parseChars_simpleEscape rest (backspace ▸ rfl)
  · exact parseChars_simpleEscape rest (tab ▸ rfl)
  · exact parseChars_simpleEscape rest (newline ▸ rfl)
  · exact parseChars_simpleEscape rest (formFeed ▸ rfl)
  · exact parseChars_simpleEscape rest (carriage ▸ rfl)
  · exact parseChars_simpleEscape rest (by rw [quotation]; rfl)
  · exact parseChars_simpleEscape rest (by rw [reverse]; rfl)
  · exact parseChars_hexEscape unit rest
  · exact parseChars_plain rest quotation reverse (by omega)

theorem parseChars_escape (text rest : Utf16) :
    parseChars (escape text ++ 0x22 :: rest) = some (text, rest) := by
  induction text using escape.induct with
  | case1 => exact parseChars_quotation rest
  | case2 unit => rw [escape, parseChars_escapeUnit, parseChars_quotation]; rfl
  | case3 first second more paired induction =>
      have firstPlain : first ≠ 0x22 ∧ first ≠ 0x5C := by
        constructor <;> rintro rfl <;> exact absurd paired.1 (by decide)
      have secondPlain : second ≠ 0x22 ∧ second ≠ 0x5C := by
        constructor <;> rintro rfl <;> exact absurd paired.2 (by decide)
      rw [escape, if_pos paired, List.cons_append, List.cons_append,
        parseChars_plain _ firstPlain.1 firstPlain.2 (by omega),
        parseChars_plain _ secondPlain.1 secondPlain.2 (by omega), induction]
      rfl
  | case4 first second more single induction =>
      rw [escape, if_neg single, List.append_assoc, parseChars_escapeUnit, induction]
      rfl

theorem digit?_ofNat {digit : Nat} (small : digit < 10) :
    digit? (UInt16.ofNat (0x30 + digit)) = some digit := by
  interval_cases digit <;> rfl

theorem takeDigits_append {digits : List Nat} (small : ∀ digit ∈ digits, digit < 10)
    {rest : Utf16} (stop : takeDigits rest = ([], rest)) :
    takeDigits ((digits.map fun digit => UInt16.ofNat (0x30 + digit)) ++ rest) =
      (digits, rest) := by
  induction digits with
  | nil => exact stop
  | cons digit digits induction =>
      have tail := induction fun value member => small value (List.mem_cons_of_mem digit member)
      rw [List.map_cons, List.cons_append, takeDigits,
        digit?_ofNat (small digit List.mem_cons_self), tail]

theorem decimalDigits_lt (value : Nat) : ∀ digit ∈ decimalDigits value, digit < 10 := by
  intro digit member
  unfold decimalDigits at member
  split at member
  · simp_all
  · exact Nat.digits_lt_base (by norm_num) (List.mem_reverse.mp member)

theorem digitsValue_decimalDigits (value : Nat) : digitsValue (decimalDigits value) = value := by
  unfold decimalDigits
  split
  · simp_all [digitsValue]
  · simp [digitsValue, Nat.ofDigits_digits]

/-- A decimal text has no leading zero. -/
theorem decimalDigits_cases (value : Nat) :
    decimalDigits value = [0] ∨
      ∃ first rest, decimalDigits value = (first + 1) :: rest := by
  unfold decimalDigits
  split
  · exact .inl rfl
  · rename_i nonzero
    right
    have nonempty : Nat.digits 10 value ≠ [] := Nat.digits_ne_nil_iff_ne_zero.mpr nonzero
    have last := Nat.getLast_digit_ne_zero 10 nonzero
    obtain ⟨first, firstEquality⟩ := Nat.exists_eq_succ_of_ne_zero last
    refine ⟨first, (Nat.digits 10 value).dropLast.reverse, ?_⟩
    conv_lhs => rw [← List.dropLast_append_getLast nonempty, List.reverse_append]
    simp [firstEquality]

/-- The text goes on with the end of a member. -/
def Ends (rest : Utf16) : Prop := ∃ more, rest = 0x2C :: more ∨ rest = 0x7D :: more

theorem parseUnsigned_natural (value : Nat) {rest : Utf16} (ends : Ends rest) :
    parseUnsigned (natural value ++ rest) = some ((value : ℚ), rest) := by
  have stop : takeDigits rest = ([], rest) ∧ parseFraction rest = some ([], rest) ∧
      parseExponent rest = some (0, rest) := by
    obtain ⟨more, rfl | rfl⟩ := ends <;> exact ⟨rfl, rfl, rfl⟩
  have taken : takeDigits (natural value ++ rest) = (decimalDigits value, rest) :=
    takeDigits_append (decimalDigits_lt value) stop.1
  have total := digitsValue_decimalDigits value
  rcases decimalDigits_cases value with digits | ⟨first, more, digits⟩ <;>
    rw [digits] at taken total <;>
    simp [parseUnsigned, taken, stop, total]

theorem natural_head (value : Nat) (rest more : Utf16) :
    natural value ++ rest ≠ 0x2D :: more := by
  intro minus
  have small := decimalDigits_lt value
  rcases decimalDigits_cases value with digits | ⟨first, tail, digits⟩
  · simp [natural, digits] at minus
  · have digit := digit?_ofNat (small (first + 1) (by simp [digits]))
    simp only [natural, digits, List.map_cons, List.cons_append, List.cons.injEq] at minus
    rw [minus.1] at digit
    simp [digit?] at digit

theorem parseNumber_natural (value : Nat) {rest : Utf16} (ends : Ends rest) :
    parseNumber (natural value ++ rest) = some (roundDouble (value : ℚ), rest) := by
  unfold parseNumber
  split
  · rename_i more minus
    exact absurd minus (natural_head value rest more)
  · rw [parseUnsigned_natural value ends]
    rfl

theorem parseNumber_integer {value : ℤ} (safe : |value| < 2 ^ 53) {rest : Utf16}
    (ends : Ends rest) :
    parseNumber (integer value ++ rest) = some (.finite (value : ℚ), rest) := by
  have rounded := roundDouble_intCast safe
  obtain ⟨magnitude, rfl | rfl⟩ := value.eq_nat_or_neg
  · have text : integer (magnitude : ℤ) = natural magnitude := by simp [integer]
    rw [text, parseNumber_natural magnitude ends]
    exact congrArg (fun number => some (number, rest)) rounded
  · by_cases zero : magnitude = 0
    · subst zero
      exact (parseNumber_natural 0 ends).trans (congrArg (fun number => some (number, rest)) rounded)
    · have text : integer (-(magnitude : ℤ)) = 0x2D :: natural magnitude := by
        simp [integer, Nat.pos_of_ne_zero zero]
      rw [text, List.cons_append, parseNumber, parseUnsigned_natural magnitude ends]
      push_cast at rounded ⊢
      simp [rounded]

theorem natural_eq_cons (value : Nat) :
    ∃ unit rest, natural value = unit :: rest ∧ 0x30 ≤ unit.toNat ∧ unit.toNat ≤ 0x39 := by
  have small := decimalDigits_lt value
  rcases decimalDigits_cases value with digits | ⟨first, tail, digits⟩
  · exact ⟨0x30, [], by simp [natural, digits], by decide, by decide⟩
  · have bound := small (first + 1) (by simp [digits])
    refine ⟨UInt16.ofNat (0x30 + (first + 1)), tail.map _, by rw [natural, digits]; rfl, ?_⟩
    rw [toNat_ofNat_unit (by omega)]
    omega

theorem integer_eq_cons (value : ℤ) :
    ∃ unit rest, integer value = unit :: rest ∧
      (unit = 0x2D ∨ 0x30 ≤ unit.toNat ∧ unit.toNat ≤ 0x39) := by
  unfold integer
  split
  · exact ⟨0x2D, _, rfl, .inl rfl⟩
  · obtain ⟨unit, rest, text, range⟩ := natural_eq_cons value.natAbs
    exact ⟨unit, rest, text, .inr range⟩

/-! ### Values, members and records -/

theorem skipSpace_cons {unit : UInt16} (ink : 0x20 < unit.toNat) (rest : Utf16) :
    skipSpace (unit :: rest) = unit :: rest := by
  have visible : ¬(unit = 0x20 ∨ unit = 0x09 ∨ unit = 0x0A ∨ unit = 0x0D) := by
    rintro (rfl | rfl | rfl | rfl) <;> exact absurd ink (by decide)
  rw [skipSpace, if_neg visible]

theorem parseValue_quote (fuel : Nat) (text rest : Utf16) :
    parseValue (fuel + 1) (quote text ++ rest) = some (.string text, rest) := by
  rw [quote, List.cons_append, parseValue, skipSpace_cons (by decide)]
  simp [parseChars_escape]

theorem parseValue_integer (fuel : Nat) {value : ℤ} (safe : |value| < 2 ^ 53) {rest : Utf16}
    (ends : Ends rest) :
    parseValue (fuel + 1) (integer value ++ rest) =
      some (.number (.finite (value : ℚ)), rest) := by
  have parsed := parseNumber_integer safe ends
  obtain ⟨unit, more, text, range⟩ := integer_eq_cons value
  rw [text, List.cons_append] at parsed ⊢
  have other : unit ≠ 0x22 ∧ unit ≠ 0x7B ∧ unit ≠ 0x5B ∧ unit ≠ 0x74 ∧ unit ≠ 0x66 ∧
      unit ≠ 0x6E := by
    refine ⟨?_, ?_, ?_, ?_, ?_, ?_⟩ <;> rintro rfl <;> exact absurd range (by decide)
  have ink : 0x20 < unit.toNat := by
    rcases range with rfl | range
    · decide
    · omega
  rw [parseValue, skipSpace_cons ink]
  simp [other, parsed]

/-- A text whose value the parser reads in front of the end of a member. -/
def Reads (fuel : Nat) (text : Utf16) (value : Value) : Prop :=
  ∀ rest, Ends rest → parseValue fuel (text ++ rest) = some (value, rest)

theorem reads_quote (fuel : Nat) (text : Utf16) : Reads (fuel + 1) (quote text) (.string text) :=
  fun rest _ => parseValue_quote fuel text rest

theorem reads_integer (fuel : Nat) (value : SafeInt) :
    Reads (fuel + 1) (integer value.val) (.number value.number) := by
  have safe : |value.val| < 2 ^ 53 := by
    have := value.property
    omega
  exact fun rest ends => parseValue_integer fuel safe ends

theorem parseMembers_last {fuel : Nat} {name text : Utf16} {value : Value}
    (reads : Reads fuel text value) (rest : Utf16) :
    parseMembers (fuel + 1) (members [(name, text)] ++ 0x7D :: rest) =
      some ([(name, value)], rest) := by
  have read := reads (0x7D :: rest) ⟨rest, .inr rfl⟩
  simp only [members, quote, List.cons_append, List.append_assoc, List.nil_append]
  rw [parseMembers, skipSpace_cons (by decide)]
  simp [parseChars_escape, skipSpace_cons (show 0x20 < (0x3A : UInt16).toNat by decide), read,
    skipSpace_cons (show 0x20 < (0x7D : UInt16).toNat by decide)]

theorem parseMembers_cons {fuel : Nat} {name text : Utf16} {value : Value}
    {next : Utf16 × Utf16} {more : List (Utf16 × Utf16)} {values : List (Utf16 × Value)}
    {after rest : Utf16} (reads : Reads fuel text value)
    (tail : parseMembers fuel (members (next :: more) ++ rest) = some (values, after)) :
    parseMembers (fuel + 1) (members ((name, text) :: next :: more) ++ rest) =
      some ((name, value) :: values, after) := by
  have read := reads (0x2C :: (members (next :: more) ++ rest)) ⟨_, .inl rfl⟩
  simp only [members, quote, List.cons_append, List.append_assoc, List.nil_append]
  rw [parseMembers, skipSpace_cons (by decide)]
  simp [parseChars_escape, skipSpace_cons (show 0x20 < (0x3A : UInt16).toNat by decide), read,
    skipSpace_cons (show 0x20 < (0x2C : UInt16).toNat by decide), tail]

theorem parseValue_record {fuel : Nat} {field : Utf16 × Utf16} {more : List (Utf16 × Utf16)}
    {values : List (Utf16 × Value)} {rest : Utf16}
    (inner : parseMembers fuel (members (field :: more) ++ 0x7D :: rest) = some (values, rest)) :
    parseValue (fuel + 1) (record (field :: more) ++ rest) = some (.record values, rest) := by
  have opening : ∃ tail, members (field :: more) ++ 0x7D :: rest = 0x22 :: tail := by
    cases more <;> exact ⟨_, rfl⟩
  obtain ⟨tail, opening⟩ := opening
  have text : record (field :: more) ++ rest = 0x7B :: (members (field :: more) ++ 0x7D :: rest) := by
    simp [record]
  rw [text, parseValue, skipSpace_cons (by decide), opening]
  rw [opening] at inner
  simp [skipSpace_cons (show 0x20 < (0x22 : UInt16).toNat by decide), inner]

/-! ### The written text survives the encoder -/

theorem wellFormed_plain {text : Utf16} (plain : ∀ unit ∈ text, ¬Surrogate unit) :
    WellFormed text := by
  induction text with
  | nil => trivial
  | cons unit rest induction =>
      exact wellFormed_cons (plain unit List.mem_cons_self)
        (induction fun other member => plain other (List.mem_cons_of_mem unit member))

theorem hexDigit_plain {value : Nat} (small : value < 16) : ¬Surrogate (hexDigit value) := by
  interval_cases value <;> decide

theorem wellFormed_hexEscape (unit : UInt16) : WellFormed (hexEscape unit) := by
  have bound := unit_toNat_lt unit
  apply wellFormed_plain
  intro other member
  simp only [hexEscape, List.mem_cons, List.not_mem_nil, or_false] at member
  rcases member with rfl | rfl | rfl | rfl | rfl | rfl
  · decide
  · decide
  all_goals exact hexDigit_plain (by omega)

theorem wellFormed_escapeUnit (unit : UInt16) : WellFormed (escapeUnit unit) := by
  unfold escapeUnit
  split_ifs with backspace tab newline formFeed carriage quotation reverse special
  · exact wellFormed_plain (by simp)
  · exact wellFormed_plain (by simp)
  · exact wellFormed_plain (by simp)
  · exact wellFormed_plain (by simp)
  · exact wellFormed_plain (by simp)
  · exact wellFormed_plain (by simp)
  · exact wellFormed_plain (by simp)
  · exact wellFormed_hexEscape unit
  · exact fun surrogate => special (.inr surrogate)

theorem wellFormed_escape (text : Utf16) : WellFormed (escape text) := by
  induction text using escape.induct with
  | case1 => trivial
  | case2 unit => exact wellFormed_escapeUnit unit
  | case3 first second rest paired induction =>
      rw [escape, if_pos paired]
      simpa only [WellFormed, if_pos paired] using induction
  | case4 first second rest single induction =>
      rw [escape, if_neg single]
      exact wellFormed_append (wellFormed_escapeUnit first) induction

theorem wellFormed_quote (text : Utf16) : WellFormed (quote text) :=
  wellFormed_cons (by decide) (wellFormed_append (wellFormed_escape text) (wellFormed_plain (by simp)))

theorem wellFormed_natural (value : Nat) : WellFormed (natural value) := by
  apply wellFormed_plain
  intro unit member
  obtain ⟨digit, digitMember, rfl⟩ := List.mem_map.mp member
  have small := decimalDigits_lt value digit digitMember
  rw [Surrogate, toNat_ofNat_unit (by omega)]
  omega

theorem wellFormed_integer (value : ℤ) : WellFormed (integer value) := by
  unfold integer
  split
  · exact wellFormed_cons (by decide) (wellFormed_natural _)
  · exact wellFormed_natural _

theorem wellFormed_members {fields : List (Utf16 × Utf16)}
    (formed : ∀ field ∈ fields, WellFormed field.2) : WellFormed (members fields) := by
  induction fields using members.induct with
  | case1 => trivial
  | case2 name text =>
      exact wellFormed_append (wellFormed_quote name)
        (wellFormed_cons (by decide) (formed (name, text) List.mem_cons_self))
  | case3 name text next rest induction =>
      have tail := induction fun field member => formed field (List.mem_cons_of_mem _ member)
      exact wellFormed_append (wellFormed_quote name)
        (wellFormed_cons (by decide)
          (wellFormed_append (formed (name, text) List.mem_cons_self)
            (wellFormed_cons (by decide) tail)))

theorem wellFormed_record {fields : List (Utf16 × Utf16)}
    (formed : ∀ field ∈ fields, WellFormed field.2) : WellFormed (record fields) :=
  wellFormed_cons (by decide)
    (wellFormed_append (wellFormed_members formed) (wellFormed_plain (by simp)))

theorem decode_encode_record {fields : List (Utf16 × Utf16)}
    (formed : ∀ field ∈ fields, WellFormed field.2) :
    decode (encode (record fields)) = some (record fields) := by
  have lossless : Lossless (record fields) :=
    (lossless_iff _).mpr ⟨wellFormed_record formed, by simp [record]⟩
  rw [decode_encode, lossless]

end Json
end Postgamma
