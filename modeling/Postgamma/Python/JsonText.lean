import Mathlib
import Postgamma.Library.Decimal
import Postgamma.Python.Intervals

/-!
# The `json` module

`json.dumps` of a single value with `ensure_ascii`, and `json.loads`. Floating point numbers are a
parameter. A text is a sequence of code points; two escapes in a row that name a pair of
surrogates are read as one character.
-/

namespace Postgamma
namespace Python
namespace JsonText

/-- A value of JSON; an object is in the order of its insertions. -/
inductive JsonValue (φ : Type)
  | null
  | bool (value : Bool)
  | int (value : ℤ)
  | float (value : φ)
  | str (value : Str)
  | list (items : List (JsonValue φ))
  | dict (entries : List (Str × JsonValue φ))

/-- The type `float`, of which `φ` holds the values. -/
structure Floats (φ : Type) where
  /-- `float.__repr__` of a finite number. -/
  repr : φ → Str
  float : Str → φ
  /-- The values of `NaN`, `Infinity` and `-Infinity`. -/
  constant : Str → φ

/-- A leading surrogate. -/
abbrev High (point : ℕ) : Prop := 0xD800 ≤ point ∧ point ≤ 0xDBFF

/-- A trailing surrogate. -/
abbrev Low (point : ℕ) : Prop := 0xDC00 ≤ point ∧ point ≤ 0xDFFF

def isDigit (point : ℕ) : Bool := 48 ≤ point && point ≤ 57

def hexDigit (digit : ℕ) : ℕ := if digit < 10 then 48 + digit else 87 + digit

/-- An escape with four hexadecimal digits. -/
def hexEscape (unit : ℕ) : Str :=
  [92, 117, hexDigit (unit / 0x1000 % 0x10), hexDigit (unit / 0x100 % 0x10),
    hexDigit (unit / 0x10 % 0x10), hexDigit (unit % 0x10)]

/-- A character of a string with `ensure_ascii`. -/
def dumpPoint (point : ℕ) : Str :=
  if point = 34 then [92, 34]
  else if point = 92 then [92, 92]
  else if point = 10 then lit "\\n"
  else if point = 13 then lit "\\r"
  else if point = 9 then lit "\\t"
  else if point = 12 then lit "\\f"
  else if point = 8 then lit "\\b"
  else if 32 ≤ point ∧ point ≤ 126 then [point]
  else if point < 0x10000 then hexEscape point
  else
    hexEscape (0xD800 + (point - 0x10000) / 0x400) ++
      hexEscape (0xDC00 + (point - 0x10000) % 0x400)

def dumpString (value : Str) : Str := 34 :: (value.flatMap dumpPoint ++ [34])

/-- `int.__repr__`, which refuses a number with too many digits. -/
def dumpInt (value : ℤ) : Option Str :=
  if 4300 < (lit (toString value.natAbs)).length then none
  else some ((if value < 0 then [45] else []) ++ lit (toString value.natAbs))

/-- The text behind blanks. -/
def skipBlank (text : Str) : Str :=
  text.dropWhile fun point => point == 32 || point == 9 || point == 10 || point == 13

/-- The value of a hexadecimal digit. -/
def hexValue? (point : ℕ) : Option ℕ :=
  if 48 ≤ point ∧ point ≤ 57 then some (point - 48)
  else if 65 ≤ point ∧ point ≤ 70 then some (point - 55)
  else if 97 ≤ point ∧ point ≤ 102 then some (point - 87)
  else none

/-- The code unit of four hexadecimal digits. -/
def hexUnit? (a b c d : ℕ) : Option ℕ := do
  let a ← hexValue? a
  let b ← hexValue? b
  let c ← hexValue? c
  let d ← hexValue? d
  return 0x1000 * a + 0x100 * b + 0x10 * c + d

def shortEscape? (letter : ℕ) : Option ℕ :=
  if letter = 34 ∨ letter = 92 ∨ letter = 47 then some letter
  else if letter = 98 then some 8
  else if letter = 102 then some 12
  else if letter = 110 then some 10
  else if letter = 114 then some 13
  else if letter = 116 then some 9
  else none

/-- The character of a pair of surrogates. -/
def joinSurrogates (high low : ℕ) : ℕ := 0x10000 + (high - 0xD800) * 0x400 + (low - 0xDC00)

/-- The characters of a string, and what follows its closing quotation mark. -/
def scanString : Str → Option (Str × Str)
  | [] => none
  | point :: text =>
      if point = 34 then some ([], text)
      else if point = 92 then
        match text with
        | [] => none
        | letter :: text =>
            if letter = 117 then
              match text with
              | a :: b :: c :: d :: text =>
                  match hexUnit? a b c d with
                  | none => none
                  | some unit =>
                      match text with
                      | backslash :: mark :: a :: b :: c :: d :: behind =>
                          if High unit ∧ backslash = 92 ∧ mark = 117 then
                            match hexUnit? a b c d with
                            | none => none
                            | some low =>
                                if Low low then
                                  (scanString behind).map fun read =>
                                    (joinSurrogates unit low :: read.1, read.2)
                                else
                                  (scanString (backslash :: mark :: a :: b :: c :: d :: behind)).map
                                    fun read => (unit :: read.1, read.2)
                          else
                            (scanString (backslash :: mark :: a :: b :: c :: d :: behind)).map
                              fun read => (unit :: read.1, read.2)
                      | text => (scanString text).map fun read => (unit :: read.1, read.2)
              | _ => none
            else
              match shortEscape? letter with
              | none => none
              | some value => (scanString text).map fun read => (value :: read.1, read.2)
      else if point < 32 then none
      else (scanString text).map fun read => (point :: read.1, read.2)

/-- The sign and the digits of a number without leading zeros, and what follows them. -/
def takeInteger (text : Str) : Option (Str × Str) :=
  let sign := if text.head? = some 45 then [45] else []
  match (if text.head? = some 45 then text.tail else text) with
  | [] => none
  | digit :: rest =>
      if digit = 48 then some (sign ++ [48], rest)
      else if isDigit digit then
        some (sign ++ digit :: rest.takeWhile isDigit, rest.dropWhile isDigit)
      else none

/-- A fraction with its point, if there is one, and what follows it. -/
def takeFraction (text : Str) : Str × Str :=
  if text.head? = some 46 ∧ text.tail.takeWhile isDigit ≠ [] then
    (46 :: text.tail.takeWhile isDigit, text.tail.dropWhile isDigit)
  else ([], text)

/-- An exponent with its letter, if there is one, and what follows it. -/
def takeExponent (text : Str) : Str × Str :=
  match text with
  | [] => ([], text)
  | letter :: rest =>
      let sign := if rest.head? = some 43 ∨ rest.head? = some 45 then rest.take 1 else []
      let digits := rest.drop sign.length
      if (letter = 101 ∨ letter = 69) ∧ digits.takeWhile isDigit ≠ [] then
        (letter :: (sign ++ digits.takeWhile isDigit), digits.dropWhile isDigit)
      else ([], text)

/-- The number that digits name. -/
def digitsValue (digits : Str) : ℕ :=
  digits.foldl (fun total digit => 10 * total + (digit - 48)) 0

/-- `int`, which refuses a text with too many digits. -/
def readInt (text : Str) : Option ℤ :=
  let digits := text.filter isDigit
  if 4300 < digits.length then none
  else some (if text.head? = some 45 then -digitsValue digits else digitsValue digits)

section Loads

variable {φ : Type} (floats : Floats φ)

def scanNumber (text : Str) : Option (JsonValue φ × Str) := do
  let (integer, rest) ← takeInteger text
  let (fraction, rest) := takeFraction rest
  let (exponent, rest) := takeExponent rest
  if fraction = [] ∧ exponent = [] then
    (readInt integer).map fun value => (.int value, rest)
  else return (.float (floats.float (integer ++ fraction ++ exponent)), rest)

/-- A word with its value, and what follows it. -/
def scanWord (word : Str) (value : JsonValue φ) (text : Str) : Option (JsonValue φ × Str) :=
  if word.isPrefixOf text then some (value, text.drop word.length) else none

/-- Setting a key of a `dict`. -/
def setItem {α : Type} : List (Str × α) → Str × α → List (Str × α)
  | [], entry => [entry]
  | other :: entries, entry =>
      if other.1 = entry.1 then entry :: entries else other :: setItem entries entry

/-- `dict(pairs)`. -/
def toDict {α : Type} (pairs : List (Str × α)) : List (Str × α) := pairs.foldl setItem []

mutual

/-- `scan_once`; nothing stands for an exception. -/
def scanOnce : ℕ → Str → Option (JsonValue φ × Str)
  | 0, _ => none
  | _ + 1, [] => none
  | depth + 1, point :: text =>
      if point = 34 then (scanString text).map fun read => (.str read.1, read.2)
      else if point = 123 then
        match skipBlank text with
        | [] => none
        | mark :: text =>
            if mark = 125 then some (.dict [], text)
            else if mark = 34 then
              (scanMembers depth text).map fun read => (.dict (toDict read.1), read.2)
            else none
      else if point = 91 then
        let text := skipBlank text
        if text.head? = some 93 then some (.list [], text.tail)
        else (scanItems depth text).map fun read => (.list read.1, read.2)
      else
        scanWord (lit "null") .null (point :: text) <|>
        scanWord (lit "true") (.bool true) (point :: text) <|>
        scanWord (lit "false") (.bool false) (point :: text) <|>
        scanNumber floats (point :: text) <|>
        scanWord (lit "NaN") (.float (floats.constant (lit "NaN"))) (point :: text) <|>
        scanWord (lit "Infinity") (.float (floats.constant (lit "Infinity"))) (point :: text) <|>
        scanWord (lit "-Infinity") (.float (floats.constant (lit "-Infinity"))) (point :: text)

/-- The loop of `JSONObject`, behind the quotation mark of a key. -/
def scanMembers : ℕ → Str → Option (List (Str × JsonValue φ) × Str)
  | 0, _ => none
  | depth + 1, text => do
      let (key, text) ← scanString text
      match skipBlank text with
      | [] => none
      | colon :: text =>
          if colon ≠ 58 then none
          else do
            let (value, text) ← scanOnce depth (skipBlank text)
            match skipBlank text with
            | [] => none
            | delimiter :: text =>
                if delimiter = 125 then return ([(key, value)], text)
                else if delimiter ≠ 44 then none
                else
                  match skipBlank text with
                  | [] => none
                  | quotation :: text =>
                      if quotation ≠ 34 then none
                      else do
                        let (entries, text) ← scanMembers depth text
                        return ((key, value) :: entries, text)

/-- The loop of `JSONArray`. -/
def scanItems : ℕ → Str → Option (List (JsonValue φ) × Str)
  | 0, _ => none
  | depth + 1, text => do
      let (value, text) ← scanOnce depth text
      match skipBlank text with
      | [] => none
      | delimiter :: text =>
          if delimiter = 93 then return ([value], text)
          else if delimiter ≠ 44 then none
          else do
            let (values, text) ← scanItems depth (skipBlank text)
            return (value :: values, text)

end

/-- `json.loads` of a string. -/
def loads (text : Str) : Option (JsonValue φ) := do
  if text.head? = some 0xFEFF then none
  let (value, rest) ← scanOnce floats (2 * text.length + 1) (skipBlank text)
  if skipBlank rest = [] then return value else none

end Loads

theorem hexValue?_hexDigit {digit : ℕ} (small : digit < 16) :
    hexValue? (hexDigit digit) = some digit := by
  interval_cases digit <;> rfl

theorem hexUnit?_hexDigit {unit : ℕ} (small : unit < 0x10000) :
    hexUnit? (hexDigit (unit / 0x1000 % 0x10)) (hexDigit (unit / 0x100 % 0x10))
      (hexDigit (unit / 0x10 % 0x10)) (hexDigit (unit % 0x10)) = some unit := by
  have whole : 0x1000 * (unit / 0x1000 % 0x10) + 0x100 * (unit / 0x100 % 0x10) +
      0x10 * (unit / 0x10 % 0x10) + unit % 0x10 = unit := by omega
  simp only [hexUnit?, hexValue?_hexDigit (Nat.mod_lt _ (show 0 < 0x10 by norm_num)),
    Option.bind_eq_bind, Option.bind_some, Option.pure_def, whole]

theorem scanString_end (rest : Str) : scanString (34 :: rest) = some ([], rest) := by
  rw [scanString.eq_def]
  rfl

theorem scanString_plain {point : ℕ} (quotation : point ≠ 34) (escape : point ≠ 92)
    (ink : 32 ≤ point) (rest : Str) :
    scanString (point :: rest) = (scanString rest).map fun read => (point :: read.1, read.2) := by
  rw [scanString.eq_def]
  simp only [if_neg quotation, if_neg escape, if_neg (Nat.not_lt.mpr ink)]

theorem scanString_short {letter value : ℕ} (short : shortEscape? letter = some value)
    (rest : Str) : scanString (92 :: letter :: rest) =
      (scanString rest).map fun read => (value :: read.1, read.2) := by
  have other : letter ≠ 117 := by
    rintro rfl
    cases short
  rw [scanString.eq_def]
  simp only [if_neg (show ¬((92 : ℕ) = 34) by decide), if_true, if_neg other, short]

/-- A text that does not start with the escape of a trailing surrogate. -/
def Follows (rest : Str) : Prop :=
  ∀ a b c d behind, rest = 92 :: 117 :: a :: b :: c :: d :: behind →
    ∃ low, hexUnit? a b c d = some low ∧ ¬Low low

theorem scanString_alone {unit : ℕ} (small : unit < 0x10000) {rest : Str}
    (alone : High unit → Follows rest) :
    scanString (hexEscape unit ++ rest) =
      (scanString rest).map fun read => (unit :: read.1, read.2) := by
  have digits := hexUnit?_hexDigit small
  rw [hexEscape]
  simp only [List.cons_append, List.nil_append]
  rw [scanString.eq_def]
  simp only [if_neg (show ¬((92 : ℕ) = 34) by decide), if_true, digits]
  split
  · rename_i backslash mark a b c d behind
    split_ifs with paired
    · obtain ⟨high, rfl, rfl⟩ := paired
      obtain ⟨low, read, notLow⟩ := alone high a b c d behind rfl
      simp only [read, if_neg notLow]
    · rfl
  · rfl

theorem scanString_pair {high low : ℕ} (isHigh : High high) (isLow : Low low) (rest : Str) :
    scanString (hexEscape high ++ (hexEscape low ++ rest)) =
      (scanString rest).map fun read => (joinSurrogates high low :: read.1, read.2) := by
  have first := @hexUnit?_hexDigit high (by omega)
  have second := @hexUnit?_hexDigit low (by omega)
  rw [hexEscape, hexEscape]
  simp only [List.cons_append, List.nil_append]
  rw [scanString.eq_def]
  simp only [if_neg (show ¬((92 : ℕ) = 34) by decide), if_true, first, second, and_self]
  rw [if_pos ⟨isHigh, trivial⟩, if_pos isLow]

theorem joinSurrogates_split (offset : ℕ) :
    joinSurrogates (0xD800 + offset / 0x400) (0xDC00 + offset % 0x400) = 0x10000 + offset := by
  unfold joinSurrogates
  omega

/-- The code points of a Python string. -/
def Points (value : Str) : Prop := ∀ point ∈ value, point < 0x110000

/-- No leading surrogate stands directly in front of a trailing one. -/
def Unpaired (value : Str) : Prop := value.IsChain fun first second => ¬(High first ∧ Low second)

/-- A character is written as a short escape, as it is, or as one or two escapes of its units. -/
theorem dumpPoint_cases (point : ℕ) :
    (∃ letter, shortEscape? letter = some point ∧ dumpPoint point = [92, letter]) ∨
    (point ≠ 34 ∧ point ≠ 92 ∧ (32 ≤ point ∧ point ≤ 126) ∧ dumpPoint point = [point]) ∨
    (point < 0x10000 ∧ dumpPoint point = hexEscape point) ∨
    0x10000 ≤ point ∧ dumpPoint point =
      hexEscape (0xD800 + (point - 0x10000) / 0x400) ++
        hexEscape (0xDC00 + (point - 0x10000) % 0x400) := by
  obtain rfl | quotation := eq_or_ne point 34
  · exact .inl ⟨34, rfl, rfl⟩
  obtain rfl | escape := eq_or_ne point 92
  · exact .inl ⟨92, rfl, rfl⟩
  obtain rfl | line := eq_or_ne point 10
  · exact .inl ⟨110, rfl, rfl⟩
  obtain rfl | back := eq_or_ne point 13
  · exact .inl ⟨114, rfl, rfl⟩
  obtain rfl | tab := eq_or_ne point 9
  · exact .inl ⟨116, rfl, rfl⟩
  obtain rfl | feed := eq_or_ne point 12
  · exact .inl ⟨102, rfl, rfl⟩
  obtain rfl | bell := eq_or_ne point 8
  · exact .inl ⟨98, rfl, rfl⟩
  rw [dumpPoint, if_neg quotation, if_neg escape, if_neg line, if_neg back, if_neg tab,
    if_neg feed, if_neg bell]
  by_cases plain : 32 ≤ point ∧ point ≤ 126
  · exact .inr (.inl ⟨quotation, escape, plain, if_pos plain⟩)
  rw [if_neg plain]
  by_cases small : point < 0x10000
  · exact .inr (.inr (.inl ⟨small, if_pos small⟩))
  · exact .inr (.inr (.inr ⟨not_lt.mp small, if_neg small⟩))

theorem follows_dumped {value : Str} (points : Points value)
    (head : ∀ point ∈ value.head?, ¬Low point) (rest : Str) :
    Follows (value.flatMap dumpPoint ++ 34 :: rest) := by
  intro a b c d behind same
  cases value with
  | nil => simp at same
  | cons point value =>
      have notLow := head point rfl
      rw [List.flatMap_cons] at same
      obtain ⟨letter, named, dumped⟩ | ⟨-, escape, -, dumped⟩ | ⟨small, dumped⟩ |
        ⟨large, dumped⟩ := dumpPoint_cases point
      · rw [dumped] at same
        rw [(List.cons.inj (List.cons.inj same).2).1] at named
        cases named
      · rw [dumped] at same
        exact absurd (List.cons.inj same).1 escape
      · rw [dumped] at same
        simp only [hexEscape, List.cons_append, List.nil_append, List.cons.injEq] at same
        obtain ⟨-, -, rfl, rfl, rfl, rfl, -⟩ := same
        exact ⟨point, hexUnit?_hexDigit small, notLow⟩
      · rw [dumped] at same
        simp only [hexEscape, List.cons_append, List.nil_append, List.cons.injEq] at same
        obtain ⟨-, -, rfl, rfl, rfl, rfl, -⟩ := same
        have bound := points point List.mem_cons_self
        exact ⟨_, hexUnit?_hexDigit (by omega), by omega⟩

theorem scanString_dumped {value : Str} (points : Points value) (unpaired : Unpaired value)
    (rest : Str) : scanString (value.flatMap dumpPoint ++ 34 :: rest) = some (value, rest) := by
  induction value with
  | nil => exact scanString_end rest
  | cons point value induction =>
      have others := induction (fun other member => points other (List.mem_cons_of_mem _ member))
        unpaired.tail
      have head : High point → ∀ next ∈ value.head?, ¬Low next := by
        intro high next member low
        cases value with
        | nil => cases member
        | cons other value =>
            obtain rfl := Option.some.inj member
            exact (List.isChain_cons_cons.mp unpaired).1 ⟨high, low⟩
      have follows : High point → Follows (value.flatMap dumpPoint ++ 34 :: rest) := fun high =>
        follows_dumped (fun other member => points other (List.mem_cons_of_mem _ member))
          (head high) rest
      have bound := points point List.mem_cons_self
      rw [List.flatMap_cons, List.append_assoc]
      obtain ⟨letter, named, dumped⟩ | ⟨quotation, escape, plain, dumped⟩ | ⟨small, dumped⟩ |
        ⟨large, dumped⟩ := dumpPoint_cases point
      · rw [dumped, List.cons_append, List.singleton_append, scanString_short named, others]
        rfl
      · rw [dumped, List.singleton_append, scanString_plain quotation escape plain.1, others]
        rfl
      · rw [dumped, scanString_alone small follows, others]
        rfl
      · have isHigh : High (0xD800 + (point - 0x10000) / 0x400) := by omega
        have isLow : Low (0xDC00 + (point - 0x10000) % 0x400) := by omega
        rw [dumped, List.append_assoc, scanString_pair isHigh isLow, others, Option.map_some,
          joinSurrogates_split, Nat.add_sub_cancel' large]

/-! ## Numbers read back -/

/-- A text at the end of a value inside or behind a written one. -/
def ValueEnd (text : Str) : Prop := ∀ point ∈ text.head?, point = 44 ∨ point = 10

/-- A text that does not go on with a digit. -/
def NoDigit (text : Str) : Prop := ∀ point ∈ text.head?, isDigit point = false

theorem ValueEnd.noDigit {text : Str} (ended : ValueEnd text) : NoDigit text := by
  intro point head
  obtain rfl | rfl := ended point head
  · rfl
  · rfl

/-- Digits are taken up to a character that is none. -/
theorem digits_append {digits rest : Str} (all : ∀ digit ∈ digits, isDigit digit = true)
    (stop : NoDigit rest) : (digits ++ rest).takeWhile isDigit = digits ∧
      (digits ++ rest).dropWhile isDigit = rest := by
  have none : rest.takeWhile isDigit = [] ∧ rest.dropWhile isDigit = rest := by
    cases rest with
    | nil => exact ⟨rfl, rfl⟩
    | cons point rest =>
        have other := stop point rfl
        exact ⟨by simp [other], by simp [other]⟩
  rw [List.takeWhile_append_of_pos all, List.dropWhile_append_of_pos all, none.1, none.2,
    List.append_nil]
  exact ⟨rfl, rfl⟩

theorem takeFraction_end {text : Str} (ended : ValueEnd text) :
    takeFraction text = ([], text) := by
  have other : text.head? ≠ some 46 := by
    intro point
    obtain same | same := ended 46 point
    · cases same
    · cases same
  rw [takeFraction, if_neg fun both => other both.1]

theorem takeExponent_end {text : Str} (ended : ValueEnd text) :
    takeExponent text = ([], text) := by
  cases text with
  | nil => rfl
  | cons point text =>
      obtain rfl | rfl := ended point rfl
      · simp [takeExponent]
      · simp [takeExponent]

/-- The digits of a number as code points. -/
theorem numeral_digits (number : ℕ) :
    ∃ first others, lit (toString number) = first :: others ∧
      isDigit first = true ∧ (∀ digit ∈ others, isDigit digit = true) ∧
      (first = 48 → others = []) ∧ digitsValue (first :: others) = number := by
  have spelled : lit (toString number) = (Nat.toDigits 10 number).map Char.toNat :=
    congrArg (List.map Char.toNat) Nat.toList_repr
  have digit : ∀ {value : ℕ}, value < 10 → isDigit (48 + value) = true := by
    intro value small
    simp only [isDigit, Bool.and_eq_true, decide_eq_true_eq]
    omega
  rw [spelled]
  clear spelled
  induction number using Nat.strong_induction_on with
  | _ number induction =>
      by_cases small : number < 10
      · refine ⟨48 + number, [], ?_, digit small, by simp, fun _ => rfl, ?_⟩
        · rw [Nat.toDigits_of_lt_base small, List.map_singleton,
            Nat.toNat_digitChar_of_lt_ten small]
        · simp [digitsValue]
      · obtain ⟨first, others, shorter, head, tail, lone, total⟩ :=
          induction (number / 10) (by omega)
        refine ⟨first, others ++ [48 + number % 10], ?_, head, ?_, ?_, ?_⟩
        · rw [Nat.toDigits_of_base_le (by norm_num) (by omega), List.map_append, shorter,
            List.map_singleton, Nat.toNat_digitChar_of_lt_ten (by omega)]
          rfl
        · intro other member
          rcases List.mem_append.mp member with member | member
          · exact tail other member
          · rw [List.mem_singleton.mp member]
            exact digit (by omega)
        · rintro rfl
          rw [lone rfl] at total
          simp only [digitsValue, List.foldl_cons, List.foldl_nil] at total
          omega
        · rw [← List.cons_append, digitsValue, List.foldl_append]
          rw [digitsValue] at total
          rw [total]
          simp
          omega

/-- The digits of an integer in front of something else; a zero stands alone. -/
theorem takeDigits_written (sign : Str) {first : ℕ} {others rest : Str}
    (head : isDigit first = true) (tail : ∀ digit ∈ others, isDigit digit = true)
    (lone : first = 48 → others = []) (stop : NoDigit rest) :
    (if first = 48 then some (sign ++ [48], others ++ rest)
      else if isDigit first then
        some (sign ++ first :: (others ++ rest).takeWhile isDigit,
          (others ++ rest).dropWhile isDigit)
      else none) = some (sign ++ first :: others, rest) := by
  split_ifs with zero
  · rw [lone zero, zero]
    rfl
  · rw [(digits_append tail stop).1, (digits_append tail stop).2]

theorem filter_digits {digits : Str} (all : ∀ digit ∈ digits, isDigit digit = true) :
    digits.filter isDigit = digits :=
  List.filter_eq_self.mpr all

theorem scanNumber_dumpInt {φ : Type} (floats : Floats φ) {value : ℤ} {text rest : Str}
    (written : dumpInt value = some text) (ended : ValueEnd rest) :
    scanNumber floats (text ++ rest) = some (.int value, rest) := by
  obtain ⟨first, others, spelled, head, tail, lone, total⟩ := numeral_digits value.natAbs
  have all : ∀ digit ∈ first :: others, isDigit digit = true :=
    List.forall_mem_cons.mpr ⟨head, tail⟩
  have noSign : first ≠ 45 := by
    rintro rfl
    cases head
  have taken : ∀ sign : Str, _ := fun sign =>
    takeDigits_written sign head tail lone ended.noDigit
  rw [dumpInt, spelled] at written
  split_ifs at written with long negative
  · obtain rfl := Option.some.inj written
    have integer : takeInteger ([45] ++ first :: others ++ rest) =
        some ([45] ++ first :: others, rest) := taken [45]
    have read : readInt ([45] ++ first :: others) = some value := by
      have digits : ([45] ++ first :: others).filter isDigit = first :: others :=
        (List.filter_append (p := isDigit) [45] (first :: others)).trans (filter_digits all)
      rw [readInt, digits]
      simp only [if_neg long, total, List.head?_cons, List.singleton_append, if_true]
      congr 1
      omega
    simp only [scanNumber, integer, Option.bind_eq_bind, Option.bind_some, takeFraction_end ended,
      takeExponent_end ended, and_self, if_true, read, Option.map_some]
  · obtain rfl := Option.some.inj written
    have integer : takeInteger ([] ++ first :: others ++ rest) =
        some ([] ++ first :: others, rest) := by
      have plain : ([] ++ first :: others ++ rest).head? ≠ some 45 := by
        simpa using noSign
      rw [takeInteger, if_neg plain, if_neg plain]
      exact taken []
    have read : readInt ([] ++ first :: others) = some value := by
      have plain : (first :: others).head? ≠ some 45 := by
        simpa using noSign
      rw [List.nil_append, readInt, filter_digits all]
      simp only [if_neg long, total, if_neg plain]
      congr 1
      omega
    simp only [scanNumber, integer, Option.bind_eq_bind, Option.bind_some, takeFraction_end ended,
      takeExponent_end ended, and_self, if_true, read, Option.map_some]

/-- The text of a finite floating point number: a number of JSON with a fraction or an exponent. -/
structure FloatText (text : Str) : Prop where
  parts : ∃ sign first others fraction exponent : Str,
    text = sign ++ (first ++ others ++ (fraction ++ exponent)) ∧ (sign = [] ∨ sign = [45]) ∧
    (∃ digit, first = [digit] ∧ isDigit digit = true ∧ (digit = 48 → others = [])) ∧
    (∀ digit ∈ others, isDigit digit = true) ∧
    (fraction = [] ∨ ∃ digits, fraction = 46 :: digits ∧ digits ≠ [] ∧
      ∀ digit ∈ digits, isDigit digit = true) ∧
    (exponent = [] ∨ ∃ sign digits, exponent = 101 :: (sign ++ digits) ∧
      (sign = [] ∨ sign = [43] ∨ sign = [45]) ∧ digits ≠ [] ∧
      ∀ digit ∈ digits, isDigit digit = true) ∧
    (fraction ≠ [] ∨ exponent ≠ [])

/-- What the reference of the language says of `float.__repr__` and `float`: a finite number is
written as a number with a fraction or an exponent, and is read back exactly. -/
structure Floats.Faithful {φ : Type} (floats : Floats φ) : Prop where
  numeral : ∀ value, FloatText (floats.repr value)
  back : ∀ value, floats.float (floats.repr value) = value

theorem takeExponent_written {exponent rest : Str}
    (written : exponent = [] ∨ ∃ sign digits, exponent = 101 :: (sign ++ digits) ∧
      (sign = [] ∨ sign = [43] ∨ sign = [45]) ∧ digits ≠ [] ∧
      ∀ digit ∈ digits, isDigit digit = true) (ended : ValueEnd rest) :
    takeExponent (exponent ++ rest) = (exponent, rest) := by
  obtain rfl | ⟨sign, digits, rfl, signs, nonempty, all⟩ := written
  · exact takeExponent_end ended
  · obtain ⟨taken, left⟩ := digits_append all ended.noDigit
    obtain ⟨first, others, rfl⟩ := List.exists_cons_of_ne_nil nonempty
    have head : isDigit first = true := all first List.mem_cons_self
    have plus : first ≠ 43 := by
      rintro rfl
      cases head
    have minus : first ≠ 45 := by
      rintro rfl
      cases head
    have signed : (if (sign ++ (first :: others ++ rest)).head? = some 43 ∨
        (sign ++ (first :: others ++ rest)).head? = some 45 then
          (sign ++ (first :: others ++ rest)).take 1 else []) = sign := by
      obtain rfl | rfl | rfl := signs
      · simp [plus, minus]
      · rfl
      · rfl
    rw [List.cons_append, List.append_assoc, takeExponent]
    simp only [signed, List.drop_left, taken, left]
    rw [if_pos ⟨.inl trivial, List.cons_ne_nil _ _⟩]

theorem scanNumber_float {φ : Type} (floats : Floats φ) {text rest : Str}
    (written : FloatText text) (ended : ValueEnd rest) :
    scanNumber floats (text ++ rest) = some (.float (floats.float text), rest) := by
  obtain ⟨sign, first, others, fraction, exponent, rfl, signs, ⟨digit, rfl, head, lone⟩, tail,
    fractions, exponents, some_⟩ := written.parts
  have third := takeExponent_written exponents ended
  have behind : NoDigit (exponent ++ rest) := by
    obtain rfl | ⟨_, _, rfl, -⟩ := exponents
    · exact ended.noDigit
    · intro point head
      obtain rfl := Option.some.inj head
      rfl
  have second : takeFraction (fraction ++ (exponent ++ rest)) = (fraction, exponent ++ rest) := by
    obtain rfl | ⟨digits, rfl, nonempty, all⟩ := fractions
    · have other : (exponent ++ rest).head? ≠ some 46 := by
        obtain rfl | ⟨_, _, rfl, -⟩ := exponents
        · intro point
          obtain same | same := ended 46 point
          · cases same
          · cases same
        · simp
      rw [takeFraction, List.nil_append, if_neg fun both => other both.1]
    · obtain ⟨taken, left⟩ := digits_append all behind
      rw [List.cons_append, takeFraction, List.tail_cons, taken, left,
        if_pos ⟨rfl, nonempty⟩]
  have more : NoDigit (fraction ++ (exponent ++ rest)) := by
    obtain rfl | ⟨_, rfl, -⟩ := fractions
    · exact behind
    · intro point head
      obtain rfl := Option.some.inj head
      rfl
  have first : takeInteger (sign ++ ([digit] ++ others ++ (fraction ++ exponent)) ++ rest) =
      some (sign ++ ([digit] ++ others), fraction ++ (exponent ++ rest)) := by
    have taken := takeDigits_written sign head tail lone more
    have plain : digit ≠ 45 := by
      rintro rfl
      cases head
    simp only [List.append_assoc, List.cons_append, List.nil_append] at taken ⊢
    obtain rfl | rfl := signs
    · have other : (digit :: (others ++ (fraction ++ (exponent ++ rest)))).head? ≠ some 45 := by
        simpa using plain
      simp only [List.nil_append] at taken ⊢
      rw [takeInteger, if_neg other, if_neg other]
      exact taken
    · exact taken
  have neither : ¬(fraction = [] ∧ exponent = []) := by
    rintro ⟨rfl, rfl⟩
    simp at some_
  have joined : sign ++ ([digit] ++ others) ++ fraction ++ exponent =
      sign ++ ([digit] ++ others ++ (fraction ++ exponent)) := by
    simp only [List.append_assoc]
  simp only [scanNumber, first, Option.bind_eq_bind, Option.bind_some, second, third,
    if_neg neither, Option.pure_def, joined]

end JsonText
end Python
end Postgamma
