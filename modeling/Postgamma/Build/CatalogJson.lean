import Mathlib
import Postgamma.Build.CatalogRendering
import Postgamma.Python.JsonText

/-!
# The JSON of the parameter catalog

The encoder of `generate_guc_catalog.py`. It splits the texts of the children into lines again, so
that it can indent the first of them and put a comma behind the last one; `json.loads` gives the
encoded value back.
-/

namespace Postgamma
namespace Build

open Python (Str lit)
open Python.JsonText

variable {φ : Type}

def joinLines : List Str → Str
  | [] => []
  | [line] => line
  | line :: next :: lines => line ++ 10 :: joinLines (next :: lines)

/-- The characters at which `str.splitlines` splits. -/
def isBreak (point : ℕ) : Bool :=
  (10 ≤ point && point ≤ 13) || (28 ≤ point && point ≤ 30) || point == 0x85 ||
    point == 0x2028 || point == 0x2029

/-- `str.splitlines`, behind a part of a line. -/
def splitLines (line : Str) : Str → List Str
  | [] => if line = [] then [] else [line]
  | point :: text =>
      if isBreak point then
        -- a carriage return in front of a newline is a part of the same break
        if point = 13 ∧ text.head? = some 10 then splitLines line text
        else line :: splitLines [] text
      else splitLines (line ++ [point]) text

/-- `lines[-1] += ","`. -/
def addComma : List Str → List Str
  | [] => []
  | [line] => [line ++ [44]]
  | line :: next :: lines => line :: addComma (next :: lines)

/-- The lines of a child behind its front; nothing stands for `IndexError`. -/
def childLines (front text : Str) : Option (List Str) :=
  match splitLines [] text with
  | [] => none
  | first :: rest => some ((front ++ first) :: rest)

/-- The lines of all children. -/
def blockLines : List (Str × Str) → Option (List Str)
  | [] => some []
  | (front, text) :: children => do
      let lines ← childLines front text
      let rest ← blockLines children
      return (if children = [] then lines else addComma lines) ++ rest

/-- The blanks in front of a line. -/
def indentation (level : ℕ) : Str := List.replicate (level * 3) 32

/-- The text of an object or an array with the given children. -/
def block (level opening closing : ℕ) (children : List (Str × Str)) : Option Str :=
  if children = [] then some [opening, closing]
  else do
    let lines ← blockLines children
    return joinLines ([opening] :: (lines ++ [indentation level ++ [closing]]))

mutual

/-- `encode_catalog_json`; nothing stands for an exception. The items of an object are sorted by
their keys, which differ. -/
def encodeCatalogJson (floats : Floats φ) : ℕ → JsonValue φ → Option Str
  | _, .null => some (lit "null")
  | _, .bool value => some (lit (if value then "true" else "false"))
  | _, .int value => dumpInt value
  | _, .float value => some (floats.repr value)
  | _, .str value => some (dumpString value)
  | level, .list items => do
      let texts ← encodeItems floats (level + 1) items
      block level 91 93 (texts.map fun text => (indentation (level + 1), text))
  | level, .dict entries => do
      let texts ← encodeEntries floats (level + 1) entries
      let sorted := texts.insertionSort fun first second => first.1 ≤ second.1
      block level 123 125
        (sorted.map fun entry =>
          (indentation (level + 1) ++ (dumpString entry.1 ++ lit " : "), entry.2))

/-- The texts of the items of an array. -/
def encodeItems (floats : Floats φ) : ℕ → List (JsonValue φ) → Option (List Str)
  | _, [] => some []
  | level, item :: items => do
      let text ← encodeCatalogJson floats level item
      let texts ← encodeItems floats level items
      return text :: texts

/-- The texts of the values of an object, with their keys. -/
def encodeEntries (floats : Floats φ) : ℕ → List (Str × JsonValue φ) → Option (List (Str × Str))
  | _, [] => some []
  | level, (key, value) :: entries => do
      let text ← encodeCatalogJson floats level value
      let texts ← encodeEntries floats level entries
      return (key, text) :: texts

end

/-- A text of printable characters and newlines that does not end with a newline. -/
structure Tidy (text : Str) : Prop where
  nonempty : text ≠ []
  printable : ∀ point ∈ text, point = 10 ∨ 32 ≤ point ∧ point ≤ 126
  last : text.getLast? ≠ some 10

theorem joinLines_cons (line : Str) {lines : List Str} (more : lines ≠ []) :
    joinLines (line :: lines) = line ++ 10 :: joinLines lines := by
  cases lines with
  | nil => exact absurd rfl more
  | cons next lines => rfl

theorem joinLines_append {first second : List Str} (one : first ≠ []) (two : second ≠ []) :
    joinLines (first ++ second) = joinLines first ++ 10 :: joinLines second := by
  induction first with
  | nil => exact absurd rfl one
  | cons line first induction =>
      cases first with
      | nil => rw [List.singleton_append, joinLines_cons line two]; rfl
      | cons next first =>
          rw [List.cons_append, joinLines_cons line (by simp), induction (List.cons_ne_nil _ _),
            joinLines_cons line (List.cons_ne_nil _ _), List.append_assoc, List.cons_append]

theorem joinLines_addComma {lines : List Str} (some : lines ≠ []) :
    joinLines (addComma lines) = joinLines lines ++ [44] ∧ addComma lines ≠ [] := by
  induction lines with
  | nil => exact absurd rfl some
  | cons line lines induction =>
      cases lines with
      | nil => exact ⟨rfl, List.cons_ne_nil _ _⟩
      | cons next lines =>
          obtain ⟨joined, more⟩ := induction (List.cons_ne_nil _ _)
          refine ⟨?_, List.cons_ne_nil _ _⟩
          rw [addComma, joinLines_cons line more, joined,
            joinLines_cons line (List.cons_ne_nil _ _), List.append_assoc, List.cons_append]

theorem splitLines_ne_nil {line text : Str} (some : line ++ text ≠ []) :
    splitLines line text ≠ [] := by
  induction text generalizing line with
  | nil =>
      rw [List.append_nil] at some
      rw [splitLines, if_neg some]
      exact List.cons_ne_nil _ _
  | cons point text induction =>
      rw [splitLines]
      split_ifs with isBreak pair
      · refine induction ?_
        have := List.head?_eq_some_iff.mp pair.2
        obtain ⟨rest, rfl⟩ := this
        simp
      · exact List.cons_ne_nil _ _
      · exact induction (by simp)

/-- A text whose only breaks are newlines inside it is what its lines are joined to. -/
theorem joinLines_splitLines {line text : Str} (breaks : ∀ point ∈ text, isBreak point → point = 10)
    (last : text.getLast? ≠ some 10) : joinLines (splitLines line text) = line ++ text := by
  induction text generalizing line with
  | nil =>
      rw [splitLines]
      split_ifs with none
      · rw [none]
        rfl
      · rw [List.append_nil]
        rfl
  | cons point text induction =>
      have others : ∀ other ∈ text, isBreak other → other = 10 :=
        fun other member => breaks other (List.mem_cons_of_mem _ member)
      have later : text.getLast? ≠ some 10 := by
        cases text with
        | nil => simp
        | cons next text => rwa [List.getLast?_cons_cons] at last
      rw [splitLines]
      split_ifs with broken pair
      · have newline := breaks point List.mem_cons_self broken
        omega
      · obtain rfl := breaks point List.mem_cons_self broken
        have more : text ≠ [] := by
          rintro rfl
          exact last rfl
        rw [joinLines_cons line (splitLines_ne_nil (by simpa using more)), induction others later,
          List.nil_append]
      · rw [induction others later, List.append_assoc, List.singleton_append]

variable {text : Str} {children : List (Str × Str)} {value : JsonValue φ}

theorem Tidy.lines (tidy : Tidy text) (front : Str) :
    ∃ lines, childLines front text = some lines ∧ lines ≠ [] ∧
      joinLines lines = front ++ text := by
  have joined := @joinLines_splitLines [] text
    (fun point member broken => by
      obtain newline | ⟨low, high⟩ := tidy.printable point member
      · exact newline
      · simp only [isBreak, Bool.or_eq_true, Bool.and_eq_true, decide_eq_true_eq,
          beq_iff_eq] at broken
        omega) tidy.last
  rw [childLines]
  cases split : splitLines [] text with
  | nil => exact absurd split (splitLines_ne_nil (by simpa using tidy.nonempty))
  | cons first rest =>
      refine ⟨_, rfl, List.cons_ne_nil _ _, ?_⟩
      rw [split, List.nil_append] at joined
      rw [← joined]
      cases rest with
      | nil => rfl
      | cons next rest =>
          rw [joinLines_cons _ (List.cons_ne_nil _ _), joinLines_cons _ (List.cons_ne_nil _ _),
            List.append_assoc]

/-- The children of a block with a comma and a newline between them. -/
def body : List (Str × Str) → Str
  | [] => []
  | [child] => child.1 ++ child.2
  | child :: next :: children => child.1 ++ (child.2 ++ 44 :: 10 :: body (next :: children))

theorem blockLines_body (some_ : children ≠ []) (tidy : ∀ child ∈ children, Tidy child.2) :
    ∃ lines, blockLines children = some lines ∧ lines ≠ [] ∧ joinLines lines = body children := by
  induction children with
  | nil => exact absurd rfl some_
  | cons child children induction =>
      obtain ⟨lines, split, nonempty, joined⟩ := (tidy child List.mem_cons_self).lines child.1
      obtain ⟨front, text⟩ := child
      cases children with
      | nil =>
          refine ⟨lines, ?_, nonempty, joined⟩
          simp [blockLines, split]
      | cons next children =>
          obtain ⟨rest, others, more, restJoined⟩ := induction (List.cons_ne_nil _ _)
            fun other member => tidy other (List.mem_cons_of_mem _ member)
          obtain ⟨comma, commaLines⟩ := joinLines_addComma nonempty
          refine ⟨addComma lines ++ rest, ?_, by simp [commaLines], ?_⟩
          · rw [blockLines, split, others]
            rfl
          · rw [joinLines_append commaLines more, comma, joined, restJoined, body]
            simp

theorem block_text {level opening closing : ℕ}
    (some_ : children ≠ []) (tidy : ∀ child ∈ children, Tidy child.2) :
    block level opening closing children =
      some (opening :: 10 :: (body children ++ 10 :: (indentation level ++ [closing]))) := by
  obtain ⟨lines, split, nonempty, joined⟩ := blockLines_body some_ tidy
  rw [block, if_neg some_, split]
  simp only [Option.bind_eq_bind, Option.bind_some, Option.pure_def, Option.some.injEq]
  rw [joinLines_cons _ (by simp), joinLines_append nonempty (List.cons_ne_nil _ _), joined]
  rfl

/-- Printable characters and newlines. -/
abbrev Printable (text : Str) : Prop := ∀ point ∈ text, point = 10 ∨ 32 ≤ point ∧ point ≤ 126

theorem Printable.append {first second : Str} (one : Printable first) (two : Printable second) :
    Printable (first ++ second) :=
  List.forall_mem_append.mpr ⟨one, two⟩

theorem printable_indentation (level : ℕ) : Printable (indentation level) := by
  intro point member
  rw [(List.mem_replicate.mp member).2]
  exact .inr (by norm_num)

theorem hexDigit_printable {digit : ℕ} (small : digit < 16) :
    32 ≤ hexDigit digit ∧ hexDigit digit ≤ 126 := by
  rw [hexDigit]
  split_ifs <;> omega

theorem printable_hexEscape (unit : ℕ) : Printable (hexEscape unit) := by
  have digit : ∀ number, 32 ≤ hexDigit (number % 0x10) ∧ hexDigit (number % 0x10) ≤ 126 :=
    fun number => hexDigit_printable (Nat.mod_lt _ (by norm_num))
  simp only [Printable, hexEscape, List.forall_mem_cons]
  exact ⟨.inr (by norm_num), .inr (by norm_num), .inr (digit _), .inr (digit _), .inr (digit _),
    .inr (digit _), by simp⟩

theorem printable_dumpPoint (point : ℕ) : Printable (dumpPoint point) := by
  obtain ⟨letter, named, dumped⟩ | ⟨-, -, plain, dumped⟩ | ⟨-, dumped⟩ | ⟨-, dumped⟩ :=
    dumpPoint_cases point
  · have visible : 32 ≤ letter ∧ letter ≤ 126 := by
      unfold shortEscape? at named
      split_ifs at named with same <;> omega
    rw [dumped]
    simp [Printable, visible]
  · rw [dumped]
    intro other member
    rw [List.mem_singleton.mp member]
    exact .inr plain
  · rw [dumped]
    exact printable_hexEscape point
  · rw [dumped]
    exact (printable_hexEscape _).append (printable_hexEscape _)

theorem tidy_dumpString (value : Str) : Tidy (dumpString value) where
  nonempty := List.cons_ne_nil _ _
  printable := by
    rw [dumpString, List.forall_mem_cons, List.forall_mem_append]
    refine ⟨.inr (by norm_num), ?_, by simp⟩
    intro point member
    obtain ⟨source, -, inside⟩ := List.mem_flatMap.mp member
    exact printable_dumpPoint source point inside
  last := by
    rw [dumpString, ← List.cons_append, List.getLast?_append_of_ne_nil _ (List.cons_ne_nil _ _)]
    simp

theorem digit_printable {point : ℕ} (digit : isDigit point = true) :
    32 ≤ point ∧ point ≤ 126 ∧ point ≠ 10 := by
  simp only [isDigit, Bool.and_eq_true, decide_eq_true_eq] at digit
  omega

/-- A text of printable characters without newlines. -/
theorem tidy_of_visible (nonempty : text ≠ [])
    (visible : ∀ point ∈ text, 32 ≤ point ∧ point ≤ 126) : Tidy text where
  nonempty := nonempty
  printable := fun point member => .inr (visible point member)
  last := by
    intro newline
    have bounds := visible 10 (List.mem_of_getLast? newline)
    omega

theorem tidy_dumpInt {value : ℤ} (written : dumpInt value = some text) : Tidy text := by
  obtain ⟨first, others, spelled, head, tail, -⟩ := numeral_digits value.natAbs
  have digits : ∀ point ∈ first :: others, 32 ≤ point ∧ point ≤ 126 := by
    intro point member
    have digit : isDigit point = true := by
      rcases List.mem_cons.mp member with rfl | member
      · exact head
      · exact tail point member
    exact ⟨(digit_printable digit).1, (digit_printable digit).2.1⟩
  rw [dumpInt, spelled] at written
  split_ifs at written
  · obtain rfl := Option.some.inj written
    exact tidy_of_visible (by simp) (List.forall_mem_cons.mpr ⟨by norm_num, digits⟩)
  · obtain rfl := Option.some.inj written
    exact tidy_of_visible (by simp) digits

theorem tidy_float (float : FloatText text) : Tidy text := by
  obtain ⟨sign, first, others, fraction, exponent, rfl, signs, ⟨digit, rfl, head, -⟩, tail,
    fractions, exponents, -⟩ := float.parts
  have visible : ∀ {digits : Str}, (∀ digit ∈ digits, isDigit digit = true) →
      ∀ point ∈ digits, 32 ≤ point ∧ point ≤ 126 := by
    intro digits all point member
    exact ⟨(digit_printable (all point member)).1, (digit_printable (all point member)).2.1⟩
  refine tidy_of_visible (by simp) ?_
  simp only [List.forall_mem_append, List.forall_mem_singleton]
  refine ⟨?_, ⟨@visible [digit] (by simpa using head) digit (by simp), visible tail⟩,
    ?_, ?_⟩
  · obtain rfl | rfl := signs <;> simp
  · obtain rfl | ⟨digits, rfl, -, all⟩ := fractions
    · simp
    · exact List.forall_mem_cons.mpr ⟨by norm_num, visible all⟩
  · obtain rfl | ⟨sign, digits, rfl, signs, -, all⟩ := exponents
    · simp
    · refine List.forall_mem_cons.mpr ⟨by norm_num, List.forall_mem_append.mpr ⟨?_, visible all⟩⟩
      obtain rfl | rfl | rfl := signs <;> simp

theorem printable_body
    (fronts : ∀ child ∈ children, Printable child.1) (tidy : ∀ child ∈ children, Tidy child.2) :
    Printable (body children) := by
  induction children with
  | nil => simp [body, Printable]
  | cons child children induction =>
      have front := fronts child List.mem_cons_self
      have text := (tidy child List.mem_cons_self).printable
      cases children with
      | nil => exact front.append text
      | cons next children =>
          have rest := induction (fun other member => fronts other (List.mem_cons_of_mem _ member))
            fun other member => tidy other (List.mem_cons_of_mem _ member)
          refine front.append (Printable.append text ?_)
          exact List.forall_mem_cons.mpr
            ⟨.inr (by norm_num), List.forall_mem_cons.mpr ⟨.inl rfl, rest⟩⟩

theorem tidy_block {opening closing level : ℕ}
    (one : 32 ≤ opening ∧ opening ≤ 126) (two : 32 ≤ closing ∧ closing ≤ 126)
    (fronts : ∀ child ∈ children, Printable child.1) (tidy : ∀ child ∈ children, Tidy child.2) :
    Tidy (opening :: 10 :: (body children ++ 10 :: (indentation level ++ [closing]))) where
  nonempty := List.cons_ne_nil _ _
  printable := by
    have inside := printable_body fronts tidy
    have blanks := printable_indentation level
    refine List.forall_mem_cons.mpr ⟨.inr one, List.forall_mem_cons.mpr ⟨.inl rfl, ?_⟩⟩
    refine inside.append (List.forall_mem_cons.mpr ⟨.inl rfl, blanks.append ?_⟩)
    intro point member
    rw [List.mem_singleton.mp member]
    exact .inr two
  last := by
    have shape : opening :: 10 :: (body children ++ 10 :: (indentation level ++ [closing])) =
        (opening :: 10 :: (body children ++ 10 :: indentation level)) ++ [closing] := by simp
    rw [shape, List.getLast?_append_of_ne_nil _ (List.cons_ne_nil _ _), List.getLast?_singleton]
    intro same
    have newline := Option.some.inj same
    omega

/-- A character that `json.loads` does not take for a blank. -/
abbrev Ink (point : ℕ) : Prop := point ≠ 32 ∧ point ≠ 9 ∧ point ≠ 10 ∧ point ≠ 13

theorem skipBlank_ink {point : ℕ} (ink : Ink point) (rest : Str) :
    skipBlank (point :: rest) = point :: rest := by
  obtain ⟨space, tab, newline, back⟩ := ink
  rw [skipBlank, List.dropWhile_cons_of_neg]
  simp [space, tab, newline, back]

theorem skipBlank_space (rest : Str) : skipBlank (32 :: rest) = skipBlank rest := rfl

theorem skipBlank_newline (rest : Str) : skipBlank (10 :: rest) = skipBlank rest := rfl

theorem skipBlank_indentation (level : ℕ) (rest : Str) :
    skipBlank (indentation level ++ rest) = skipBlank rest := by
  rw [indentation]
  induction level * 3 with
  | zero => rfl
  | succ count induction =>
      rw [List.replicate_succ, List.cons_append, skipBlank_space, induction]

/-- A text is read as a value in front of the end of a value. -/
structure Reads (floats : Floats φ) (text : Str) (value : JsonValue φ) : Prop where
  tidy : Tidy text
  first : ∃ point rest, text = point :: rest ∧ Ink point ∧ point ≠ 93 ∧ point ≠ 0xFEFF
  scan : ∀ (depth : ℕ) (rest : Str), 2 * text.length ≤ depth → ValueEnd rest →
    scanOnce floats depth (text ++ rest) = some (value, rest)

variable {floats : Floats φ}

theorem Reads.skipBlank (reads : Reads floats text value)
    (rest : Str) : skipBlank (text ++ rest) = text ++ rest := by
  obtain ⟨point, more, rfl, ink, -⟩ := reads.first
  exact skipBlank_ink ink _

theorem reads_null : Reads floats (lit "null") .null where
  tidy := tidy_of_visible (by decide) (by decide)
  first := ⟨110, [117, 108, 108], rfl, by decide, by decide, by decide⟩
  scan := fun depth rest enough _ => by
    cases depth with
    | zero => simp [lit] at enough
    | succ depth => rfl

theorem reads_bool (value : Bool) :
    Reads floats (lit (if value then "true" else "false")) (.bool value) := by
  cases value with
  | true =>
      exact
        { tidy := tidy_of_visible (by decide) (by decide)
          first := ⟨116, [114, 117, 101], rfl, by decide, by decide, by decide⟩
          scan := fun depth rest enough _ => by
            cases depth with
            | zero => simp [lit] at enough
            | succ depth => rfl }
  | false =>
      exact
        { tidy := tidy_of_visible (by decide) (by decide)
          first := ⟨102, [97, 108, 115, 101], rfl, by decide, by decide, by decide⟩
          scan := fun depth rest enough _ => by
            cases depth with
            | zero => simp [lit] at enough
            | succ depth => rfl }

theorem reads_str {value : Str} (points : Points value) (unpaired : Unpaired value) :
    Reads floats (dumpString value) (.str value) where
  tidy := tidy_dumpString value
  first := ⟨34, _, rfl, by decide, by decide, by decide⟩
  scan := fun depth rest enough _ => by
    cases depth with
    | zero => simp [dumpString] at enough
    | succ depth =>
        have read := scanString_dumped points unpaired rest
        rw [dumpString, List.cons_append, List.append_assoc, List.singleton_append, scanOnce,
          if_pos rfl, read]
        rfl

theorem scanWord_other (letter : ℕ) {word : Str} {first : ℕ} {more : Str}
    (other : letter ≠ first) : scanWord (letter :: word) value (first :: more) = none := by
  rw [scanWord, if_neg]
  simp [other]

/-- A number in front of the end of a value. -/
theorem scanOnce_number {depth first : ℕ} {more rest : Str}
    (start : first = 45 ∨ isDigit first = true)
    (read : scanNumber floats (first :: more) = some (value, rest)) :
    scanOnce floats (depth + 1) (first :: more) = some (value, rest) := by
  have bounds : first = 45 ∨ 48 ≤ first ∧ first ≤ 57 := by
    simpa [isDigit] using start
  have noNull : scanWord (lit "null") (.null : JsonValue φ) (first :: more) = none :=
    scanWord_other 110 (by omega)
  have noTrue : scanWord (lit "true") (.bool true : JsonValue φ) (first :: more) = none :=
    scanWord_other 116 (by omega)
  have noFalse : scanWord (lit "false") (.bool false : JsonValue φ) (first :: more) = none :=
    scanWord_other 102 (by omega)
  rw [scanOnce, if_neg (by omega), if_neg (by omega), if_neg (by omega), noNull, noTrue, noFalse,
    read]
  rfl

theorem reads_int {value : ℤ} (written : dumpInt value = some text) :
    Reads floats text (.int value) := by
  have start : ∃ first more, text = first :: more ∧ (first = 45 ∨ isDigit first = true) := by
    obtain ⟨first, others, spelled, head, -⟩ := numeral_digits value.natAbs
    rw [dumpInt, spelled] at written
    split_ifs at written
    · obtain rfl := Option.some.inj written
      exact ⟨45, _, rfl, .inl rfl⟩
    · obtain rfl := Option.some.inj written
      exact ⟨first, _, rfl, .inr head⟩
  obtain ⟨first, more, rfl, start⟩ := start
  have bounds : first = 45 ∨ 48 ≤ first ∧ first ≤ 57 := by
    simpa [isDigit] using start
  exact
    { tidy := tidy_dumpInt written
      first := ⟨first, more, rfl, ⟨by omega, by omega, by omega, by omega⟩, by omega, by omega⟩
      scan := fun depth rest enough ended => by
        cases depth with
        | zero => simp at enough
        | succ depth => exact scanOnce_number start (scanNumber_dumpInt floats written ended) }

theorem reads_float (faithful : floats.Faithful) (value : φ) :
    Reads floats (floats.repr value) (.float value) := by
  have numeral := faithful.numeral value
  have start : ∃ first more, floats.repr value = first :: more ∧
      (first = 45 ∨ isDigit first = true) := by
    obtain ⟨sign, _, others, fraction, exponent, same, signs, ⟨digit, rfl, head, -⟩, -⟩ :=
      numeral.parts
    obtain rfl | rfl := signs
    · exact ⟨digit, _, same, .inr head⟩
    · exact ⟨45, _, same, .inl rfl⟩
  obtain ⟨first, more, same, start⟩ := start
  have bounds : first = 45 ∨ 48 ≤ first ∧ first ≤ 57 := by
    simpa [isDigit] using start
  exact
    { tidy := tidy_float numeral
      first := ⟨first, more, same, ⟨by omega, by omega, by omega, by omega⟩, by omega, by omega⟩
      scan := fun depth rest enough ended => by
        have read := scanNumber_float floats numeral ended
        rw [faithful.back] at read
        rw [same] at enough read ⊢
        cases depth with
        | zero => simp at enough
        | succ depth => exact scanOnce_number start read }

/-! ## Arrays and objects read back -/

/-- The loop over the items of an array, behind the indentation of the first one. -/
theorem scanItems_body {level : ℕ} {items : List (Str × JsonValue φ)} (some_ : items ≠ [])
    (reads : ∀ item ∈ items, Reads floats item.1 item.2) (depth close : ℕ) (rest : Str)
    (enough : 2 * (body (items.map fun item => (indentation level, item.1))).length + 1 ≤ depth) :
    scanItems floats depth (skipBlank (body (items.map fun item => (indentation level, item.1)) ++
      10 :: (indentation close ++ 93 :: rest))) = some (items.map Prod.snd, rest) := by
  induction items generalizing depth with
  | nil => exact absurd rfl some_
  | cons item items induction =>
      have read := reads item List.mem_cons_self
      cases depth with
      | zero => omega
      | succ depth =>
          cases items with
          | nil =>
              simp only [List.map_cons, List.map_nil, body, List.length_append] at enough ⊢
              have scanned := read.scan depth
                (10 :: (indentation close ++ 93 :: rest)) (by omega)
                (fun point head => .inr (Option.some.inj head).symm)
              rw [List.append_assoc, skipBlank_indentation, read.skipBlank, scanItems, scanned]
              simp only [Option.bind_eq_bind, Option.bind_some]
              rw [skipBlank_newline, skipBlank_indentation, skipBlank_ink (by decide)]
              rfl
          | cons next items =>
              simp only [List.map_cons, body, List.length_append, List.length_cons] at enough ⊢
              have tail := induction (List.cons_ne_nil _ _)
                (fun other member => reads other (List.mem_cons_of_mem _ member)) depth
                (by
                  simp only [List.map_cons]
                  omega)
              simp only [List.map_cons] at tail
              have scanned := read.scan depth
                (44 :: 10 :: (body ((indentation level, next.1) ::
                  items.map fun item => (indentation level, item.1)) ++
                    10 :: (indentation close ++ 93 :: rest))) (by omega)
                (fun point head => .inl (Option.some.inj head).symm)
              simp only [List.append_assoc, List.cons_append]
              rw [skipBlank_indentation, read.skipBlank, scanItems, scanned]
              simp only [Option.bind_eq_bind, Option.bind_some]
              rw [skipBlank_ink (by decide)]
              dsimp only
              rw [if_neg (by decide), if_neg (by decide), skipBlank_newline, tail]
              rfl

def entryFront (level : ℕ) (key : Str) : Str := indentation level ++ (dumpString key ++ lit " : ")

theorem printable_entryFront (level : ℕ) (key : Str) : Printable (entryFront level key) :=
  (printable_indentation level).append
    (Printable.append (tidy_dumpString key).printable (by decide))

/-- An entry up to its value, behind the quotation mark in front of its key. -/
theorem scanMembers_entry {key : Str} (points : Points key) (unpaired : Unpaired key)
    (read : Reads floats text value) (depth : ℕ) (rest : Str)
    (enough : 2 * text.length ≤ depth) (ended : ValueEnd rest) :
    scanMembers floats (depth + 1) (key.flatMap dumpPoint ++ 34 :: (lit " : " ++ (text ++ rest))) =
      match skipBlank rest with
      | [] => none
      | delimiter :: text =>
          if delimiter = 125 then some ([(key, value)], text)
          else if delimiter ≠ 44 then none
          else
            match skipBlank text with
            | [] => none
            | quotation :: text =>
                if quotation ≠ 34 then none
                else (scanMembers floats depth text).map fun more =>
                  ((key, value) :: more.1, more.2) := by
  have scanned := read.scan depth rest enough ended
  have colon : skipBlank (lit " : " ++ (text ++ rest)) = 58 :: 32 :: (text ++ rest) := rfl
  rw [scanMembers, scanString_dumped points unpaired]
  simp only [Option.bind_eq_bind, Option.bind_some]
  rw [colon]
  dsimp only
  rw [if_neg (by decide), skipBlank_space, read.skipBlank, scanned]
  simp only [Option.bind_some, Option.pure_def]
  cases skipBlank rest with
  | nil => rfl
  | cons delimiter text =>
      dsimp only
      split_ifs
      · rfl
      · rfl
      · cases skipBlank text with
        | nil => rfl
        | cons quotation text =>
            dsimp only
            split_ifs
            · rfl
            · cases scanMembers floats depth text with
              | none => rfl
              | some more => rfl

/-- An entry of an object with the text of its value. -/
structure Entry (φ : Type) where
  key : Str
  text : Str
  value : JsonValue φ

/-- What is known of an entry that is read back. -/
structure Entry.Reads (floats : Floats φ) (entry : Entry φ) : Prop where
  points : Points entry.key
  unpaired : Unpaired entry.key
  value : Build.Reads floats entry.text entry.value

def Entry.child (level : ℕ) (entry : Entry φ) : Str × Str :=
  (entryFront level entry.key, entry.text)

/-- The loop over the entries of an object, behind the quotation mark in front of the first key. -/
theorem scanMembers_body {level : ℕ} {entries : List (Entry φ)} (some_ : entries ≠ [])
    (reads : ∀ entry ∈ entries, entry.Reads floats) (depth close : ℕ) (rest : Str)
    (enough : 2 * (body (entries.map (Entry.child level))).length + 1 ≤ depth) :
    ∃ text, skipBlank (body (entries.map (Entry.child level)) ++
        10 :: (indentation close ++ 125 :: rest)) = 34 :: text ∧
      scanMembers floats depth text =
        some (entries.map fun entry => (entry.key, entry.value), rest) := by
  induction entries generalizing depth with
  | nil => exact absurd rfl some_
  | cons entry entries induction =>
      obtain ⟨points, unpaired, read⟩ := reads entry List.mem_cons_self
      cases depth with
      | zero => omega
      | succ depth =>
          cases entries with
          | nil =>
              simp only [List.map_cons, List.map_nil, body, Entry.child, entryFront,
                List.length_append] at enough ⊢
              have entered := scanMembers_entry points unpaired read depth
                (10 :: (indentation close ++ 125 :: rest)) (by omega)
                (fun point head => .inr (Option.some.inj head).symm)
              rw [skipBlank_newline, skipBlank_indentation, skipBlank_ink (by decide)] at entered
              refine ⟨_, ?_, entered⟩
              simp only [List.append_assoc]
              rw [skipBlank_indentation, dumpString, List.cons_append, skipBlank_ink (by decide)]
              simp
          | cons next entries =>
              simp only [List.map_cons, body, Entry.child, entryFront, List.length_append,
                List.length_cons] at enough ⊢
              obtain ⟨text, opened, tail⟩ := induction (List.cons_ne_nil _ _)
                (fun other member => reads other (List.mem_cons_of_mem _ member)) depth
                (by
                  simp only [List.map_cons, Entry.child, entryFront]
                  omega)
              simp only [List.map_cons, Entry.child, entryFront] at opened
              have entered := scanMembers_entry points unpaired read depth
                (44 :: 10 :: (body ((indentation level ++ (dumpString next.key ++
                  lit " : "), next.text) :: entries.map (Entry.child level)) ++
                    10 :: (indentation close ++ 125 :: rest))) (by omega)
                (fun point head => .inl (Option.some.inj head).symm)
              rw [skipBlank_ink (by decide)] at entered
              dsimp only at entered
              rw [if_neg (by decide), if_neg (by decide), skipBlank_newline, opened] at entered
              dsimp only at entered
              rw [if_neg (by decide), tail] at entered
              refine ⟨_, ?_, entered⟩
              simp only [List.append_assoc, List.cons_append]
              rw [skipBlank_indentation, dumpString, List.cons_append, skipBlank_ink (by decide)]
              simp only [List.append_assoc, List.cons_append, List.nil_append]

end Build
end Postgamma
