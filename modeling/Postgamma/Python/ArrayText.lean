import Mathlib
import Postgamma.Library.Program
import Postgamma.Python.Codec

/-!
# Array texts read back

The parser of array texts in `_codec.py` and the texts that the encoder of parameters writes. A
position in the text is the rest of the text. The recursion is given a depth, which is enough for
every text.
-/

namespace Postgamma
namespace Python

/-- What `_parse_array` raises. -/
inductive ArrayError
  | valueError (message : String)
  /-- The recursion was cut off. -/
  | exhausted
  deriving DecidableEq

/-- The characters of a quoted element, and what follows the closing quotation mark. -/
def quotedText : Str → Except ArrayError (Str × Str)
  | [] => .error (.valueError "unterminated PostgreSQL array string")
  | character :: text =>
      if character = 34 then .ok ([], text)
      else if character = 92 then
        match text with
        | [] => .error (.valueError "invalid PostgreSQL array escape")
        | character :: text => (quotedText text).map fun read => (character :: read.1, read.2)
      else (quotedText text).map fun read => (character :: read.1, read.2)

/-- A character of an unquoted element. -/
def inToken (character : ℕ) : Bool := character ≠ 44 && character ≠ 125

/-- An element without quotation marks, and what follows it. -/
def token (text : Str) : Value × Str :=
  let word := text.takeWhile inToken
  (if word = lit "NULL" then .none else .str word, text.dropWhile inToken)

/-- An element, and what follows it; `level` reads a nested array. -/
def element (level : Str → Except ArrayError (List Value × Str)) (text : Str) :
    Except ArrayError (Value × Str) :=
  match text with
  | [] => .ok (token [])
  | character :: rest =>
      if character = 123 then (level text).map fun read => (.list read.1, read.2)
      else if character = 34 then (quotedText rest).map fun read => (.str read.1, read.2)
      else .ok (token text)

mutual

def parseLevel : ℕ → Str → Except ArrayError (List Value × Str)
  | 0, _ => .error .exhausted
  | _ + 1, [] => .error (.valueError "invalid PostgreSQL array")
  | depth + 1, character :: text =>
      if character ≠ 123 then .error (.valueError "invalid PostgreSQL array")
      else if text.head? = some 125 then .ok ([], text.tail)
      else elements depth text

/-- The loop of `parse_level` over the elements. -/
def elements : ℕ → Str → Except ArrayError (List Value × Str)
  | 0, _ => .error .exhausted
  | _ + 1, [] => .error (.valueError "unterminated PostgreSQL array")
  | depth + 1, character :: text => do
      let (value, rest) ← element (parseLevel depth) (character :: text)
      match rest with
      | [] => .error (.valueError "unterminated PostgreSQL array")
      | delimiter :: rest =>
          if delimiter = 125 then .ok ([value], rest)
          else if delimiter ≠ 44 then .error (.valueError "invalid PostgreSQL array delimiter")
          else do
            let (values, rest) ← elements depth rest
            return (value :: values, rest)

end

def parseArray (text : Str) : Except ArrayError (List Value) := do
  let (parsed, rest) ← parseLevel (2 * text.length + 1) text
  if rest ≠ [] then .error (.valueError "trailing data in PostgreSQL array") else return parsed

theorem map_ok {α β : Type} {result : Except ArrayError α} {change : α → β} {value : β}
    (done : result.map change = .ok value) : ∃ read, result = .ok read ∧ change read = value := by
  cases result with
  | error failed => cases done
  | ok read => exact ⟨read, rfl, Except.ok.inj done⟩

theorem quotedText_shorter {text : Str} {read : Str × Str} (done : quotedText text = .ok read) :
    read.2.length < text.length := by
  fun_induction quotedText text generalizing read with
  | case1 => cases done
  | case2 text =>
      obtain rfl := Except.ok.inj done
      exact Nat.lt_succ_self _
  | case3 => cases done
  | case4 character text escape induction =>
      obtain ⟨other, inner, rfl⟩ := map_ok done
      have shorter := induction inner
      simp only [List.length_cons]
      omega
  | case5 character text quotation escape induction =>
      obtain ⟨other, inner, rfl⟩ := map_ok done
      exact (induction inner).trans (Nat.lt_succ_self _)

theorem element_shorter {level : Str → Except ArrayError (List Value × Str)} {text : Str}
    (nested : ∀ read, level text = .ok read → read.2.length ≤ text.length)
    {read : Value × Str} (done : element level text = .ok read) :
    read.2.length ≤ text.length := by
  have word : (token text).2.length ≤ text.length := (List.dropWhile_suffix _).length_le
  cases text with
  | nil =>
      obtain rfl := Except.ok.inj done
      exact word
  | cons character rest =>
      rw [element] at done
      split_ifs at done
      · obtain ⟨other, inner, rfl⟩ := map_ok done
        exact nested other inner
      · obtain ⟨other, inner, rfl⟩ := map_ok done
        exact (quotedText_shorter inner).le.trans (Nat.le_succ _)
      · obtain rfl := Except.ok.inj done
        exact word

/-- One round of the loop: the element is the last one, or the loop goes on behind a comma. -/
theorem elements_cases {depth : ℕ} {text : Str} {read : List Value × Str}
    (done : elements (depth + 1) text = .ok read) :
    ∃ value delimiter rest, element (parseLevel depth) text = .ok (value, delimiter :: rest) ∧
      (read = ([value], rest) ∨ ∃ more, elements depth rest = .ok more ∧
        read = (value :: more.1, more.2)) := by
  cases text with
  | nil => cases done
  | cons character text =>
      rw [elements, except_bind_eq_ok] at done
      obtain ⟨⟨value, rest⟩, first, done⟩ := done
      cases rest with
      | nil => cases done
      | cons delimiter rest =>
          refine ⟨value, delimiter, rest, first, ?_⟩
          dsimp only at done
          split_ifs at done
          · exact .inl (Except.ok.inj done).symm
          · obtain ⟨more, next, same⟩ := except_bind_eq_ok.mp done
            exact .inr ⟨more, next, (Except.ok.inj same).symm⟩

mutual

theorem parseLevel_shorter (depth : ℕ) {text : Str} {read : List Value × Str}
    (done : parseLevel depth text = .ok read) : read.2.length ≤ text.length := by
  cases depth with
  | zero => cases done
  | succ depth =>
      cases text with
      | nil => cases done
      | cons character text =>
          rw [parseLevel] at done
          split_ifs at done
          · obtain rfl := Except.ok.inj done
            rw [List.length_tail, List.length_cons]
            omega
          · exact (elements_shorter depth done).trans (Nat.le_succ _)

theorem elements_shorter (depth : ℕ) {text : Str} {read : List Value × Str}
    (done : elements depth text = .ok read) : read.2.length ≤ text.length := by
  cases depth with
  | zero => cases done
  | succ depth =>
      obtain ⟨value, delimiter, rest, first, last | ⟨more, next, last⟩⟩ := elements_cases done
      · have shorter := element_shorter (fun read => parseLevel_shorter depth) first
        rw [List.length_cons] at shorter
        rw [last]
        exact (Nat.le_succ _).trans shorter
      · have shorter := element_shorter (fun read => parseLevel_shorter depth) first
        have tail := elements_shorter depth next
        rw [List.length_cons] at shorter
        rw [last]
        exact tail.trans ((Nat.le_succ _).trans shorter)

end

theorem map_ne_exhausted {α β : Type} {result : Except ArrayError α} {change : α → β}
    (ends : result ≠ .error .exhausted) : result.map change ≠ .error .exhausted := by
  cases result with
  | error failed => exact fun same => ends (congrArg Except.error (Except.error.inj same))
  | ok read => exact fun same => by cases same

theorem quotedText_ends (text : Str) : quotedText text ≠ .error .exhausted := by
  fun_induction quotedText text with
  | case1 => simp
  | case2 => simp
  | case3 => simp
  | case4 character text escape induction => exact map_ne_exhausted induction
  | case5 character text quotation escape induction => exact map_ne_exhausted induction

mutual

theorem parseLevel_ends {depth : ℕ} {text : Str} (enough : 2 * text.length + 1 ≤ depth) :
    parseLevel depth text ≠ .error .exhausted := by
  cases depth with
  | zero => omega
  | succ depth =>
      cases text with
      | nil => simp [parseLevel]
      | cons character text =>
          rw [List.length_cons] at enough
          rw [parseLevel]
          split_ifs
          · simp
          · simp
          · exact elements_ends (by omega)

theorem elements_ends {depth : ℕ} {text : Str} (enough : 2 * text.length + 2 ≤ depth) :
    elements depth text ≠ .error .exhausted := by
  cases depth with
  | zero => omega
  | succ depth =>
      cases text with
      | nil => simp [elements]
      | cons character text =>
          have first : element (parseLevel depth) (character :: text) ≠ .error .exhausted := by
            rw [element]
            split_ifs
            · exact map_ne_exhausted (parseLevel_ends (by omega))
            · exact map_ne_exhausted (quotedText_ends text)
            · simp
          rw [elements]
          cases read : element (parseLevel depth) (character :: text) with
          | error failed =>
              rw [read] at first
              intro same
              exact first (congrArg Except.error (Except.error.inj same))
          | ok result =>
              obtain ⟨value, rest⟩ := result
              have shorter := element_shorter (fun read => parseLevel_shorter depth) read
              rw [except_ok_bind]
              cases rest with
              | nil => simp
              | cons delimiter rest =>
                  rw [List.length_cons, List.length_cons] at *
                  dsimp only
                  split_ifs
                  · simp
                  · simp
                  · exact except_bind_ne_error (elements_ends (by omega))
                      fun more same => by cases same

end

/-- The depth that the parser starts with is enough for every text. -/
theorem parseArray_ends (text : Str) : parseArray text ≠ .error .exhausted := by
  refine except_bind_ne_error (parseLevel_ends le_rfl) fun read => ?_
  dsimp only
  split_ifs
  · simp
  · exact fun same => by cases same

theorem quotedText_escaped (value rest : Str) :
    quotedText ((value.flatMap fun point =>
      if point = 92 ∨ point = 34 then [92, point] else [point]) ++ 34 :: rest) =
      .ok (value, rest) := by
  induction value with
  | nil => 
      rw [List.flatMap_nil, List.nil_append, quotedText.eq_def]
      simp
  | cons point value induction =>
      rw [List.flatMap_cons, List.append_assoc]
      split_ifs with special
      · rw [List.cons_append, List.cons_append, List.nil_append, quotedText.eq_def]
        simp [induction, Except.map]
      · rw [not_or] at special
        rw [List.cons_append, List.nil_append, quotedText.eq_def]
        simp [induction, Except.map, special.1, special.2]

/-- A text at the end of an element. -/
def Closing (text : Str) : Prop := ∃ rest, text = 44 :: rest ∨ text = 125 :: rest

theorem token_written {word rest : Str} (plain : ∀ character ∈ word, inToken character = true)
    (closing : Closing rest) :
    token (word ++ rest) = (if word = lit "NULL" then .none else .str word, rest) := by
  have stop : rest.takeWhile inToken = [] ∧ rest.dropWhile inToken = rest := by
    obtain ⟨rest, rfl | rfl⟩ := closing <;> simp [inToken]
  rw [token, List.takeWhile_append_of_pos plain, List.dropWhile_append_of_pos plain, stop.1,
    stop.2, List.append_nil]

/-- A text is read as an element in front of the end of an element. -/
structure ReadsElement (item : Value) (part : Str) : Prop where
  first : ∃ character rest, part = character :: rest ∧ character ≠ 125
  read : ∀ (depth : ℕ) (rest : Str), 2 * part.length ≤ depth → Closing rest →
    element (parseLevel depth) (part ++ rest) = .ok (item, rest)

theorem reads_null : ReadsElement .none (lit "NULL") where
  first := ⟨78, [85, 76, 76], rfl, by decide⟩
  read := fun _ rest _ closing => by
    have word := @token_written (lit "NULL") rest (by decide) closing
    rw [if_pos rfl] at word
    rw [← word]
    rfl

theorem arrayQuote_quoted (value rest : Str)
    (level : Str → Except ArrayError (List Value × Str)) :
    element level (lit "\"" ++ (value.flatMap fun point =>
      if point = 92 ∨ point = 34 then [92, point] else [point]) ++ lit "\"" ++ rest) =
      .ok (.str value, rest) := by
  have mark : lit "\"" = [34] := rfl
  rw [mark, List.append_assoc, List.append_assoc, List.singleton_append, List.singleton_append,
    element, if_neg (by decide), if_pos rfl, quotedText_escaped]
  rfl

/-- A string is read back from its spelling, with quotation marks or without. -/
theorem reads_str (value : Str) : ReadsElement (.str value) (arrayQuote value) := by
  rw [arrayQuote]
  split_ifs with special
  · exact
      { first := ⟨34, _, rfl, by decide⟩
        read := fun depth rest _ _ => arrayQuote_quoted value rest (parseLevel depth) }
  · simp only [not_or] at special
    obtain ⟨nonempty, notNull, ordinary, -, -⟩ := special
    have signs : lit ",\x7b\x7d\"\\" = [44, 123, 125, 34, 92] := rfl
    have other : ∀ point ∈ value,
        point ≠ 44 ∧ point ≠ 123 ∧ point ≠ 125 ∧ point ≠ 34 ∧ point ≠ 92 := by
      intro point member
      rw [signs, List.any_eq_true, not_exists] at ordinary
      have outside := ordinary point
      simpa [member] using outside
    have same : (value.flatMap fun point =>
        if point = 92 ∨ point = 34 then [92, point] else [point]) = value := by
      have single : ∀ point ∈ value,
          (if point = 92 ∨ point = 34 then [92, point] else [point]) = [point] := by
        intro point member
        obtain ⟨-, -, -, quotation, escape⟩ := other point member
        rw [if_neg (not_or.mpr ⟨escape, quotation⟩)]
      rw [List.flatMap_congr single, List.flatMap_singleton']
    have word : value ≠ lit "NULL" := by
      rintro rfl
      exact notNull rfl
    rw [same]
    cases value with
    | nil => exact absurd rfl nonempty
    | cons point value =>
        obtain ⟨comma, opening, brace, quotation, -⟩ := other point List.mem_cons_self
        refine ⟨⟨point, value, rfl, brace⟩, fun {depth} {rest} _ closing => ?_⟩
        have plain : ∀ character ∈ point :: value, inToken character = true := by
          intro character member
          obtain ⟨comma, -, brace, -, -⟩ := other character member
          simp [inToken, comma, brace]
        have read := token_written plain closing
        rw [if_neg word] at read
        rw [List.cons_append, element, if_neg opening, if_neg quotation, ← List.cons_append, read]

/-- The loop reads the elements that were joined, up to the closing brace. -/
theorem elements_joined {items : List Value} {parts : List Str}
    (reads : List.Forall₂ ReadsElement items parts) (nonempty : parts ≠ []) {depth : ℕ} {rest : Str}
    (enough : 2 * (joined parts).length + 1 ≤ depth) :
    elements depth (joined parts ++ 125 :: rest) = .ok (items, rest) := by
  induction reads generalizing depth with
  | nil => exact absurd rfl nonempty
  | @cons item part items parts reads others induction =>
      cases depth with
      | zero => omega
      | succ depth =>
          obtain ⟨character, more, start, -⟩ := reads.first
          cases parts with
          | nil =>
              cases others
              rw [joined] at enough ⊢
              have read := reads.read depth (125 :: rest) (by omega)
                ⟨rest, .inr rfl⟩
              rw [start, List.cons_append] at read ⊢
              rw [elements, read, except_ok_bind]
              rfl
          | cons next parts =>
              have comma : lit "," = [44] := rfl
              rw [joined, comma] at enough ⊢
              · rw [List.length_append, List.length_append, List.length_singleton] at enough
                have read := reads.read depth
                  (44 :: (joined (next :: parts) ++ 125 :: rest)) (by omega) ⟨_, .inl rfl⟩
                have tail : elements depth (joined (next :: parts) ++ 125 :: rest) =
                    .ok (items, rest) := induction (List.cons_ne_nil _ _) (by omega)
                rw [List.append_assoc, List.append_assoc, List.singleton_append]
                rw [start, List.cons_append] at read ⊢
                rw [elements, read, except_ok_bind]
                dsimp only
                rw [if_neg (by decide), if_neg (by decide), tail, except_ok_bind]
                rfl
              · simp
              · simp

theorem parseLevel_joined {items : List Value} {parts : List Str}
    (reads : List.Forall₂ ReadsElement items parts) {depth : ℕ} (rest : Str)
    (enough : 2 * (lit "\x7b" ++ joined parts ++ lit "\x7d").length ≤ depth) :
    parseLevel depth (lit "\x7b" ++ joined parts ++ lit "\x7d" ++ rest) = .ok (items, rest) := by
  have opening : lit "\x7b" = [123] := rfl
  have closing : lit "\x7d" = [125] := rfl
  rw [opening, closing] at enough ⊢
  simp only [List.length_append, List.length_singleton] at enough
  cases depth with
  | zero => omega
  | succ depth =>
      rw [List.append_assoc, List.append_assoc, List.singleton_append, List.singleton_append,
        parseLevel, if_neg (by decide)]
      cases reads with
      | nil => rfl
      | @cons item part items parts first others =>
          have other : (joined (part :: parts) ++ 125 :: rest).head? ≠ some 125 := by
            obtain ⟨character, more, rfl, brace⟩ := first.first
            cases parts <;> simpa [joined] using brace
          rw [if_neg other]
          exact elements_joined (.cons first others) (List.cons_ne_nil _ _) (by omega)

theorem reads_list {items : List Value} {parts : List Str}
    (reads : List.Forall₂ ReadsElement items parts) :
    ReadsElement (.list items) (lit "\x7b" ++ joined parts ++ lit "\x7d") where
  first := ⟨123, _, rfl, by decide⟩
  read := fun depth rest enough _ => by
    have level := parseLevel_joined reads rest enough
    have opening : lit "\x7b" = [123] := rfl
    rw [opening, List.append_assoc, List.append_assoc, List.singleton_append] at level ⊢
    rw [element, if_pos rfl, level]
    rfl

mutual

/-- A nested list of strings and nulls. -/
def Value.Texts : Value → Prop
  | .none => True
  | .str _ => True
  | .list items => AllTexts items
  | _ => False

/-- Every item is a nested list of strings and nulls, or one of these. -/
def AllTexts : List Value → Prop
  | [] => True
  | item :: items => item.Texts ∧ AllTexts items

end

mutual

theorem arrayScalar_reads : (item : Value) → item.Texts →
    ∃ part, arrayScalar item = .ok part ∧ ReadsElement item part
  | .none, _ => ⟨_, rfl, reads_null⟩
  | .str value, _ => ⟨_, rfl, reads_str value⟩
  | .list items, texts => by
      obtain ⟨parts, written, reads⟩ := arrayScalars_reads items texts
      refine ⟨_, ?_, reads_list reads⟩
      rw [arrayScalar, written]
      rfl

theorem arrayScalars_reads : (items : List Value) → AllTexts items →
    ∃ parts, arrayScalars items = .ok parts ∧ List.Forall₂ ReadsElement items parts
  | [], _ => ⟨[], rfl, .nil⟩
  | item :: items, texts => by
      obtain ⟨part, written, reads⟩ := arrayScalar_reads item texts.1
      obtain ⟨parts, others, all⟩ := arrayScalars_reads items texts.2
      refine ⟨part :: parts, ?_, .cons reads all⟩
      rw [arrayScalars, written, others]
      rfl

end

/-- Every nested list of strings and nulls comes back from its array text. -/
theorem array_text_read_back {items : List Value} (texts : AllTexts items) :
    ∃ text, arrayScalar (.list items) = .ok text ∧ parseArray text = .ok items := by
  obtain ⟨parts, written, reads⟩ := arrayScalars_reads items texts
  refine ⟨lit "\x7b" ++ joined parts ++ lit "\x7d", ?_, ?_⟩
  · rw [arrayScalar, written]
    rfl
  · have level := parseLevel_joined reads [] (Nat.le_succ _)
    rw [List.append_nil] at level
    rw [parseArray, level, except_ok_bind]
    rfl

theorem array_text_read_back_pair : ∃ text,
    arrayScalar (.list [.list [.none, .str (lit "null")], .list [.str [], .str [92, 44]]]) =
        .ok text ∧
      parseArray text = .ok [.list [.none, .str (lit "null")], .list [.str [], .str [92, 44]]] :=
  array_text_read_back ⟨⟨trivial, trivial, trivial⟩, ⟨trivial, trivial, trivial⟩, trivial⟩

end Python
end Postgamma
