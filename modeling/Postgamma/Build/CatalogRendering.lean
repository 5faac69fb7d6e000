import Mathlib
import Postgamma.Build.CatalogData

/-!
# Texts of the parameter catalog

What a list of records may look like in the data syntax, and that the parser reads every such
text back. A rendering chooses the blanks and comments between the tokens, the backslashes in the
strings and the commas behind the last items.
-/

namespace Postgamma
namespace Build

open Python (Str lit isSpace)

namespace CatalogDataParser

/-- Blanks and comments, each comment up to its end. -/
inductive Ignored : Str → Prop
  | nil : Ignored []
  | space {character : ℕ} {rest : Str} (blank : isSpace character = true)
      (more : Ignored rest) : Ignored (character :: rest)
  | line {body rest : Str} (inside : 10 ∉ body) (more : Ignored rest) :
      Ignored (35 :: (body ++ 10 :: rest))
  | block {body rest : Str} (inside : ¬[42, 47] <:+: body) (more : Ignored rest) :
      Ignored (47 :: 42 :: (body ++ 42 :: 47 :: rest))

/-- Blanks and comments at the end of a text, where a line comment needs no newline. -/
inductive IgnoredAtEnd : Str → Prop
  | whole {gap : Str} (ignored : Ignored gap) : IgnoredAtEnd gap
  | line {gap body : Str} (ignored : Ignored gap) (inside : 10 ∉ body) :
      IgnoredAtEnd (gap ++ 35 :: body)

/-- A string between quotation marks: quotation marks and backslashes are escaped, but a backslash
may stay in front of any other character. -/
inductive Quoted : Str → Str → Prop
  | nil : Quoted [] []
  | plain {character : ℕ} {value text : Str} (quotation : character ≠ 39)
      (escape : character ≠ 92) (more : Quoted value text) :
      Quoted (character :: value) (character :: text)
  | escaped {character : ℕ} {value text : Str} (special : character = 92 ∨ character = 39)
      (more : Quoted value text) : Quoted (character :: value) (92 :: character :: text)
  | alone {character : ℕ} {value text : Str} (quotation : character ≠ 39)
      (escape : character ≠ 92) (more : Quoted value text) :
      Quoted (92 :: character :: value) (92 :: character :: text)

variable (letters : Letters)

def FieldName (name : Str) : Prop :=
  ∃ first others, name = first :: others ∧ letters.starts first = true ∧
    ∀ character ∈ others, letters.goesOn character = true

/-- A field up to its value, with the blanks in front of each token. -/
inductive RenderedField : Str × Str → Str → Prop
  | intro {name value text front middle back : Str} (named : FieldName letters name)
      (quoted : Quoted value text) (one : Ignored front) (two : Ignored middle)
      (three : Ignored back) :
      RenderedField (name, value)
        (front ++ (name ++ (middle ++ 61 :: 62 :: (back ++ 39 :: (text ++ [39])))))

/-- The fields of a record with its closing brace. -/
inductive RenderedFields : Record → Str → Prop
  | close {gap : Str} (ignored : Ignored gap) : RenderedFields [] (gap ++ [125])
  | last {field : Str × Str} {text gap : Str} (rendered : RenderedField letters field text)
      (ignored : Ignored gap) : RenderedFields [field] (text ++ (gap ++ [125]))
  | comma {field : Str × Str} {fields : Record} {text gap rest : Str}
      (rendered : RenderedField letters field text) (ignored : Ignored gap)
      (more : RenderedFields fields rest) :
      RenderedFields (field :: fields) (text ++ (gap ++ 44 :: rest))

/-- The records with the closing bracket, behind a number of newlines; each record comes with the
line of its opening brace. -/
inductive RenderedRecords : ℕ → List (Record × ℕ) → Str → Prop
  | close {before : ℕ} {gap : Str} (ignored : Ignored gap) :
      RenderedRecords before [] (gap ++ [93])
  | last {before : ℕ} {fields : Record} {text front back : Str}
      (distinct : (fields.map Prod.fst).Nodup) (rendered : RenderedFields letters fields text)
      (one : Ignored front) (two : Ignored back) :
      RenderedRecords before [(fields, before + front.count 10 + 1)]
        (front ++ 123 :: (text ++ (back ++ [93])))
  | comma {before : ℕ} {fields : Record} {records : List (Record × ℕ)}
      {text front back rest : Str} (distinct : (fields.map Prod.fst).Nodup)
      (rendered : RenderedFields letters fields text) (one : Ignored front) (two : Ignored back)
      (more : RenderedRecords
        (before + front.count 10 + text.count 10 + back.count 10) records rest) :
      RenderedRecords before ((fields, before + front.count 10 + 1) :: records)
        (front ++ 123 :: (text ++ (back ++ 44 :: rest)))

/-- The text of a list of records. -/
inductive Rendered : List (Record × ℕ) → Str → Prop
  | intro {records : List (Record × ℕ)} {front text back : Str} (one : Ignored front)
      (rendered : RenderedRecords letters (front.count 10) records text)
      (two : IgnoredAtEnd back) : Rendered records (front ++ 91 :: (text ++ back))

variable {letters}

theorem afterNewline_body {body : Str} (inside : 10 ∉ body) (rest : Str) :
    afterNewline (body ++ 10 :: rest) = rest := by
  have other : ∀ character ∈ body, decide (character ≠ 10) = true := by
    intro character member
    exact decide_eq_true fun same => inside (same ▸ member)
  rw [afterNewline, List.dropWhile_append_of_pos other, List.dropWhile_cons_of_neg (by simp),
    List.tail_cons]

theorem afterNewline_end {body : Str} (inside : 10 ∉ body) : afterNewline body = [] := by
  have other : ∀ character ∈ body, decide (character ≠ 10) = true := by
    intro character member
    exact decide_eq_true fun same => inside (same ▸ member)
  rw [afterNewline, List.dropWhile_eq_nil_iff.mpr other, List.tail_nil]

theorem afterBlock_body {body : Str} (inside : ¬[42, 47] <:+: body) (rest : Str) :
    afterBlock (body ++ 42 :: 47 :: rest) = some rest := by
  induction body with
  | nil => rw [List.nil_append, afterBlock, if_pos ⟨rfl, rfl⟩, List.tail_cons]
  | cons character body induction =>
      have later : ¬[42, 47] <:+: body := fun found => inside (List.infix_cons found)
      have open_ : ¬(character = 42 ∧ (body ++ 42 :: 47 :: rest).head? = some 47) := by
        rintro ⟨rfl, slash⟩
        cases body with
        | nil => simp at slash
        | cons next body =>
            obtain rfl : next = 47 := by simpa using slash
            exact inside ⟨[], body, rfl⟩
      rw [List.cons_append, afterBlock, if_neg open_, induction later]

variable {gap : Str} {character : ℕ} {fields : Record}

theorem skipIgnored_ignored (whole : Str) (ignored : Ignored gap) (rest : Str) :
    skipIgnored whole (gap ++ rest) = skipIgnored whole rest := by
  induction ignored with
  | nil => rfl
  | space blank more induction =>
      rw [List.cons_append, skipIgnored_space whole blank, induction]
  | line inside more induction =>
      rw [List.cons_append, List.append_assoc, List.cons_append, skipIgnored_line,
        afterNewline_body inside, induction]
  | block inside more induction =>
      rw [List.cons_append, List.cons_append, List.append_assoc, List.cons_append,
        List.cons_append, skipIgnored_block whole (afterBlock_body inside _), induction]

theorem skipIgnored_atEnd (whole : Str) (ignored : IgnoredAtEnd gap) :
    skipIgnored whole gap = .ok [] := by
  cases ignored with
  | whole ignored =>
      rw [← List.append_nil gap, skipIgnored_ignored whole ignored, skipIgnored_nil]
  | line ignored inside =>
      rw [skipIgnored_ignored whole ignored, skipIgnored_line, afterNewline_end inside,
        skipIgnored_nil]

/-- A token in front of which nothing is ignored. -/
theorem stops_cons (ink : isSpace character = false) (line : character ≠ 35)
    (block : character ≠ 47) (rest : Str) : Stops (character :: rest) := by
  intro other more same
  obtain ⟨rfl, rfl⟩ := List.cons.inj same
  exact ⟨ink, line, fun both => block both.1⟩

theorem accept_found (whole : Str) (ignored : Ignored gap) {token : Str}
    (ink : isSpace character = false) (line : character ≠ 35) (block : character ≠ 47)
    (rest : Str) :
    accept whole (character :: token) (gap ++ (character :: token ++ rest)) = .ok (true, rest) := by
  have stops : Stops (character :: token ++ rest) := stops_cons ink line block _
  rw [accept, skipIgnored_ignored whole ignored, skipIgnored_stops whole stops, except_ok_bind,
    if_pos (by simp), List.drop_left]
  rfl

theorem accept_other (whole : Str) {token text : Str} (stops : Stops text)
    (other : ¬token <+: text) : accept whole token text = .ok (false, text) := by
  rw [accept, skipIgnored_stops whole stops, except_ok_bind,
    if_neg fun found => other (List.isPrefixOf_iff_prefix.mp found)]
  rfl

theorem expect_found (whole : Str) (ignored : Ignored gap) {token : Str}
    (ink : isSpace character = false) (line : character ≠ 35) (block : character ≠ 47)
    (rest : Str) :
    expect whole (character :: token) (gap ++ (character :: token ++ rest)) = .ok rest := by
  rw [expect, accept_found whole ignored ink line block, except_ok_bind]
  rfl

theorem goesOn_blank (blank : isSpace character = true) : letters.goesOn character = false := by
  rw [Letters.goesOn, blank]
  split_ifs with small
  · rw [isSpace] at blank
    simp only [Letters.asciiAlpha, Bool.or_eq_true, Bool.and_eq_true, Bool.or_eq_false_iff,
      Bool.and_eq_false_iff, decide_eq_true_eq, decide_eq_false_iff_not, beq_iff_eq,
      beq_eq_false_iff_ne] at blank ⊢
    omega
  · rfl

theorem starts_inside (starts : letters.starts character = true) :
    isSpace character = false ∧ character ≠ 35 ∧ character ≠ 47 ∧ character ≠ 125 := by
  rw [Letters.starts] at starts
  split_ifs at starts with small
  · simp only [Letters.asciiAlpha, Bool.or_eq_true, Bool.and_eq_true, decide_eq_true_eq,
      beq_iff_eq] at starts
    refine ⟨?_, by omega, by omega, by omega⟩
    simp only [isSpace, Bool.or_eq_false_iff, Bool.and_eq_false_iff, decide_eq_false_iff_not,
      beq_eq_false_iff_ne]
    omega
  · simp only [Bool.and_eq_true, Bool.not_eq_true'] at starts
    exact ⟨starts.1, by omega, by omega, by omega⟩

/-- Nothing that may follow a name belongs to it. -/
theorem goesOn_ignored (letters : Letters) (ignored : Ignored gap) (rest : Str) :
    ∀ character ∈ (gap ++ 61 :: rest).head?, letters.goesOn character = false := by
  intro character head
  cases ignored with
  | nil =>
      obtain rfl := Option.some.inj head
      rfl
  | space blank more =>
      obtain rfl := Option.some.inj head
      exact goesOn_blank blank
  | line inside more =>
      obtain rfl := Option.some.inj head
      rfl
  | block inside more =>
      obtain rfl := Option.some.inj head
      rfl

theorem parseIdentifier_name (whole : Str) {name : Str} (named : FieldName letters name)
    {rest : Str} (ended : ∀ character ∈ rest.head?, letters.goesOn character = false) :
    parseIdentifier letters whole (name ++ rest) = .ok (name, rest) := by
  obtain ⟨first, others, rfl, starts, inside⟩ := named
  obtain ⟨ink, line, block, -⟩ := starts_inside starts
  have stop : rest.takeWhile letters.goesOn = [] ∧ rest.dropWhile letters.goesOn = rest := by
    cases rest with
    | nil => exact ⟨rfl, rfl⟩
    | cons character rest =>
        have outside := ended character rfl
        exact ⟨by simp [outside], by simp [outside]⟩
  rw [List.cons_append, parseIdentifier, skipIgnored_stops whole (stops_cons ink line block _),
    except_ok_bind]
  dsimp only
  rw [if_pos starts, List.takeWhile_append_of_pos inside, List.dropWhile_append_of_pos inside,
    stop.1, stop.2, List.append_nil]
  rfl

theorem quotedLoop_quoted (whole start : Str) {value text : Str} (quoted : Quoted value text)
    (rest : Str) : quotedLoop whole start (text ++ 39 :: rest) = .ok (value, rest) := by
  induction quoted with
  | nil => 
      rw [List.nil_append, quotedLoop.eq_def]
      rfl
  | plain quotation escape more induction =>
      rw [List.cons_append, quotedLoop.eq_def]
      simp only [if_neg quotation, if_pos escape, induction]
      rfl
  | @escaped character value text special more induction =>
      rw [List.cons_append, List.cons_append, quotedLoop.eq_def]
      have escape : ¬((92 : ℕ) ≠ 92) := not_not.mpr rfl
      simp only [if_neg (show ¬((92 : ℕ) = 39) by decide), if_neg escape, if_pos special, induction]
      rfl
  | alone quotation escape more induction =>
      rw [List.cons_append, List.cons_append, quotedLoop.eq_def]
      have own : ¬((92 : ℕ) ≠ 92) := not_not.mpr rfl
      simp only [if_neg (show ¬((92 : ℕ) = 39) by decide), if_neg own,
        if_neg (not_or.mpr ⟨escape, quotation⟩), induction]
      rfl

theorem parseString_quoted (whole : Str) {gap value text : Str} (ignored : Ignored gap)
    (quoted : Quoted value text) (rest : Str) :
    parseString whole (gap ++ 39 :: (text ++ 39 :: rest)) = .ok (value, rest) := by
  have stops : Stops (39 :: (text ++ 39 :: rest)) :=
    stops_cons (by decide) (by decide) (by decide) _
  have opened : accept whole [39] (39 :: (text ++ 39 :: rest)) = .ok (true, text ++ 39 :: rest) :=
    accept_found whole .nil (by decide) (by decide) (by decide) _
  rw [parseString, skipIgnored_ignored whole ignored, skipIgnored_stops whole stops,
    except_ok_bind, opened, except_ok_bind]
  dsimp only
  rw [if_pos rfl, quotedLoop_quoted whole _ quoted]

/-- One round of the loop of `parse_record` over a field that is not there yet. -/
theorem fieldLoop_field (whole : Str) {field : Str × Str} {text : Str}
    (rendered : RenderedField letters field text)
    (fresh : field.1 ∉ fields.map Prod.fst) (rounds : ℕ) (rest : Str) :
    fieldLoop letters whole (rounds + 1) fields (text ++ rest) = (do
      let rest ← skipIgnored whole rest
      let (comma, rest) ← accept whole [44] rest
      raiseIf (!comma && rest.head? != some 125)
        (fail whole rest (lit "expected ',' or '\x7d' after field value"))
      fieldLoop letters whole rounds (fields ++ [field]) rest) := by
  obtain ⟨named, quoted, one, two, three⟩ := rendered
  rename_i name value text front middle back
  obtain ⟨first, others, begun, starts, -⟩ := id named
  obtain ⟨ink, line, block, brace⟩ := starts_inside starts
  have stops : ∀ more, Stops (name ++ more) := by
    intro more
    rw [begun]
    exact stops_cons ink line block _
  have notClosed : ∀ more, ¬[125] <+: name ++ more := by
    rintro more ⟨behind, same⟩
    rw [begun] at same
    exact brace (List.cons.inj same).1.symm
  have ended := goesOn_ignored letters two
    (62 :: (back ++ 39 :: (text ++ 39 :: rest)))
  have arrow : expect whole [61, 62] (middle ++ 61 :: 62 :: (back ++ 39 :: (text ++ 39 :: rest))) =
      .ok (back ++ 39 :: (text ++ 39 :: rest)) :=
    expect_found whole two (by decide) (by decide) (by decide) _
  have again : raiseIf (decide (name ∈ fields.map Prod.fst)) = fun _ => .ok () := by
    funext error
    rw [decide_eq_false fresh]
    rfl
  simp only [List.append_assoc, List.cons_append, List.nil_append]
  rw [fieldLoop, skipIgnored_ignored whole one, skipIgnored_stops whole (stops _), except_ok_bind,
    accept_other whole (stops _) (notClosed _), except_ok_bind]
  dsimp only
  rw [if_neg Bool.false_ne_true, parseIdentifier_name whole named ended, except_ok_bind]
  dsimp only
  rw [again, except_ok_bind, arrow, except_ok_bind, parseString_quoted whole three quoted,
    except_ok_bind]

/-- Every field takes some of the text. -/
theorem RenderedFields.length {text : Str}
    (rendered : RenderedFields letters fields text) : fields.length < text.length := by
  induction rendered with
  | close => simp
  | last field =>
      obtain ⟨⟩ := field
      simp
      omega
  | comma field ignored more induction =>
      obtain ⟨⟩ := field
      simp
      omega

theorem fieldLoop_close (letters : Letters) (whole : Str) (ignored : Ignored gap)
    (rounds : ℕ) (fields : Record) (rest : Str) :
    fieldLoop letters whole (rounds + 1) fields (gap ++ 125 :: rest) = .ok (fields, rest) := by
  have stops : Stops (125 :: rest) := stops_cons (by decide) (by decide) (by decide) _
  have found : accept whole [125] (125 :: rest) = .ok (true, rest) :=
    accept_found whole .nil (by decide) (by decide) (by decide) _
  rw [fieldLoop, skipIgnored_ignored whole ignored, skipIgnored_stops whole stops, except_ok_bind,
    found, except_ok_bind]
  rfl

theorem fresh_of_nodup {before more : Record} {field : Str × Str}
    (distinct : ((before ++ field :: more).map Prod.fst).Nodup) :
    field.1 ∉ before.map Prod.fst := by
  rw [List.map_append, List.map_cons] at distinct
  exact fun member => (List.disjoint_of_nodup_append distinct) member List.mem_cons_self

theorem fieldLoop_rendered (whole : Str) {text : Str}
    (rendered : RenderedFields letters fields text) {rounds : ℕ} (enough : fields.length < rounds)
    (before : Record) (distinct : ((before ++ fields).map Prod.fst).Nodup) (rest : Str) :
    fieldLoop letters whole rounds before (text ++ rest) = .ok (before ++ fields, rest) := by
  induction rendered generalizing rounds before with
  | close ignored =>
      cases rounds with
      | zero => cases enough
      | succ rounds =>
          rw [List.append_assoc, List.singleton_append, List.append_nil]
          exact fieldLoop_close letters whole ignored rounds before rest
  | @last field text gap rendered ignored =>
      cases rounds with
      | zero => cases enough
      | succ rounds =>
          cases rounds with
          | zero => simp at enough
          | succ rounds =>
              have stops : Stops (125 :: rest) :=
                stops_cons (by decide) (by decide) (by decide) _
              have noComma : accept whole [44] (125 :: rest) = .ok (false, 125 :: rest) :=
                accept_other whole stops (by simp)
              have closed := fieldLoop_close letters whole .nil rounds
                (before ++ [field]) rest
              rw [List.append_assoc, List.append_assoc, List.singleton_append,
                fieldLoop_field whole rendered (fresh_of_nodup distinct),
                skipIgnored_ignored whole ignored, skipIgnored_stops whole stops, except_ok_bind,
                noComma, except_ok_bind]
              exact closed
  | @comma field fields text gap more rendered ignored others induction =>
      cases rounds with
      | zero => cases enough
      | succ rounds =>
          have stops : Stops (44 :: (more ++ rest)) :=
            stops_cons (by decide) (by decide) (by decide) _
          have found : accept whole [44] (44 :: (more ++ rest)) = .ok (true, more ++ rest) :=
            accept_found whole .nil (by decide) (by decide) (by decide) _
          have behind := @induction rounds (Nat.lt_of_succ_lt_succ enough)
            (before ++ [field]) (by rwa [List.append_assoc, List.singleton_append])
          rw [List.append_assoc, List.singleton_append] at behind
          rw [List.append_assoc, List.append_assoc, List.cons_append,
            fieldLoop_field whole rendered (fresh_of_nodup distinct),
            skipIgnored_ignored whole ignored, skipIgnored_stops whole stops, except_ok_bind,
            found, except_ok_bind]
          exact behind

theorem newlines_append (before rest : Str) : newlines (before ++ rest) rest = before.count 10 := by
  rw [newlines, List.length_append, Nat.add_sub_cancel, List.take_left]

theorem parseRecord_rendered (before : Str) {front text : Str}
    (one : Ignored front) (distinct : (fields.map Prod.fst).Nodup)
    (rendered : RenderedFields letters fields text) (rest : Str) :
    parseRecord letters (before ++ (front ++ 123 :: (text ++ rest)))
        (front ++ 123 :: (text ++ rest)) =
      .ok ((fields, before.count 10 + front.count 10 + 1), rest) := by
  have stops : Stops (123 :: (text ++ rest)) :=
    stops_cons (by decide) (by decide) (by decide) _
  have opened : ∀ whole, expect whole [123] (123 :: (text ++ rest)) = .ok (text ++ rest) :=
    fun whole => expect_found whole .nil (by decide) (by decide) (by decide) _
  have start : newlines (before ++ (front ++ 123 :: (text ++ rest))) (123 :: (text ++ rest)) =
      before.count 10 + front.count 10 := by
    rw [← List.append_assoc, newlines_append, List.count_append]
  have read : ∀ whole, fieldLoop letters whole ((text ++ rest).length + 1) [] (text ++ rest) =
      .ok (fields, rest) := by
    intro whole
    have short := rendered.length
    refine fieldLoop_rendered whole rendered ?_ [] distinct rest
    rw [List.length_append]
    omega
  rw [parseRecord, skipIgnored_ignored _ one, skipIgnored_stops _ stops, except_ok_bind, opened,
    except_ok_bind, read, except_ok_bind, start]
  rfl

theorem RenderedRecords.length {before : ℕ} {records : List (Record × ℕ)} {text : Str}
    (rendered : RenderedRecords letters before records text) : records.length < text.length := by
  induction rendered with
  | close => simp
  | last => 
      simp
      omega
  | comma distinct rendered one two more induction =>
      simp
      omega

theorem recordLoop_close (letters : Letters) (whole : Str) (ignored : Ignored gap)
    (rounds : ℕ) (rest : Str) :
    recordLoop letters whole (rounds + 1) (gap ++ 93 :: rest) = .ok ([], rest) := by
  have stops : Stops (93 :: rest) := stops_cons (by decide) (by decide) (by decide) _
  have found : accept whole [93] (93 :: rest) = .ok (true, rest) :=
    accept_found whole .nil (by decide) (by decide) (by decide) _
  rw [recordLoop, skipIgnored_ignored whole ignored, skipIgnored_stops whole stops, except_ok_bind,
    found, except_ok_bind]
  rfl

/-- One round of the loop of `parse` over a record. -/
theorem recordLoop_record (before : Str) {front text : Str}
    (one : Ignored front) (distinct : (fields.map Prod.fst).Nodup)
    (rendered : RenderedFields letters fields text) (rounds : ℕ) {whole rest : Str}
    (position : whole = before ++ (front ++ 123 :: (text ++ rest))) :
    recordLoop letters whole (rounds + 1) (front ++ 123 :: (text ++ rest)) = (do
      let rest ← skipIgnored whole rest
      let (comma, rest) ← accept whole [44] rest
      raiseIf (!comma && rest.head? != some 93)
        (fail whole rest (lit "expected ',' or ']' after record"))
      let (entries, rest) ← recordLoop letters whole rounds rest
      return ((fields, before.count 10 + front.count 10 + 1) :: entries, rest)) := by
  have stops : Stops (123 :: (text ++ rest)) :=
    stops_cons (by decide) (by decide) (by decide) _
  have notClosed : ¬[93] <+: 123 :: (text ++ rest) := by simp
  have parsed := parseRecord_rendered (before ++ front) .nil distinct
    rendered rest
  rw [List.nil_append, List.append_assoc, ← position, List.count_append, List.count_nil,
    Nat.add_zero] at parsed
  rw [recordLoop, skipIgnored_ignored whole one, skipIgnored_stops whole stops, except_ok_bind,
    accept_other whole stops notClosed, except_ok_bind]
  dsimp only
  rw [if_neg Bool.false_ne_true, parsed, except_ok_bind]

theorem recordLoop_rendered {records : List (Record × ℕ)} {lines : ℕ} {text : Str}
    (rendered : RenderedRecords letters lines records text) {before whole rest : Str}
    (position : whole = before ++ (text ++ rest)) (counted : before.count 10 = lines) {rounds : ℕ}
    (enough : records.length < rounds) :
    recordLoop letters whole rounds (text ++ rest) = .ok (records, rest) := by
  induction rendered generalizing before rounds with
  | close ignored =>
      cases rounds with
      | zero => cases enough
      | succ rounds =>
          rw [List.append_assoc, List.singleton_append]
          exact recordLoop_close letters whole ignored rounds rest
  | @last lines fields text front back distinct rendered one two =>
      cases rounds with
      | zero => cases enough
      | succ rounds =>
          cases rounds with
          | zero => simp at enough
          | succ rounds =>
              have stops : Stops (93 :: rest) :=
                stops_cons (by decide) (by decide) (by decide) _
              have noComma : accept whole [44] (93 :: rest) = .ok (false, 93 :: rest) :=
                accept_other whole stops (by simp)
              have closed := recordLoop_close letters whole .nil rounds rest
              rw [List.nil_append] at closed
              simp only [List.append_assoc, List.cons_append, List.nil_append] at position ⊢
              rw [recordLoop_record before one distinct rendered _ position,
                skipIgnored_ignored whole two, skipIgnored_stops whole stops, except_ok_bind,
                noComma, except_ok_bind, ← counted]
              have passed : ∀ error, raiseIf (!false && (93 :: rest).head? != some 93) error =
                  .ok () := fun error => rfl
              dsimp only
              rw [passed, except_ok_bind, closed, except_ok_bind]
              rfl
  | @comma lines fields records text front back more distinct rendered one two others induction =>
      cases rounds with
      | zero => cases enough
      | succ rounds =>
          have stops : Stops (44 :: (more ++ rest)) :=
            stops_cons (by decide) (by decide) (by decide) _
          have found : accept whole [44] (44 :: (more ++ rest)) = .ok (true, more ++ rest) :=
            accept_found whole .nil (by decide) (by decide) (by decide) _
          simp only [List.append_assoc, List.cons_append] at position ⊢
          have behind := @induction (before ++ (front ++ 123 :: (text ++ (back ++ [44]))))
            (by simpa using position) (by simp [counted]; omega) rounds
            (Nat.lt_of_succ_lt_succ enough)
          have passed : ∀ error, raiseIf (!true && (more ++ rest).head? != some 93) error =
              .ok () := fun error => rfl
          rw [recordLoop_record before one distinct rendered _ position,
            skipIgnored_ignored whole two, skipIgnored_stops whole stops, except_ok_bind,
            found, except_ok_bind, ← counted]
          dsimp only
          rw [passed, except_ok_bind, behind, except_ok_bind]
          rfl

/-- Every text of a list of records is read back, with the lines of the records. -/
theorem parse_rendered {records : List (Record × ℕ)} {text : Str}
    (rendered : Rendered letters records text) : parse letters text = .ok records := by
  obtain ⟨one, rendered, two⟩ := rendered
  rename_i front text back
  have opened : ∀ whole, expect whole [91] (front ++ 91 :: (text ++ back)) = .ok (text ++ back) :=
    fun whole => expect_found whole one (by decide) (by decide) (by decide) _
  have short := rendered.length
  have position : front ++ 91 :: (text ++ back) = front ++ [91] ++ (text ++ back) := by simp
  have read := @recordLoop_rendered _ _ _ _ rendered _ _ _ position (by simp)
    ((text ++ back).length + 1) (by rw [List.length_append]; omega)
  rw [parse, opened, except_ok_bind, read, except_ok_bind]
  dsimp only
  rw [skipIgnored_atEnd _ two, except_ok_bind]
  rfl

end CatalogDataParser

end Build
end Postgamma
