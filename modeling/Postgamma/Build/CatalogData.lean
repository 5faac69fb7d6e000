import Mathlib
import Postgamma.Library.Program
import Postgamma.Python.Codec

/-!
# The parameter catalog of PostgreSQL

The parser of `generate_guc_catalog.py` for `guc_parameters.dat`, a list of records in the data
syntax of Perl. A position in the text is the rest of the text. The two loops are given a number
of rounds, which is enough for every text.
-/

namespace Postgamma
namespace Build

open Python (Str lit isSpace)

/-- What `str.isalpha` and `str.isalnum` say of a character outside ASCII that is no blank. -/
structure Letters where
  isAlpha : ℕ → Bool
  isAlnum : ℕ → Bool

namespace Letters

def asciiAlpha (point : ℕ) : Bool := (65 ≤ point && point ≤ 90) || (97 ≤ point && point ≤ 122)

/-- `character.isalpha() or character == "_"`. -/
def starts (letters : Letters) (point : ℕ) : Bool :=
  if point < 128 then asciiAlpha point || point == 95
  else !isSpace point && letters.isAlpha point

/-- `character.isalnum() or character == "_"`. -/
def goesOn (letters : Letters) (point : ℕ) : Bool :=
  if point < 128 then asciiAlpha point || (48 ≤ point && point ≤ 57) || point == 95
  else !isSpace point && letters.isAlnum point

end Letters

/-- `CatalogDataError`, without the name of the source. -/
structure DataError where
  line : ℕ
  column : ℕ
  message : Str
  deriving DecidableEq

/-- Why the parser stops. -/
inductive CatalogError
  | data (error : DataError)
  /-- A loop was cut off. -/
  | exhausted
  deriving DecidableEq

/-- `if condition: raise error`. -/
def raiseIf (condition : Bool) (error : CatalogError) : Except CatalogError Unit :=
  if condition then .error error else .ok ()

namespace CatalogDataParser

/-- `text.count("\n", 0, offset)` in front of the rest. -/
def newlines (text rest : Str) : ℕ := (text.take (text.length - rest.length)).count 10

/-- `fail`, with the line and the column of `location`. -/
def fail (text rest : Str) (message : Str) : CatalogError :=
  .data
    { line := newlines text rest + 1
      column := ((text.take (text.length - rest.length)).reverse.takeWhile (· ≠ 10)).length + 1
      message := message }

/-- The text behind the next newline. -/
def afterNewline (text : Str) : Str := (text.dropWhile (· ≠ 10)).tail

/-- The text behind the next end of a block comment. -/
def afterBlock : Str → Option Str
  | [] => none
  | character :: text =>
      if character = 42 ∧ text.head? = some 47 then some text.tail else afterBlock text

theorem afterNewline_le (text : Str) : (afterNewline text).length ≤ text.length := by
  have shorter : (text.dropWhile (· ≠ 10)).length ≤ text.length :=
    (List.dropWhile_suffix _).length_le
  rw [afterNewline, List.length_tail]
  omega

theorem afterBlock_le {text rest : Str} (found : afterBlock text = some rest) :
    rest.length ≤ text.length := by
  induction text with
  | nil => cases found
  | cons character text induction =>
      rw [afterBlock] at found
      split_ifs at found
      · rw [← Option.some.inj found, List.length_tail, List.length_cons]
        omega
      · exact (induction found).trans (Nat.le_succ _)

def skipIgnored (whole : Str) (text : Str) : Except CatalogError Str :=
  match text with
  | [] => .ok []
  | character :: rest =>
      if isSpace character then skipIgnored whole rest
      else if character = 35 then skipIgnored whole (afterNewline rest)
      else if character = 47 ∧ rest.head? = some 42 then
        match _found : afterBlock rest.tail with
        | none => .error (fail whole (character :: rest) (lit "unterminated block comment"))
        | some behind => skipIgnored whole behind
      else .ok (character :: rest)
termination_by text.length
decreasing_by
  · exact Nat.lt_succ_self _
  · exact Nat.lt_succ_of_le (afterNewline_le rest)
  · have shorter := afterBlock_le _found
    rw [List.length_tail] at shorter
    rw [List.length_cons]
    omega

def accept (whole : Str) (token : Str) (text : Str) : Except CatalogError (Bool × Str) := do
  let text ← skipIgnored whole text
  if token.isPrefixOf text then return (true, text.drop token.length) else return (false, text)

/-- `expect`; the message holds the `repr` of the token. -/
def expect (whole : Str) (token : Str) (text : Str) : Except CatalogError Str := do
  let (accepted, text) ← accept whole token text
  if accepted then return text
  else .error (fail whole text (lit "expected '" ++ token ++ lit "'"))

def parseIdentifier (letters : Letters) (whole : Str) (text : Str) :
    Except CatalogError (Str × Str) := do
  match ← skipIgnored whole text with
  | [] => .error (fail whole [] (lit "expected field name"))
  | character :: rest =>
      if letters.starts character then
        return (character :: rest.takeWhile letters.goesOn, rest.dropWhile letters.goesOn)
      else .error (fail whole (character :: rest) (lit "expected field name"))

/-- The loop of `parse_single_quoted_string`; the errors name the start of the string. -/
def quotedLoop (whole start : Str) : Str → Except CatalogError (Str × Str)
  | [] => .error (fail whole start (lit "unterminated single-quoted string"))
  | character :: text =>
      if character = 39 then .ok ([], text)
      else if character ≠ 92 then
        (quotedLoop whole start text).map fun read => (character :: read.1, read.2)
      else
        match text with
        | [] => .error (fail whole start (lit "unterminated escape in single-quoted string"))
        | escaped :: text =>
            if escaped = 92 ∨ escaped = 39 then
              (quotedLoop whole start text).map fun read => (escaped :: read.1, read.2)
            else
              (quotedLoop whole start text).map fun read => (92 :: escaped :: read.1, read.2)

/-- `parse_single_quoted_string`. -/
def parseString (whole : Str) (text : Str) : Except CatalogError (Str × Str) := do
  let start ← skipIgnored whole text
  let (accepted, text) ← accept whole [39] start
  if accepted then quotedLoop whole start text
  else .error (fail whole start (lit "expected a single-quoted string"))

/-- A `dict` in the order of its insertions. -/
abbrev Record := List (Str × Str)

/-- The loop of `parse_record`. -/
def fieldLoop (letters : Letters) (whole : Str) :
    ℕ → Record → Str → Except CatalogError (Record × Str)
  | 0, _, _ => .error .exhausted
  | rounds + 1, fields, text => do
      let text ← skipIgnored whole text
      let (closed, text) ← accept whole [125] text
      if closed then return (fields, text)
      let (field, rest) ← parseIdentifier letters whole text
      raiseIf (field ∈ fields.map Prod.fst) (fail whole text (lit "duplicate field " ++ field))
      let rest ← expect whole [61, 62] rest
      let (value, rest) ← parseString whole rest
      let rest ← skipIgnored whole rest
      let (comma, rest) ← accept whole [44] rest
      raiseIf (!comma && rest.head? != some 125)
        (fail whole rest (lit "expected ',' or '\x7d' after field value"))
      fieldLoop letters whole rounds (fields ++ [(field, value)]) rest

def parseRecord (letters : Letters) (whole : Str) (text : Str) :
    Except CatalogError ((Record × ℕ) × Str) := do
  let start ← skipIgnored whole text
  let text ← expect whole [123] start
  let (fields, text) ← fieldLoop letters whole (text.length + 1) [] text
  return ((fields, newlines whole start + 1), text)

/-- The loop of `parse`. -/
def recordLoop (letters : Letters) (whole : Str) :
    ℕ → Str → Except CatalogError (List (Record × ℕ) × Str)
  | 0, _ => .error .exhausted
  | rounds + 1, text => do
      let text ← skipIgnored whole text
      let (closed, text) ← accept whole [93] text
      if closed then return ([], text)
      let (entry, rest) ← parseRecord letters whole text
      let rest ← skipIgnored whole rest
      let (comma, rest) ← accept whole [44] rest
      raiseIf (!comma && rest.head? != some 93)
        (fail whole rest (lit "expected ',' or ']' after record"))
      let (entries, rest) ← recordLoop letters whole rounds rest
      return (entry :: entries, rest)

def parse (letters : Letters) (text : Str) : Except CatalogError (List (Record × ℕ)) := do
  let rest ← expect text [91] text
  let (entries, rest) ← recordLoop letters text (rest.length + 1) rest
  let rest ← skipIgnored text rest
  raiseIf (rest ≠ []) (fail text rest (lit "unexpected content after top-level array"))
  return entries

@[simp]
theorem skipIgnored_nil (whole : Str) : skipIgnored whole [] = .ok [] := by
  rw [skipIgnored]

theorem skipIgnored_space (whole : Str) {character : ℕ} (blank : isSpace character = true)
    (rest : Str) : skipIgnored whole (character :: rest) = skipIgnored whole rest := by
  rw [skipIgnored, if_pos blank]

theorem skipIgnored_line (whole rest : Str) :
    skipIgnored whole (35 :: rest) = skipIgnored whole (afterNewline rest) := by
  rw [skipIgnored, if_neg (by decide), if_pos rfl]

theorem skipIgnored_block (whole : Str) {rest behind : Str}
    (found : afterBlock rest = some behind) :
    skipIgnored whole (47 :: 42 :: rest) = skipIgnored whole behind := by
  rw [skipIgnored, if_neg (by decide), if_neg (by decide), if_pos ⟨rfl, rfl⟩]
  split
  · rename_i missing
    rw [List.tail_cons, found] at missing
    cases missing
  · rename_i other same
    rw [List.tail_cons, found] at same
    rw [Option.some.inj same]

theorem skipIgnored_open (whole : Str) {rest : Str} (missing : afterBlock rest = none) :
    skipIgnored whole (47 :: 42 :: rest) =
      .error (fail whole (47 :: 42 :: rest) (lit "unterminated block comment")) := by
  rw [skipIgnored, if_neg (by decide), if_neg (by decide), if_pos ⟨rfl, rfl⟩]
  split
  · rfl
  · rename_i other found
    rw [List.tail_cons, missing] at found
    cases found

/-- A text at which the parser does not ignore anything more. -/
def Stops (text : Str) : Prop :=
  ∀ character rest, text = character :: rest →
    isSpace character = false ∧ character ≠ 35 ∧ ¬(character = 47 ∧ rest.head? = some 42)

theorem skipIgnored_stops (whole : Str) {text : Str} (stops : Stops text) :
    skipIgnored whole text = .ok text := by
  cases text with
  | nil => exact skipIgnored_nil whole
  | cons character rest =>
      obtain ⟨ink, line, block⟩ := stops character rest rfl
      rw [skipIgnored, if_neg (by rw [ink]; exact Bool.false_ne_true), if_neg line, if_neg block]

/-- A step is not cut off, and what it leaves has at most a given size. -/
def Within {α : Type} (size : α → ℕ) (bound : ℕ) : Except CatalogError α → Prop
  | .ok value => size value ≤ bound
  | .error error => error ≠ .exhausted

theorem Within.bind {α β : Type} {size : α → ℕ} {after : β → ℕ} {bound most : ℕ}
    {first : Except CatalogError α} {next : α → Except CatalogError β}
    (head : Within size bound first)
    (tail : ∀ value, size value ≤ bound → Within after most (next value)) :
    Within after most (first >>= next) := by
  cases first with
  | error error => exact head
  | ok value => exact tail value head

theorem Within.map {α β : Type} {size : α → ℕ} {after : β → ℕ} {bound most : ℕ}
    {result : Except CatalogError α} {change : α → β} (within : Within size bound result)
    (grown : ∀ value, size value ≤ bound → after (change value) ≤ most) :
    Within after most (result.map change) := by
  cases result with
  | error error => exact within
  | ok value => exact grown value within

theorem Within.mono {α : Type} {size : α → ℕ} {bound most : ℕ} {result : Except CatalogError α}
    (within : Within size bound result) (larger : bound ≤ most) : Within size most result := by
  cases result with
  | error error => exact within
  | ok value => exact le_trans (show size value ≤ bound from within) larger

theorem raiseIf_within (condition : Bool) (text rest message : Str) :
    Within (fun _ => 0) 0 (raiseIf condition (fail text rest message)) := by
  rw [raiseIf]
  split_ifs
  · exact fun same => by cases same
  · exact le_rfl

theorem fail_within {α : Type} (size : α → ℕ) (bound : ℕ) (text rest message : Str) :
    Within size bound (.error (fail text rest message) : Except CatalogError α) :=
  fun same => by cases same

theorem skipIgnored_within (whole text : Str) :
    Within List.length text.length (skipIgnored whole text) := by
  induction text using skipIgnored.induct with
  | case1 =>
      rw [skipIgnored_nil]
      exact le_rfl
  | case2 character rest blank induction =>
      rw [skipIgnored_space whole blank]
      exact induction.mono (Nat.le_succ _)
  | case3 rest _ induction =>
      rw [skipIgnored_line]
      exact induction.mono ((afterNewline_le rest).trans (Nat.le_succ _))
  | case4 character rest _ _ block missing =>
      obtain ⟨rfl, star⟩ := block
      obtain ⟨rest, rfl⟩ := List.head?_eq_some_iff.mp star
      rw [List.tail_cons] at missing
      rw [skipIgnored_open whole missing]
      exact fail_within _ _ _ _ _
  | case5 character rest _ _ block behind found induction =>
      obtain ⟨rfl, star⟩ := block
      obtain ⟨rest, rfl⟩ := List.head?_eq_some_iff.mp star
      rw [List.tail_cons] at found
      rw [skipIgnored_block whole found]
      exact induction.mono ((afterBlock_le found).trans (by simp; omega))
  | case6 character rest ink line block =>
      rw [skipIgnored, if_neg ink, if_neg line, if_neg block]
      exact le_rfl

theorem accept_within (whole token text : Str) :
    Within (fun read : Bool × Str => read.2.length + if read.1 then token.length else 0)
      text.length (accept whole token text) := by
  refine (skipIgnored_within whole text).bind fun rest shorter => ?_
  split_ifs with found
  · obtain ⟨behind, rfl⟩ := List.isPrefixOf_iff_prefix.mp found
    show (List.drop token.length (token ++ behind)).length + token.length ≤ text.length
    rw [List.drop_left]
    rwa [List.length_append, Nat.add_comm] at shorter
  · exact shorter

theorem expect_within (whole token text : Str) :
    Within (fun rest => rest.length + token.length) text.length (expect whole token text) := by
  refine (accept_within whole token text).bind fun read shorter => ?_
  obtain ⟨accepted, rest⟩ := read
  cases accepted with
  | false => exact fail_within _ _ _ _ _
  | true => exact shorter

theorem parseIdentifier_within (letters : Letters) (whole text : Str) :
    Within (fun read : Str × Str => read.2.length + 1) text.length
      (parseIdentifier letters whole text) := by
  refine (skipIgnored_within whole text).bind fun rest shorter => ?_
  cases rest with
  | nil => exact fail_within _ _ _ _ _
  | cons character rest =>
      dsimp only
      split_ifs
      · refine le_trans (Nat.succ_le_succ ?_) shorter
        exact (List.dropWhile_suffix _).length_le
      · exact fail_within _ _ _ _ _

theorem quotedLoop_within (whole start text : Str) :
    Within (fun read : Str × Str => read.2.length) text.length (quotedLoop whole start text) := by
  fun_induction quotedLoop whole start text with
  | case1 => exact fail_within _ _ _ _ _
  | case2 text => exact Nat.le_succ _
  | case3 character text _ _ induction =>
      exact induction.map fun read shorter => shorter.trans (Nat.le_succ _)
  | case4 => exact fail_within _ _ _ _ _
  | case5 _ _ _ escaped text _ induction =>
      exact induction.map fun read shorter => shorter.trans (by simp; omega)
  | case6 _ _ _ escaped text _ induction =>
      exact induction.map fun read shorter => shorter.trans (by simp; omega)

theorem parseString_within (whole text : Str) :
    Within (fun read : Str × Str => read.2.length) text.length (parseString whole text) := by
  refine (skipIgnored_within whole text).bind fun start shorter => ?_
  refine (accept_within whole [39] start).bind fun read rest => ?_
  obtain ⟨accepted, behind⟩ := read
  cases accepted with
  | false => exact fail_within _ _ _ _ _
  | true =>
      refine (quotedLoop_within whole start behind).mono ?_
      exact (Nat.le_add_right _ _).trans (rest.trans shorter)

theorem fieldLoop_within (letters : Letters) (whole : Str) {rounds : ℕ} {text : Str}
    (enough : text.length < rounds) (fields : Record) :
    Within (fun read : Record × Str => read.2.length) text.length
      (fieldLoop letters whole rounds fields text) := by
  induction rounds generalizing fields text with
  | zero => omega
  | succ rounds induction =>
      rw [fieldLoop]
      refine (skipIgnored_within whole text).bind fun first shorter => ?_
      refine (accept_within whole [125] first).bind fun ⟨closed, second⟩ shorterStill => ?_
      dsimp only at shorterStill ⊢
      have bound : second.length ≤ text.length :=
        (Nat.le_add_right _ _).trans (shorterStill.trans shorter)
      split_ifs
      · exact bound
      refine (parseIdentifier_within letters whole second).bind fun ⟨field, third⟩ named => ?_
      refine (raiseIf_within _ _ _ _).bind fun _ _ => ?_
      refine (expect_within whole [61, 62] third).bind fun fourth arrow => ?_
      refine (parseString_within whole fourth).bind fun ⟨value, fifth⟩ quoted => ?_
      refine (skipIgnored_within whole fifth).bind fun sixth gap => ?_
      refine (accept_within whole [44] sixth).bind fun ⟨comma, seventh⟩ ended => ?_
      refine (raiseIf_within _ _ _ _).bind fun _ _ => ?_
      dsimp only at named quoted ended
      have rest : seventh.length < text.length := by
        have := Nat.le_add_right seventh.length (if comma = true then [44].length else 0)
        omega
      exact (@induction seventh (by omega) (fields ++ [(field, value)])).mono rest.le

theorem parseRecord_within (letters : Letters) (whole text : Str) :
    Within (fun read : (Record × ℕ) × Str => read.2.length + 1) text.length
      (parseRecord letters whole text) := by
  refine (skipIgnored_within whole text).bind fun start shorter => ?_
  refine (expect_within whole [123] start).bind fun rest opened => ?_
  refine (fieldLoop_within letters whole (Nat.lt_succ_self rest.length) []).bind
    fun ⟨fields, behind⟩ closed => ?_
  exact (Nat.succ_le_succ closed).trans (opened.trans shorter)

theorem recordLoop_within (letters : Letters) (whole : Str) {rounds : ℕ} {text : Str}
    (enough : text.length < rounds) :
    Within (fun read : List (Record × ℕ) × Str => read.2.length) text.length
      (recordLoop letters whole rounds text) := by
  induction rounds generalizing text with
  | zero => omega
  | succ rounds induction =>
      rw [recordLoop]
      refine (skipIgnored_within whole text).bind fun first shorter => ?_
      refine (accept_within whole [93] first).bind fun ⟨closed, second⟩ shorterStill => ?_
      dsimp only at shorterStill ⊢
      have bound : second.length ≤ text.length :=
        (Nat.le_add_right _ _).trans (shorterStill.trans shorter)
      split_ifs
      · exact bound
      refine (parseRecord_within letters whole second).bind fun ⟨entry, third⟩ parsed => ?_
      refine (skipIgnored_within whole third).bind fun fourth gap => ?_
      refine (accept_within whole [44] fourth).bind fun ⟨comma, fifth⟩ ended => ?_
      refine (raiseIf_within _ _ _ _).bind fun _ _ => ?_
      dsimp only at parsed ended
      have rest : fifth.length < text.length := by
        have := Nat.le_add_right fifth.length (if comma = true then [44].length else 0)
        omega
      refine (@induction fifth (by omega)).bind fun ⟨entries, sixth⟩ others => ?_
      exact others.trans rest.le

/-- The rounds that the loops start with are enough for every text. -/
theorem parse_ends (letters : Letters) (text : Str) : parse letters text ≠ .error .exhausted := by
  have within : Within (fun _ => 0) 0 (parse letters text) := by
    refine (expect_within text [91] text).bind fun rest _ => ?_
    refine (recordLoop_within letters text (Nat.lt_succ_self rest.length)).bind
      fun ⟨entries, behind⟩ _ => ?_
    refine (skipIgnored_within text behind).bind fun last _ => ?_
    exact (raiseIf_within _ _ _ _).bind fun _ _ => le_rfl
  intro same
  rw [same] at within
  exact within rfl

end CatalogDataParser

end Build
end Postgamma
