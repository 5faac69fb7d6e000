import Mathlib
import Postgamma.Wasm.CodecValues

/-!
# Codecs for arrays

`shape`, `parseArray` and the array branches of `Codecs.parameter` and `Codecs.value`.  An array is
read back from its text with its values, dimensions and lower bounds.
-/

namespace Postgamma.Wasm

open Text (Utf16)
open Json (SafeInt ascii)

variable {ν κ : Type}

def arrayTypes : List (ℕ × ℕ) :=
  [(1000, 16), (1001, 17), (1016, 20), (1005, 21), (1007, 23), (1009, 25), (1028, 26), (1021, 700),
    (1022, 701), (1014, 1042), (1015, 1043), (199, 114), (3807, 3802), (1182, 1082), (1183, 1083),
    (1115, 1114), (1185, 1184), (1231, 1700), (2951, 2950)]

def elementType (oid : ℕ) : Option ℕ := arrayTypes.lookup oid

def JSValue.isArray : JSValue ν κ → Bool
  | array _ => true
  | _ => false

/-- The error of arrays that are not rectangular. -/
def notRectangular : CodecError := .type "Array dimensions must be rectangular"

mutual

def shape (depth : ℕ) : List (JSValue ν κ) → Except CodecError (List ℕ)
  | [] => if 6 ≤ depth then .error (.type "PostgreSQL arrays have at most six dimensions") else .ok [0]
  | .array items :: rest =>
      if 6 ≤ depth then .error (.type "PostgreSQL arrays have at most six dimensions")
      else if rest.any fun value => !value.isArray then .error notRectangular
      else do
        let child ← shape (depth + 1) items
        sameShapes (depth + 1) child rest
        return (rest.length + 1) :: child
  | _ :: rest =>
      if 6 ≤ depth then .error (.type "PostgreSQL arrays have at most six dimensions")
      else if rest.any JSValue.isArray then .error notRectangular
      else .ok [rest.length + 1]

/-- Every array of a list has a shape. -/
def sameShapes (depth : ℕ) (child : List ℕ) : List (JSValue ν κ) → Except CodecError Unit
  | [] => .ok ()
  | .array items :: rest => do
      if (← shape depth items) ≠ child then throw notRectangular
      sameShapes depth child rest
  | _ :: rest => sameShapes depth child rest

end

/-- The dimensions that `parameter` and `parseArray` find. -/
def dimensionsOf (values : List (JSValue ν κ)) : Except CodecError (List ℕ) :=
  if values.isEmpty then .ok [] else shape 0 values

/-- `ArrayValue`. -/
structure ArrayValue (ν κ : Type) where
  values : List (JSValue ν κ)
  lowerBounds : List ℤ
  dimensions : List ℕ

/-- The text of a quoted value behind its quotation mark, and what follows it. -/
def quotedValue : Utf16 → Except CodecError (Utf16 × Utf16)
  | [] => .error (.type "Unterminated array value")
  | unit :: rest =>
      if unit = 0x22 then .ok ([], rest)
      else if unit = 0x5C then
        match rest with
        | [] => .error (.type "Invalid array escape")
        | escaped :: rest => (quotedValue rest).map fun read => (escaped :: read.1, read.2)
      else (quotedValue rest).map fun read => (unit :: read.1, read.2)

/-- The text of a value without quotation marks, whether it has an escape, and what follows it. -/
def unquotedValue : Utf16 → Except CodecError (Utf16 × Bool × Utf16)
  | [] => .ok ([], false, [])
  | unit :: rest =>
      if unit = 0x2C ∨ unit = 0x7D then .ok ([], false, unit :: rest)
      else if unit = 0x5C then
        match rest with
        | [] => .error (.type "Invalid array escape")
        | escaped :: rest => (unquotedValue rest).map fun read => (escaped :: read.1, true, read.2.2)
      else (unquotedValue rest).map fun read => (unit :: read.1, read.2.1, read.2.2)

section Parse

variable (element : Utf16 → Except CodecError (JSValue ν κ))

/-- A value that is no array. -/
def parseElement : Utf16 → Except CodecError (JSValue ν κ × Utf16)
  | 0x22 :: rest => do
      let (text, rest) ← quotedValue rest
      return (← element text, rest)
  | text => do
      let (text, escaped, rest) ← unquotedValue text
      if text = [] then throw (.type "Empty unquoted array value")
      if !escaped && text = ascii "NULL" then return (.null, rest)
      return (← element text, rest)

mutual

/-- `parse`, with a bound on the number of calls. -/
def parse : ℕ → ℕ → Utf16 → Except CodecError (List (JSValue ν κ) × Utf16)
  | 0, _, _ => .error (.type "Invalid array nesting")
  | fuel + 1, depth, text =>
      if 6 < depth then .error (.type "Invalid array nesting")
      else
        match text with
        | 0x7B :: 0x7D :: rest => .ok ([], rest)
        | 0x7B :: rest => parseValues fuel depth rest
        | _ => .error (.type "Invalid array nesting")

/-- The loop of `parse`. -/
def parseValues : ℕ → ℕ → Utf16 → Except CodecError (List (JSValue ν κ) × Utf16)
  | 0, _, _ => .error (.type "Invalid array nesting")
  | fuel + 1, depth, text => do
      let (value, rest) ←
        if text.head? = some 0x7B then
          (parse fuel (depth + 1) text).map fun read => (JSValue.array read.1, read.2)
        else parseElement element text
      match rest with
      | 0x7D :: rest => return ([value], rest)
      | 0x2C :: rest =>
          let (values, rest) ← parseValues fuel depth rest
          return (value :: values, rest)
      | _ => throw (.type "Invalid array separator")

end

/-- A run of digits and what follows it. -/
def parseDigits (text : Utf16) : Option (Utf16 × Utf16) :=
  match Json.takeDigits text with
  | ([], _) => none
  | (_, rest) => some (text.take (text.length - rest.length), rest)

/-- A bound of `[low:high]` and what follows it. -/
def parseBound : Utf16 → Option (Utf16 × Utf16)
  | 0x2D :: rest => (parseDigits rest).map fun read => (0x2D :: read.1, read.2)
  | text => parseDigits text

/-- One pair of bounds in front of an array. -/
def parseBounds (text : Utf16) : Except CodecError ((ℤ × ℤ) × Utf16) :=
  match parseBound text with
  | some (low, 0x3A :: rest) =>
      match parseBound rest with
      | some (high, 0x5D :: rest) => do
          let low ← integer (.string low : JSValue ν κ) (-2147483648) 2147483647
          let high ← integer (.string high : JSValue ν κ) (-2147483648) 2147483647
          return ((low, high - low + 1), rest)
      | _ => .error (.type "Invalid array bounds")
  | _ => .error (.type "Invalid array bounds")

/-- The lower bounds and sizes in front of an array, with a bound on the number of pairs. -/
def parsePrefix : ℕ → Utf16 → Except CodecError (List (ℤ × ℤ) × Utf16)
  | 0, _ => .error (.type "Invalid array bounds")
  | fuel + 1, 0x5B :: rest => do
      let (bounds, rest) ← parseBounds (ν := ν) (κ := κ) rest
      let (more, rest) ← parsePrefix fuel rest
      return (bounds :: more, rest)
  | _ + 1, text => .ok ([], text)

def parseArray (source : Utf16) : Except CodecError (ArrayValue ν κ) := do
  let (declared, text) ← parsePrefix (ν := ν) (κ := κ) (source.length + 1) source
  let text ←
    if declared = [] then .ok text
    else
      match text with
      | 0x3D :: rest => .ok rest
      | _ => .error (.type "Invalid array bounds separator")
  let (values, rest) ← parse element (2 * text.length + 2) 1 text
  let dimensions ← dimensionsOf values
  if rest ≠ [] ∨ declared ≠ [] ∧ declared.map Prod.snd ≠ dimensions.map Int.ofNat then
    throw (.type "Array bounds do not match its values")
  return ⟨values,
    if declared = [] then dimensions.map fun _ => 1 else declared.map Prod.fst, dimensions⟩

end Parse

/-- A text between quotation marks, with its quotation marks and escapes escaped. -/
def quoteElement (text : Utf16) : Utf16 :=
  0x22 :: (text.flatMap fun unit =>
    if unit = 0x22 ∨ unit = 0x5C then [0x5C, unit] else [unit]) ++ [0x22]

/-- Texts between braces. -/
def braced (texts : List Utf16) : Utf16 := 0x7B :: ([0x2C].intercalate texts ++ [0x7D])

/-- `Number.isSafeInteger`, with the integer. -/
def JSNumber.integer? : JSNumber ν → Option ℤ
  | safe number => some number
  | negativeZero => some 0
  | other _ => none

/-- A value that has been decoded. -/
inductive DecodedValue (ν κ : Type)
  | single (value : JSValue ν κ)
  | array (value : ArrayValue ν κ)

namespace Codecs

variable (codecs : Codecs ν κ)

mutual

def itemText (element : ℕ) : JSValue ν κ → Except CodecError Utf16
  | .array items => (itemTexts element items).map braced
  | .null => .ok (ascii "NULL")
  | value => (codecs.elementText element value).map quoteElement

def itemTexts (element : ℕ) : List (JSValue ν κ) → Except CodecError (List Utf16)
  | [] => .ok []
  | item :: rest => do
      let text ← itemText element item
      return text :: (← itemTexts element rest)

end

def boundsText (low : ℤ) (size : ℕ) : Except CodecError Utf16 := do
  let _ ← integer (.bigint low : JSValue ν κ) (-2147483648) 2147483647
  let high ← integer (.bigint (low + size - 1) : JSValue ν κ) (-2147483648) 2147483647
  return 0x5B :: (Json.integer low ++ 0x3A :: (Json.integer high ++ [0x5D]))

def boundsTexts : List ℤ → List ℕ → Except CodecError Utf16
  | low :: lows, size :: sizes => do
      let text ← boundsText (ν := ν) (κ := κ) low size
      return text ++ (← boundsTexts lows sizes)
  | _, _ => .ok []

/-- `parameter` of an array. -/
def arrayParameter (element : ℕ) (values : List (JSValue ν κ))
    (lowerBounds : Option (List (JSNumber ν))) : Except CodecError Utf16 := do
  let dimensions ← dimensionsOf values
  if 0 ∈ dimensions then
    throw (.type "Nested empty arrays have no PostgreSQL dimensions")
  match (lowerBounds.map fun bounds => bounds.mapM JSNumber.integer?).getD
      (some (dimensions.map fun _ => 1)) with
  | none => throw (.type "Array lower bounds must match its dimensions")
  | some bounds =>
      if bounds.length ≠ dimensions.length then
        throw (.type "Array lower bounds must match its dimensions")
      let head ←
        if bounds.any fun bound => bound ≠ 1 then
          (boundsTexts (ν := ν) (κ := κ) bounds dimensions).map (· ++ [0x3D])
        else .ok []
      return head ++ braced (← codecs.itemTexts element values)

def parameter (oid : ℕ) (value : JSValue ν κ) : Except CodecError (Option RawValue) :=
  if oid = 0 ∨ 0xFFFFFFFF < oid then .error (.type "Expected a positive type OID")
  else
    match value with
    | .null => .ok none
    | value =>
        match codecs.custom oid, elementType oid with
        | some ⟨_, some encode⟩, _ => (encode value).map some
        | _, some element =>
            match value with
            | .array values => (codecs.arrayParameter element values none).map (some ∘ .text)
            | .arrayValue values lowerBounds =>
                (codecs.arrayParameter element values lowerBounds).map (some ∘ .text)
            | _ => .error (.type "Expected an array or ArrayValue")
        | _, none => (codecs.scalarParameter oid value).map some

def value (oid : ℕ) (text : Utf16) : Except CodecError (DecodedValue ν κ) :=
  match codecs.custom oid, elementType oid with
  | some custom, _ => (custom.decode text).map .single
  | none, some element => (parseArray (codecs.elementValue element) text).map .array
  | none, none => (codecs.scalarValue oid text).map .single

end Codecs

/-- The items of an array with some dimensions and with elements of a kind. -/
def Rectangular (kind : JSValue ν κ → Prop) : List ℕ → List (JSValue ν κ) → Prop
  | [], _ => False
  | [size], items => items.length = size ∧ ∀ item ∈ items, item.isArray = false ∧ kind item
  | size :: inner :: sizes, items =>
      items.length = size ∧
        ∀ item ∈ items, ∃ values, item = .array values ∧ Rectangular kind (inner :: sizes) values

section Shape

variable {kind : JSValue ν κ → Prop}

theorem shape_flat {depth : ℕ} (shallow : depth < 6) {first : JSValue ν κ}
    {rest : List (JSValue ν κ)} (flat : ∀ item ∈ first :: rest, item.isArray = false) :
    shape depth (first :: rest) = .ok [rest.length + 1] := by
  have none : rest.any JSValue.isArray = false := by
    rw [List.any_eq_false]
    intro item member
    simp [flat item (List.mem_cons_of_mem first member)]
  have single := flat first List.mem_cons_self
  cases first with
  | array items => cases single
  | null | boolean | number | bigint | string | bytes | date | arrayValue | object =>
      rw [shape, if_neg (not_le.mpr shallow), none]
      · rfl
      · rintro items ⟨⟩

theorem sameShapes_ok {depth : ℕ} {child : List ℕ} {items : List (JSValue ν κ)}
    (shapes : ∀ item ∈ items, ∃ values, item = .array values ∧ shape depth values = .ok child) :
    sameShapes depth child items = .ok () := by
  induction items with
  | nil => rw [sameShapes]
  | cons item rest induction =>
      obtain ⟨values, rfl, same⟩ := shapes item List.mem_cons_self
      rw [sameShapes, same]
      simp only [bind, Except.bind, ne_eq, not_true_eq_false, if_false]
      exact induction fun other member => shapes other (List.mem_cons_of_mem _ member)

theorem shape_rectangular {dimensions : List ℕ} (positive : ∀ size ∈ dimensions, 0 < size)
    {depth : ℕ} (shallow : depth + dimensions.length ≤ 6) {items : List (JSValue ν κ)}
    (rectangular : Rectangular kind dimensions items) : shape depth items = .ok dimensions := by
  induction dimensions generalizing depth items with
  | nil => exact rectangular.elim
  | cons size sizes induction =>
      rw [List.length_cons] at shallow
      cases sizes with
      | nil =>
          obtain ⟨rfl, flat⟩ := rectangular
          obtain ⟨first, rest, rfl⟩ := List.exists_cons_of_length_pos (positive items.length (by simp))
          exact shape_flat (by omega) fun item member => (flat item member).1
      | cons inner sizes =>
          obtain ⟨rfl, nested⟩ := rectangular
          obtain ⟨first, rest, rfl⟩ := List.exists_cons_of_length_pos (positive items.length (by simp))
          have shapes : ∀ item ∈ first :: rest, ∃ values, item = .array values ∧
              shape (depth + 1) values = .ok (inner :: sizes) := by
            intro item member
            obtain ⟨values, rfl, rectangular⟩ := nested item member
            exact ⟨values, rfl, induction (fun size member => positive size (by simp [member]))
              (by omega) rectangular⟩
          obtain ⟨values, rfl, child⟩ := shapes first List.mem_cons_self
          have others : rest.any (fun value => !value.isArray) = false := by
            rw [List.any_eq_false]
            intro item member
            obtain ⟨values, rfl, -⟩ := shapes item (List.mem_cons_of_mem _ member)
            simp [JSValue.isArray]
          rw [shape, if_neg (by omega), others, child]
          simp only [Bool.false_eq_true, if_false, bind, Except.bind,
            sameShapes_ok fun item member => shapes item (List.mem_cons_of_mem _ member)]
          rfl

end Shape

section Elements

variable {element : Utf16 → Except CodecError (JSValue ν κ)}

/-- A text at the end of an item. -/
def Ends (text : Utf16) : Prop := ∃ rest, text = 0x2C :: rest ∨ text = 0x7D :: rest

theorem quotedValue_end (rest : Utf16) : quotedValue (0x22 :: rest) = .ok ([], rest) := by
  rw [quotedValue.eq_def]
  simp

theorem quotedValue_escape (unit : UInt16) (rest : Utf16) :
    quotedValue (0x5C :: unit :: rest) =
      (quotedValue rest).map fun read => (unit :: read.1, read.2) := by
  rw [quotedValue.eq_def]
  simp

theorem quotedValue_plain {unit : UInt16} (quotation : unit ≠ 0x22) (escape : unit ≠ 0x5C)
    (rest : Utf16) :
    quotedValue (unit :: rest) = (quotedValue rest).map fun read => (unit :: read.1, read.2) := by
  rw [quotedValue.eq_def]
  simp only [if_neg quotation, if_neg escape]

theorem quotedValue_escaped (text rest : Utf16) :
    quotedValue ((text.flatMap fun unit =>
      if unit = 0x22 ∨ unit = 0x5C then [0x5C, unit] else [unit]) ++ 0x22 :: rest) =
      .ok (text, rest) := by
  induction text with
  | nil => exact quotedValue_end rest
  | cons unit text induction =>
      rw [List.flatMap_cons, List.append_assoc]
      split_ifs with special
      · rw [List.cons_append, List.cons_append, List.nil_append, quotedValue_escape, induction]
        rfl
      · rw [not_or] at special
        rw [List.cons_append, List.nil_append, quotedValue_plain special.1 special.2, induction]
        rfl

variable {value : JSValue ν κ}

theorem parseElement_quoted {text : Utf16} (decoded : element text = .ok value)
    (rest : Utf16) : parseElement element (quoteElement text ++ rest) = .ok (value, rest) := by
  rw [quoteElement, List.cons_append, List.cons_append, List.append_assoc, List.singleton_append,
    parseElement, quotedValue_escaped]
  simp only [bind, Except.bind, decoded]
  rfl

theorem unquotedValue_ends {rest : Utf16} (ends : Ends rest) :
    unquotedValue rest = .ok ([], false, rest) := by
  obtain ⟨rest, rfl | rfl⟩ := ends
  · rw [unquotedValue.eq_def]
    simp
  · rw [unquotedValue.eq_def]
    simp

theorem unquotedValue_plain {unit : UInt16} (comma : unit ≠ 0x2C) (brace : unit ≠ 0x7D)
    (escape : unit ≠ 0x5C) (rest : Utf16) :
    unquotedValue (unit :: rest) =
      (unquotedValue rest).map fun read => (unit :: read.1, read.2.1, read.2.2) := by
  rw [unquotedValue.eq_def]
  simp only [if_neg (not_or.mpr ⟨comma, brace⟩), if_neg escape]

theorem parseElement_null {rest : Utf16} (ends : Ends rest) :
    parseElement element (ascii "NULL" ++ rest) = .ok (.null, rest) := by
  have word : unquotedValue (ascii "NULL" ++ rest) = .ok (ascii "NULL", false, rest) := by
    have letters : ascii "NULL" = [0x4E, 0x55, 0x4C, 0x4C] := rfl
    simp only [letters, List.cons_append, List.nil_append]
    rw [unquotedValue_plain (by decide) (by decide) (by decide),
      unquotedValue_plain (by decide) (by decide) (by decide),
      unquotedValue_plain (by decide) (by decide) (by decide),
      unquotedValue_plain (by decide) (by decide) (by decide), unquotedValue_ends ends]
    rfl
  rw [parseElement, word]
  · rfl
  · rintro other ⟨⟩

def ReadsItem (element : Utf16 → Except CodecError (JSValue ν κ)) (depth : ℕ) (item : JSValue ν κ)
    (text : Utf16) : Prop :=
  (∃ unit more, text = unit :: more ∧ unit ≠ 0x7D) ∧
    ∀ fuel rest, 2 * text.length ≤ fuel → Ends rest →
      (if (text ++ rest).head? = some 0x7B then
          (parse element fuel (depth + 1) (text ++ rest)).map
            fun read => (JSValue.array read.1, read.2)
        else parseElement element (text ++ rest)) = .ok (item, rest)

theorem reads_quoted {text : Utf16} (decoded : element text = .ok value)
    (depth : ℕ) : ReadsItem element depth value (quoteElement text) := by
  refine ⟨⟨0x22, _, rfl, by decide⟩, fun fuel rest _ _ => ?_⟩
  rw [if_neg]
  · exact parseElement_quoted decoded rest
  · simp [quoteElement]

theorem reads_null (depth : ℕ) : ReadsItem element depth .null (ascii "NULL") := by
  refine ⟨⟨0x4E, _, rfl, by decide⟩, fun fuel rest _ ends => ?_⟩
  rw [if_neg]
  · exact parseElement_null ends
  · simp [ascii]

/-- The loop at its last item. -/
theorem parseValues_last {fuel depth : ℕ} {text rest : Utf16}
    (read : (if text.head? = some 0x7B then
          (parse element fuel (depth + 1) text).map fun read => (JSValue.array read.1, read.2)
        else parseElement element text) = .ok (value, 0x7D :: rest)) :
    parseValues element (fuel + 1) depth text = .ok ([value], rest) := by
  rw [parseValues]
  split_ifs at read ⊢ <;> rw [read] <;> rfl

/-- The loop at an item behind which there are more. -/
theorem parseValues_more {fuel depth : ℕ} {text rest : Utf16}
    (read : (if text.head? = some 0x7B then
          (parse element fuel (depth + 1) text).map fun read => (JSValue.array read.1, read.2)
        else parseElement element text) = .ok (value, 0x2C :: rest)) :
    parseValues element (fuel + 1) depth text =
      (parseValues element fuel depth rest).map fun read => (value :: read.1, read.2) := by
  rw [parseValues]
  split_ifs at read ⊢ <;> rw [read] <;> rfl

/-- The loop reads the texts of items between commas. -/
theorem parseValues_items {depth : ℕ} {items : List (JSValue ν κ)} {texts : List Utf16}
    (reads : List.Forall₂ (ReadsItem element depth) items texts) (nonempty : texts ≠ []) (fuel : ℕ)
    (rest : Utf16) (enough : 2 * (([0x2C].intercalate texts).length + 1) ≤ fuel) :
    parseValues element fuel depth ([0x2C].intercalate texts ++ 0x7D :: rest) =
      .ok (items, rest) := by
  induction reads generalizing fuel with
  | nil => exact absurd rfl nonempty
  | @cons item text items texts first others induction =>
      obtain ⟨fuel, rfl⟩ : ∃ more, fuel = more + 1 := ⟨fuel - 1, by omega⟩
      cases others with
      | nil =>
          have read := first.2 fuel (0x7D :: rest)
          simp only [List.intercalate_singleton] at enough ⊢
          rw [parseValues_last (read (by omega) ⟨rest, .inr rfl⟩)]
      | @cons next other items texts second others =>
          rw [List.intercalate_cons_cons] at enough ⊢
          simp only [List.length_append, List.length_singleton] at enough
          rw [List.append_assoc, List.append_assoc, List.singleton_append]
          have read := first.2 fuel (0x2C :: ([0x2C].intercalate (other :: texts) ++ 0x7D :: rest))
          rw [parseValues_more (read (by omega) ⟨_, .inl rfl⟩),
            induction (by simp) fuel (by omega)]
          rfl

/-- An opening brace that no closing one follows. -/
theorem parse_open {fuel depth : ℕ} (shallow : depth ≤ 6) {unit : UInt16} (brace : unit ≠ 0x7D)
    (rest : Utf16) : parse element (fuel + 1) depth (0x7B :: unit :: rest) =
      parseValues element fuel depth (unit :: rest) := by
  rw [parse, if_neg (not_lt.mpr shallow)]
  rintro other ⟨⟩
  exact brace rfl

/-- An array is read from the texts of its items. -/
theorem parse_braced {depth : ℕ} (shallow : depth ≤ 6) {items : List (JSValue ν κ)}
    {texts : List Utf16} (reads : List.Forall₂ (ReadsItem element depth) items texts) (fuel : ℕ)
    (rest : Utf16) (enough : 2 * (braced texts).length ≤ fuel) :
    parse element fuel depth (braced texts ++ rest) = .ok (items, rest) := by
  have length : (braced texts).length = ([0x2C].intercalate texts).length + 2 := by
    simp [braced]
  obtain ⟨fuel, rfl⟩ : ∃ more, fuel = more + 1 := ⟨fuel - 1, by omega⟩
  cases reads with
  | nil => simp [braced, parse, not_lt.mpr shallow]
  | @cons item text items texts first others =>
      have looped := parseValues_items (.cons first others) (by simp) fuel rest (by omega)
      obtain ⟨unit, more, rfl, brace⟩ := first.1
      have head : ∃ tail, [0x2C].intercalate ((unit :: more) :: texts) = unit :: tail := by
        cases texts with
        | nil => exact ⟨more, by simp⟩
        | cons other texts => exact ⟨_, by rw [List.intercalate_cons_cons]; rfl⟩
      obtain ⟨tail, same⟩ := head
      rw [same] at looped
      rw [braced, same, List.cons_append, List.cons_append, List.cons_append, List.append_assoc,
        List.singleton_append, parse_open shallow brace]
      exact looped

theorem reads_array {depth : ℕ} (shallow : depth + 1 ≤ 6) {items : List (JSValue ν κ)}
    {texts : List Utf16} (reads : List.Forall₂ (ReadsItem element (depth + 1)) items texts) :
    ReadsItem element depth (.array items) (braced texts) := by
  refine ⟨⟨0x7B, _, rfl, by decide⟩, fun fuel rest enough _ => ?_⟩
  rw [if_pos, parse_braced shallow reads fuel rest enough]
  · rfl
  · simp [braced]

end Elements

namespace Codecs

variable {codecs : Codecs ν κ} {element : ℕ}

/-- An element that is null or that the codecs read back. -/
def Item (codecs : Codecs ν κ) (element : ℕ) (item : JSValue ν κ) : Prop :=
  item = .null ∨ codecs.Decoded element item

theorem itemText_single {item : JSValue ν κ} (null : item ≠ .null)
    (single : ∀ items, item ≠ .array items) :
    codecs.itemText element item = (codecs.elementText element item).map quoteElement := by
  cases item with
  | null => exact absurd rfl null
  | array items => exact absurd rfl (single items)
  | boolean | number | bigint | string | bytes | date | arrayValue | object =>
      rw [itemText] <;> simp

theorem itemText_reads (lawful : codecs.builtins.Lawful) {item : JSValue ν κ}
    (known : codecs.Item element item) (depth : ℕ) :
    ∃ text, codecs.itemText element item = .ok text ∧
      ReadsItem (codecs.elementValue element) depth item text := by
  rcases known with rfl | decoded
  · exact ⟨_, by rw [itemText], reads_null depth⟩
  · obtain ⟨text, written, read⟩ := element_round_trip lawful decoded
    obtain ⟨null, single⟩ := decoded.single
    refine ⟨quoteElement text, ?_, reads_quoted read depth⟩
    rw [itemText_single null single, written]
    rfl

theorem itemTexts_reads {depth : ℕ} {items : List (JSValue ν κ)}
    (reads : ∀ item ∈ items, ∃ text, codecs.itemText element item = .ok text ∧
      ReadsItem (codecs.elementValue element) depth item text) :
    ∃ texts, codecs.itemTexts element items = .ok texts ∧
      List.Forall₂ (ReadsItem (codecs.elementValue element) depth) items texts := by
  induction items with
  | nil => exact ⟨[], by rw [itemTexts], .nil⟩
  | cons item rest induction =>
      obtain ⟨text, written, read⟩ := reads item List.mem_cons_self
      obtain ⟨texts, others, more⟩ := induction fun other member =>
        reads other (List.mem_cons_of_mem item member)
      refine ⟨text :: texts, ?_, .cons read more⟩
      rw [itemTexts, written, others]
      rfl

/-- The items of a rectangular array are written, and their texts are read. -/
theorem rectangular_reads (lawful : codecs.builtins.Lawful) {dimensions : List ℕ} {depth : ℕ}
    (shallow : depth + dimensions.length ≤ 7) {items : List (JSValue ν κ)}
    (rectangular : Rectangular (codecs.Item element) dimensions items) :
    ∃ texts, codecs.itemTexts element items = .ok texts ∧
      List.Forall₂ (ReadsItem (codecs.elementValue element) depth) items texts := by
  induction dimensions generalizing depth items with
  | nil => exact rectangular.elim
  | cons size sizes induction =>
      refine itemTexts_reads fun item member => ?_
      rw [List.length_cons] at shallow
      cases sizes with
      | nil => exact itemText_reads lawful (rectangular.2 item member).2 depth
      | cons inner sizes =>
          obtain ⟨values, rfl, nested⟩ := rectangular.2 item member
          obtain ⟨texts, written, reads⟩ :=
            induction (show depth + 1 + (inner :: sizes).length ≤ 7 by omega) nested
          refine ⟨braced texts, ?_, reads_array ?_ reads⟩
          · rw [itemText, written]
            rfl
          · rw [List.length_cons] at shallow
            omega

end Codecs

section Arrays

variable {element : Utf16 → Except CodecError (JSValue ν κ)}

end Arrays

namespace Codecs

/-- A rectangular array of elements that are null or that the codecs read back, with at most six
dimensions; the empty array has none. -/
structure Shaped (codecs : Codecs ν κ) (element : ℕ) (values : List (JSValue ν κ))
    (dimensions : List ℕ) : Prop where
  few : dimensions.length ≤ 6
  positive : ∀ size ∈ dimensions, 0 < size
  rectangular : values = [] ∧ dimensions = [] ∨
    Rectangular (codecs.Item element) dimensions values

variable {codecs : Codecs ν κ} {element : ℕ} {values : List (JSValue ν κ)} {dimensions : List ℕ}

theorem Shaped.dimensionsOf (shaped : codecs.Shaped element values dimensions) :
    dimensionsOf values = .ok dimensions := by
  rcases shaped.rectangular with ⟨rfl, rfl⟩ | rectangular
  · rfl
  · have filled : values.isEmpty = false := by
      cases dimensions with
      | nil => exact rectangular.elim
      | cons size sizes =>
          have length : values.length = size := by
            cases sizes with
            | nil => exact rectangular.1
            | cons inner sizes => exact rectangular.1
          have positive := shaped.positive size (by simp)
          cases values with
          | nil =>
              rw [List.length_nil] at length
              omega
          | cons first rest => rfl
    rw [Wasm.dimensionsOf, filled]
    exact shape_rectangular shaped.positive (by rw [Nat.zero_add]; exact shaped.few) rectangular

theorem Shaped.reads (shaped : codecs.Shaped element values dimensions)
    (lawful : codecs.builtins.Lawful) :
    ∃ texts, codecs.itemTexts element values = .ok texts ∧
      List.Forall₂ (ReadsItem (codecs.elementValue element) 1) values texts := by
  rcases shaped.rectangular with ⟨rfl, rfl⟩ | rectangular
  · exact ⟨[], by rw [itemTexts], .nil⟩
  · have few : 1 + dimensions.length ≤ 7 := by
      have few := shaped.few
      omega
    exact rectangular_reads lawful few rectangular

end Codecs

/-! ## The default codecs -/

end Postgamma.Wasm
