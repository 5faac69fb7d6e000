import Mathlib
import Postgamma.Library.Text

/-!
# Python parameters

The encoder of `_codec.py`.  A value carries the texts that Python's own classes give for it, so
that the choice of type identifiers and spellings is left to the encoder.
-/

namespace Postgamma
namespace Python

open Text (Bytes)

/-- A Python string as its code points, which may be lone surrogates. -/
abbrev Str := List ℕ

/-- The code points of a text. -/
def lit (text : String) : Str := text.toList.map Char.toNat

/-- A Python class, known by its identity. -/
inductive PyClass
  | noneType
  | bool
  | int
  | float
  | decimal
  | str
  | bytes
  | bytearray
  | memoryview
  | datetime
  | date
  | time
  | timedelta
  | uuid
  | json
  | mapping
  | array
  | list
  | tuple
  | other (id : ℕ) (name : String)
  deriving DecidableEq

/-- `type(value).__name__`. -/
def PyClass.name : PyClass → String
  | noneType => "NoneType"
  | bool => "bool"
  | int => "int"
  | float => "float"
  | decimal => "Decimal"
  | str => "str"
  | bytes => "bytes"
  | bytearray => "bytearray"
  | memoryview => "memoryview"
  | datetime => "datetime"
  | date => "date"
  | time => "time"
  | timedelta => "timedelta"
  | uuid => "UUID"
  | json => "Json"
  | mapping => "dict"
  | array => "Array"
  | list => "list"
  | tuple => "tuple"
  | other _ name => name

/-- A `float` with the `repr` of a finite one. -/
inductive PyFloat
  | nan
  | infinite (positive : Bool)
  | finite (repr : String)

/-- The classes whose values are octets. -/
inductive BufferKind
  | bytes
  | bytearray
  | memoryview

/-- A Python value. -/
inductive Value
  | none
  | bool (value : Bool)
  | int (value : ℤ)
  | float (value : PyFloat)
  /-- A `Decimal` with its `str`. -/
  | decimal (text : String)
  | str (text : Str)
  | buffer (kind : BufferKind) (data : Bytes)
  /-- A `datetime` with both sides of its `isoformat`. -/
  | datetime (date time : String) (aware : Bool)
  | date (iso : String)
  | time (iso : String)
  | timedelta (days : ℤ) (seconds microseconds : ℕ)
  | uuid (text : String)
  /-- A `Json` with what `json.dumps` gives for its value. -/
  | json (dumped : Option Str)
  | mapping (dumped : Option Str)
  | array (values : List Value) (oid : ℕ)
  | list (items : List Value)
  | tuple (items : List Value)
  /-- An instance of a subclass of the value's class. -/
  | derived (id : ℕ) (name : String) (value : Value)
  /-- An instance of any other class. -/
  | object (id : ℕ) (name : String)

namespace Value

/-- `value is None`. -/
def isNone : Value → Bool
  | none => true
  | _ => false

/-- `type(value)`. -/
def classOf : Value → PyClass
  | none => .noneType
  | bool _ => .bool
  | int _ => .int
  | float _ => .float
  | decimal _ => .decimal
  | str _ => .str
  | buffer .bytes _ => .bytes
  | buffer .bytearray _ => .bytearray
  | buffer .memoryview _ => .memoryview
  | datetime _ _ _ => .datetime
  | date _ => .date
  | time _ => .time
  | timedelta _ _ _ => .timedelta
  | uuid _ => .uuid
  | json _ => .json
  | mapping _ => .mapping
  | array _ _ => .array
  | list _ => .list
  | tuple _ => .tuple
  | derived id name _ => .other id name
  | object id name => .other id name

/-- The value that an instance of a subclass is for `isinstance`. -/
def base : Value → Value
  | derived _ _ value => value.base
  | value => value

end Value

/-- What the encoder raises. -/
inductive PyError
  | typeError (message : String)
  /-- `UnicodeEncodeError`. -/
  | unicode
  /-- `json.dumps` refuses a value. -/
  | dumps
  /-- A custom encoder raises. -/
  | custom
  deriving DecidableEq

/-- The two wire formats. -/
inductive Format
  | text
  | binary
  deriving DecidableEq

/-- `EncodedParameter`. -/
structure EncodedParameter where
  oid : ℕ
  format : Format
  isNull : Bool
  data : Bytes
  deriving DecidableEq

def boolOid : ℕ := 16
def byteaOid : ℕ := 17
def int8Oid : ℕ := 20
def textOid : ℕ := 25
def float8Oid : ℕ := 701
def dateOid : ℕ := 1082
def timeOid : ℕ := 1083
def timestampOid : ℕ := 1114
def timestamptzOid : ℕ := 1184
def intervalOid : ℕ := 1186
def numericOid : ℕ := 1700
def uuidOid : ℕ := 2950
def jsonbOid : ℕ := 3802

/-- `value.encode("utf-8")`. -/
def utf8 : Str → Except PyError Bytes
  | [] => .ok []
  | point :: points =>
      if point.isValidChar then do
        let rest ← utf8 points
        return String.utf8EncodeChar (Char.ofNat point) ++ rest
      else .error .unicode

def text (oid : ℕ) (value : Str) : Except PyError EncodedParameter := do
  let data ← utf8 value
  return ⟨oid, .text, false, data⟩

def twoDigits (number : ℕ) : Str :=
  if number < 10 then lit "0" ++ lit (toString number) else lit (toString number)

/-- The microseconds behind a point, without the zeros at the end. -/
def fraction (microseconds : ℕ) : Str :=
  if microseconds = 0 then []
  else
    let digits := lit (toString microseconds)
    let padded := List.replicate (6 - digits.length) 48 ++ digits
    lit "." ++ (padded.reverse.dropWhile (· == 48)).reverse

def encodeInterval (days : ℤ) (seconds microseconds : ℕ) : Str :=
  let total := days * 86400000000 + seconds * 1000000 + microseconds
  let sign := if total < 0 then lit "-" else []
  let rest := total.natAbs % 86400000000
  sign ++ lit (toString (total.natAbs / 86400000000)) ++ lit " days " ++
    twoDigits (rest / 3600000000) ++ lit ":" ++ twoDigits (rest % 3600000000 / 60000000) ++
    lit ":" ++ twoDigits (rest % 60000000 / 1000000) ++ fraction (rest % 1000000)

/-- `str.isspace` of one character. -/
def isSpace (point : ℕ) : Bool :=
  (9 ≤ point && point ≤ 13) || (28 ≤ point && point ≤ 32) || point == 0x85 || point == 0xA0 ||
    point == 0x1680 || (0x2000 ≤ point && point ≤ 0x200A) || point == 0x2028 ||
    point == 0x2029 || point == 0x202F || point == 0x205F || point == 0x3000

/-- `str.upper` of a letter of `NULL`; no other character becomes one of these letters. -/
def upper (point : ℕ) : ℕ := if 97 ≤ point ∧ point ≤ 122 then point - 32 else point

def arrayQuote (value : Str) : Str :=
  let escaped := value.flatMap fun point =>
    if point = 92 ∨ point = 34 then [92, point] else [point]
  if value = [] ∨ value.map upper = lit "NULL" ∨
      value.any (fun point => (lit ",\x7b\x7d\"\\").contains point) ∨
      (value.head?.map isSpace).getD false ∨ (value.getLast?.map isSpace).getD false then
    lit "\"" ++ escaped ++ lit "\""
  else escaped

/-- `str` of a `float`. -/
def PyFloat.str : PyFloat → Str
  | nan => lit "nan"
  | infinite true => lit "inf"
  | infinite false => lit "-inf"
  | finite repr => lit repr

/-- The error for a value that is no array element. -/
def unsupportedElement (value : Value) : PyError :=
  .typeError ("unsupported PostgreSQL array element type: " ++ value.classOf.name)

/-- `",".join(parts)`. -/
def joined : List Str → Str
  | [] => []
  | [part] => part
  | part :: parts => part ++ lit "," ++ joined parts

mutual

def arrayScalar : Value → Except PyError Str
  | .none => .ok (lit "NULL")
  | .bool value => .ok (lit (if value then "t" else "f"))
  | .int value => .ok (lit (toString value))
  | .float value => .ok value.str
  | .decimal text => .ok (lit text)
  | .datetime date time _ => .ok (arrayQuote (lit (date ++ "T" ++ time)))
  | .date iso => .ok (arrayQuote (lit iso))
  | .time iso => .ok (arrayQuote (lit iso))
  | .uuid text => .ok (arrayQuote (lit text))
  | .str text => .ok (arrayQuote text)
  | .list items => do
      let parts ← arrayScalars items
      return lit "\x7b" ++ joined parts ++ lit "\x7d"
  | .tuple items => do
      let parts ← arrayScalars items
      return lit "\x7b" ++ joined parts ++ lit "\x7d"
  | .derived id name value =>
      match arrayScalar value with
      | .error (.typeError _) => .error (unsupportedElement (.derived id name value))
      | result => result
  | value => .error (unsupportedElement value)

/-- The texts of the items of a list. -/
def arrayScalars : List Value → Except PyError (List Str)
  | [] => .ok []
  | item :: items => do
      let part ← arrayScalar item
      let parts ← arrayScalars items
      return part :: parts

end

/-- `array_oids` of `_inferred_array_oid`. -/
def arrayOid : PyClass → ℕ
  | .bool => 1000
  | .int => 1016
  | .float => 1022
  | .str => 1009
  | .decimal => 1231
  | .date => 1182
  | .time => 1183
  | .datetime => 1115
  | .uuid => 2951
  | _ => 0

def inferredArrayOid (values : List Value) : ℕ :=
  match values.filter (!·.isNone) with
  | [] => 0
  | first :: rest =>
      if (first :: rest).any (·.classOf != first.classOf) then 0 else arrayOid first.classOf

def arrayElements : List (ℕ × ℕ) :=
  [(1000, 16), (1001, 17), (1005, 21), (1007, 23), (1009, 25), (1015, 1043), (1016, 20),
    (1021, 700), (1022, 701), (1028, 26), (1115, 1114), (1182, 1082), (1183, 1083),
    (1185, 1184), (1187, 1186), (1231, 1700), (199, 114), (2951, 2950), (3807, 3802)]

/-- The registered encoders by class; one may return something else than a parameter. -/
abbrev CustomEncoders := PyClass → Option (Value → Except PyError (Option EncodedParameter))

/-- `json.dumps` and `_text`. -/
def dumpedText (dumped : Option Str) : Except PyError EncodedParameter :=
  match dumped with
  | none => .error .dumps
  | some value => text jsonbOid value

/-- The part of `encode_parameter` behind the custom encoders, for a value by its built-in class;
`name` is the name of its own class. -/
def encodeBuiltin (name : String) : Value → Except PyError EncodedParameter
  | .bool value => text boolOid (lit (if value then "true" else "false"))
  | .int value =>
      if -2 ^ 63 ≤ value ∧ value < 2 ^ 63 then text int8Oid (lit (toString value))
      else text numericOid (lit (toString value))
  | .float .nan => text float8Oid (lit "NaN")
  | .float (.infinite positive) =>
      text float8Oid (lit (if positive then "Infinity" else "-Infinity"))
  | .float (.finite repr) => text float8Oid (lit repr)
  | .decimal value => text numericOid (lit value)
  | .str value => text textOid value
  | .buffer _ data => .ok ⟨byteaOid, .binary, false, data⟩
  | .datetime date time aware =>
      text (if aware then timestamptzOid else timestampOid) (lit (date ++ " " ++ time))
  | .date iso => text dateOid (lit iso)
  | .time iso => text timeOid (lit iso)
  | .timedelta days seconds microseconds =>
      text intervalOid (encodeInterval days seconds microseconds)
  | .uuid value => text uuidOid (lit value)
  | .json dumped => dumpedText dumped
  | .mapping dumped => dumpedText dumped
  | .array values oid => do
      let value ← arrayScalar (.list values)
      text (if oid = 0 then inferredArrayOid values else oid) value
  | .list items => do
      let value ← arrayScalar (.list items)
      text (inferredArrayOid items) value
  | .tuple items => do
      let value ← arrayScalar (.tuple items)
      text (inferredArrayOid items) value
  | _ => .error (.typeError ("unsupported PostGamma parameter type: " ++ name))

def encodeParameter (custom : CustomEncoders) (value : Value) :
    Except PyError EncodedParameter :=
  if value.isNone then .ok ⟨0, .text, true, []⟩
  else
    match custom value.classOf with
    | some encoder => do
        match ← encoder value with
        | some encoded => .ok encoded
        | none => .error (.typeError "custom encoder must return EncodedParameter")
    | none => encodeBuiltin value.classOf.name value.base

mutual

/-- The values of a nested list that are no lists. -/
def Value.leaves : Value → List Value
  | .list items => allLeaves items
  | .tuple items => allLeaves items
  | value => [value]

def allLeaves : List Value → List Value
  | [] => []
  | item :: items => item.leaves ++ allLeaves items

end

/-- Each leaf of an array whose type is inferred has the type that it has as a parameter. -/
def ElementsAgree (custom : CustomEncoders) (values : List Value) : Prop :=
  inferredArrayOid values ≠ 0 → ∃ element,
    arrayElements.lookup (inferredArrayOid values) = some element ∧
      ∀ leaf ∈ allLeaves values, leaf.isNone = false →
        ∀ encoded, encodeParameter custom leaf = .ok encoded → encoded.oid = element

/-- An integer in the range of `int8`, a `datetime` without a time zone, or another value. -/
def Value.Ordinary : Value → Prop
  | .int value => -2 ^ 63 ≤ value ∧ value < 2 ^ 63
  | .datetime _ _ aware => aware = false
  | _ => True

/-- A value that is bound with a given type, by its custom encoder if its class has one. -/
structure BoundAs (custom : CustomEncoders) (element : ℕ) (value : Value) : Prop where
  registered : ∀ encoder, custom value.classOf = some encoder →
    ∀ encoded, encoder value = .ok (some encoded) → encoded.oid = element
  ordinary : custom value.classOf = none → value.Ordinary

theorem utf8_lit (text : String) : ∃ data, utf8 (lit text) = .ok data := by
  rw [lit]
  induction text.toList with
  | nil => exact ⟨[], rfl⟩
  | cons letter letters induction =>
      obtain ⟨data, same⟩ := induction
      have valid : letter.toNat.isValidChar := Text.char_isValid letter
      exact ⟨_, by simp [utf8, valid, same]; rfl⟩

theorem text_oid {oid : ℕ} {value : Str} {encoded : EncodedParameter}
    (done : text oid value = .ok encoded) : encoded.oid = oid := by
  rw [text] at done
  cases found : utf8 value with
  | error error => simp [found, bind, Except.bind] at done
  | ok data =>
      simp only [found, bind, Except.bind, pure, Except.pure, Except.ok.injEq] at done
      rw [← done]

theorem text_lit (oid : ℕ) (value : String) : ∃ encoded, text oid (lit value) = .ok encoded := by
  obtain ⟨data, same⟩ := utf8_lit value
  exact ⟨⟨oid, .text, false, data⟩, by simp [text, same, bind, Except.bind, pure, Except.pure]⟩

/-- A class with an inferred array type has an element type, which its ordinary values have as
parameters, and only they. -/
theorem encodeBuiltin_oid {value : Value} (known : arrayOid value.classOf ≠ 0) :
    ∃ element, arrayElements.lookup (arrayOid value.classOf) = some element ∧
      ((∀ encoded, encodeBuiltin value.classOf.name value.base = .ok encoded →
        encoded.oid = element) ↔ value.Ordinary) := by
  cases value with
  | bool value => exact ⟨_, rfl, iff_of_true (fun encoded done => text_oid done) trivial⟩
  | int value =>
      refine ⟨_, rfl, ?_⟩
      simp only [Value.base, Value.Ordinary, encodeBuiltin]
      split_ifs with small
      · exact iff_of_true (fun encoded done => text_oid done) small
      · refine iff_of_false (fun same => ?_) small
        obtain ⟨encoded, done⟩ := text_lit numericOid (toString value)
        have first := same encoded done
        rw [text_oid done] at first
        exact absurd first (by decide)
  | float value =>
      refine ⟨_, rfl, iff_of_true (fun encoded done => ?_) trivial⟩
      cases value with
      | nan => exact text_oid done
      | infinite positive => exact text_oid done
      | finite repr => exact text_oid done
  | decimal value => exact ⟨_, rfl, iff_of_true (fun encoded done => text_oid done) trivial⟩
  | str value => exact ⟨_, rfl, iff_of_true (fun encoded done => text_oid done) trivial⟩
  | datetime date time aware =>
      refine ⟨_, rfl, ?_⟩
      simp only [Value.base, Value.Ordinary, encodeBuiltin]
      cases aware with
      | false => exact iff_of_true (fun encoded done => text_oid done) rfl
      | true =>
          refine iff_of_false (fun same => ?_) (by simp)
          obtain ⟨encoded, done⟩ := text_lit timestamptzOid (date ++ " " ++ time)
          have first := same encoded done
          rw [text_oid done] at first
          exact absurd first (by decide)
  | date iso => exact ⟨_, rfl, iff_of_true (fun encoded done => text_oid done) trivial⟩
  | time iso => exact ⟨_, rfl, iff_of_true (fun encoded done => text_oid done) trivial⟩
  | uuid value => exact ⟨_, rfl, iff_of_true (fun encoded done => text_oid done) trivial⟩
  | buffer kind data => cases kind <;> exact absurd rfl known
  | none => exact absurd rfl known
  | timedelta days seconds microseconds => exact absurd rfl known
  | json dumped => exact absurd rfl known
  | mapping dumped => exact absurd rfl known
  | array values oid => exact absurd rfl known
  | list items => exact absurd rfl known
  | tuple items => exact absurd rfl known
  | derived id name value => exact absurd rfl known
  | object id name => exact absurd rfl known

theorem inferredArrayOid_class {values : List Value} (known : inferredArrayOid values ≠ 0)
    {value : Value} (member : value ∈ values) (present : value.isNone = false) :
    arrayOid value.classOf = inferredArrayOid values := by
  have kept : value ∈ values.filter (!·.isNone) := by simp [member, present]
  rw [inferredArrayOid] at known ⊢
  cases found : values.filter (!·.isNone) with
  | nil => exact absurd found (List.ne_nil_of_mem kept)
  | cons first rest =>
      simp only [found] at known ⊢ kept
      split_ifs at known ⊢ with mixed
      · exact absurd rfl known
      · have same : value.classOf = first.classOf := by
          by_contra different
          exact mixed (List.any_eq_true.mpr ⟨value, kept, by simpa using different⟩)
        rw [same]

/-- An array with an inferred type is no nested one. -/
theorem allLeaves_eq {values : List Value}
    (flat : ∀ value ∈ values, value.isNone = false → arrayOid value.classOf ≠ 0) :
    allLeaves values = values := by
  induction values with
  | nil => simp [allLeaves]
  | cons value values induction =>
      have single : value.leaves = [value] := by
        have first := flat value List.mem_cons_self
        cases value with
        | list items => exact absurd rfl (first rfl)
        | tuple items => exact absurd rfl (first rfl)
        | _ => simp [Value.leaves]
      rw [allLeaves, single, induction fun value member => flat value (List.mem_cons_of_mem _ member)]
      rfl

/-- What `encode_parameter` binds a leaf of a known class as. -/
theorem boundAs_iff (custom : CustomEncoders) {value : Value} {element : ℕ}
    (present : value.isNone = false) (known : arrayOid value.classOf ≠ 0)
    (type : arrayElements.lookup (arrayOid value.classOf) = some element) :
    (∀ encoded, encodeParameter custom value = .ok encoded → encoded.oid = element) ↔
      BoundAs custom element value := by
  obtain ⟨other, same, builtin⟩ := encodeBuiltin_oid known
  obtain rfl := Option.some.inj (same.symm.trans type)
  simp only [encodeParameter, present, Bool.false_eq_true, if_false]
  cases registered : custom value.classOf with
  | none =>
      rw [builtin]
      exact ⟨fun ordinary => ⟨by simp [registered], fun _ => ordinary⟩,
        fun bound => bound.ordinary registered⟩
  | some encoder =>
      constructor
      · intro agree
        refine ⟨fun chosen same encoded done => agree encoded ?_, by simp [registered]⟩
        obtain rfl := Option.some.inj (registered.symm.trans same)
        simp [done, bind, Except.bind]
      · intro bound encoded done
        cases found : encoder value with
        | error error => simp [found, bind, Except.bind] at done
        | ok result =>
            cases result with
            | none => simp [found, bind, Except.bind] at done
            | some parameter =>
                simp only [found, bind, Except.bind, Except.ok.injEq] at done
                exact done ▸ bound.registered encoder registered parameter found

/-- The elements of an array have the type that they have alone exactly when each of them is bound
as the element type of the inferred array type, by its custom encoder or as an ordinary value. -/
theorem elements_agree (custom : CustomEncoders) (values : List Value) :
    ElementsAgree custom values ↔
      (inferredArrayOid values ≠ 0 → ∀ value ∈ values, value.isNone = false →
        BoundAs custom ((arrayElements.lookup (inferredArrayOid values)).getD 0) value) := by
  refine imp_congr_right fun known => ?_
  have classes := fun value (member : value ∈ values) (present : value.isNone = false) =>
    inferredArrayOid_class known member present
  have flat := allLeaves_eq fun value member present => (classes value member present) ▸ known
  obtain ⟨sample, member, present⟩ : ∃ value ∈ values, value.isNone = false := by
    by_contra missing
    push Not at missing
    refine known ?_
    rw [inferredArrayOid, List.filter_eq_nil_iff.mpr fun value member => ?_]
    simpa using missing value member
  have sampleClass := classes sample member present
  obtain ⟨element, type, -⟩ := encodeBuiltin_oid (sampleClass ▸ known)
  rw [sampleClass] at type
  rw [flat, type, Option.getD_some]
  constructor
  · rintro ⟨other, same, agree⟩ value member present
    obtain rfl := Option.some.inj same
    have class_ := classes value member present
    exact (boundAs_iff custom present (class_ ▸ known) (class_ ▸ type)).mp
      (agree value member present)
  · intro bound
    refine ⟨element, rfl, fun value member present => ?_⟩
    have class_ := classes value member present
    exact (boundAs_iff custom present (class_ ▸ known) (class_ ▸ type)).mpr
      (bound value member present)

/-- An integer beyond `int8` is a `numeric` alone and an `int8` in a list. -/
theorem large_integer_disagrees :
    ¬∀ (custom : CustomEncoders) (values : List Value), ElementsAgree custom values := by
  intro agree
  obtain ⟨element, type, leaves⟩ := agree (fun _ => none) [.int (2 ^ 63)] (by decide)
  obtain ⟨encoded, done⟩ := text_lit numericOid (toString ((2 : ℤ) ^ 63))
  have large : encodeParameter (fun _ => none) (.int (2 ^ 63)) = .ok encoded := by
    rw [← done]
    rfl
  have same := leaves (.int (2 ^ 63)) (by simp [allLeaves, Value.leaves]) rfl encoded large
  rw [text_oid done] at same
  rw [← same] at type
  exact absurd type (by decide)

end Python
end Postgamma
