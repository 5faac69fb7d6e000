import Mathlib
import Postgamma.Library.CrashFile
import Postgamma.Embedded.ArrowValues

/-!
# Columns of the Arrow export

The loops that fill the buffers of a column of fixed or variable width, and the export of a whole
result, which succeeds only when every column does.
-/

namespace Postgamma
namespace Embedded
namespace Arrow

open Text (Bytes)
open CrashFile (splice)

/-- The statuses of a private result. -/
inductive ResultStatus where
  | none
  | emptyQuery
  | commandOk
  | tuplesOk
  | copyOut
  | copyIn
  | copyBoth
  | badResponse
  | nonfatalError
  | fatalError
  | singleTuple
  | tuplesChunk
  | pipelineSync
  | pipelineAborted
  deriving DecidableEq, Repr

/-- A result: its values row by row, nothing for a null. -/
structure OwnedResult where
  status : ResultStatus
  rows : ℕ
  columns : ℕ
  fields : List ResultField
  values : List (Option Bytes)

/-- The description of a column. -/
def OwnedResult.field (result : OwnedResult) (column : ℕ) : ResultField :=
  result.fields.getD column { typeOid := 0, format := .text }

def OwnedResult.value (result : OwnedResult) (row column : ℕ) : Option Bytes :=
  result.values.getD (row * result.columns + column) none

/-- The buffers of a column: the validity bitmap, the offsets of a variable width, and the data. -/
structure ArrowArray where
  length : ℕ
  nullCount : ℕ
  bitmap : Bytes
  offsets : List ℤ
  data : Bytes
  deriving DecidableEq

/-- The zeroed buffers of a column. -/
def ArrowArray.zeroed (rows : ℕ) (data : Bytes) : ArrowArray :=
  { length := rows, nullCount := 0, bitmap := List.replicate ((rows + 7) / 8) 0, offsets := [], data }

def setValid (bitmap : Bytes) (index : ℕ) : Bytes :=
  bitmap.modify (index / 8) fun byte => byte ||| UInt8.ofNat (2 ^ (index % 8))

/-- The largest `size_t`. -/
def sizeMax : ℕ := 18446744073709551615

def checkedMultiply (left right : ℕ) : Except Failure ℕ :=
  if left ≠ 0 ∧ sizeMax / left < right then .error .rejected else .ok (left * right)

def ArrowArray.countNull (array : ArrowArray) : ArrowArray :=
  { array with nullCount := array.nullCount + 1 }

/-- Store a value of a fixed-width column: a truth value as a bit, others at their place. -/
def ArrowArray.storeFixed (array : ArrowArray) (type : ArrowType) (row : ℕ) (target : Bytes) :
    ArrowArray :=
  { array with
    data :=
      if type.kind = .bool then
        if target.headD 0 ≠ 0 then setValid array.data row else array.data
      else splice array.data (row * type.width) target
    bitmap := setValid array.bitmap row }

/-- Append a value of a variable-width column. -/
def ArrowArray.storeVariable (array : ArrowArray) (row : ℕ) (bytes : Bytes) : ArrowArray :=
  { array with bitmap := setValid array.bitmap row, data := array.data ++ bytes }

/-- The offset of a row, an `int32_t`. -/
def ArrowArray.pushOffset (array : ArrowArray) : ArrowArray :=
  { array with offsets := array.offsets ++ [TwosComplement.wrap 32 array.data.length] }

variable (parseDouble : Bytes → Option (ℤ × ℤ))

/-- One row of `initialize_fixed_column`. -/
def fixedRow (result : OwnedResult) (column : ℕ) (type : ArrowType) (array : ArrowArray) (row : ℕ) :
    Except Failure ArrowArray :=
  match result.value row column with
  | none => .ok array.countNull
  | some data => do
      let target ← convertFixedValue parseDouble (result.field column) data type.kind
      return array.storeFixed type row target

def fixedDataSize (rows : ℕ) (type : ArrowType) : Except Failure ℕ :=
  if type.kind = .bool then .ok ((rows + 7) / 8) else checkedMultiply rows type.width

def initializeFixedColumn (result : OwnedResult) (column : ℕ) (type : ArrowType) :
    Except Failure ArrowArray := do
  let dataSize ← fixedDataSize result.rows type
  (List.range result.rows).foldlM (fixedRow parseDouble result column type)
    (.zeroed result.rows (List.replicate dataSize 0))

/-- One row of the first loop of `initialize_variable_column`, which adds the lengths. -/
def measureRow (result : OwnedResult) (column : ℕ) (kind : ArrowKind) (size row : ℕ) :
    Except Failure ℕ :=
  match result.value row column with
  | none => .ok size
  | some data => do
      let bytes ← valueBytes (result.field column) data kind
      require (bytes.length ≤ 2147483647 ∧ size ≤ 2147483647 - bytes.length)
      return size + bytes.length

/-- One row of the second loop of `initialize_variable_column`. -/
def variableRow (result : OwnedResult) (column : ℕ) (kind : ArrowKind) (array : ArrowArray)
    (row : ℕ) : Except Failure ArrowArray :=
  match result.value row column with
  | none => .ok array.pushOffset.countNull
  | some data => do
      let bytes ← valueBytes (result.field column) data kind
      return array.pushOffset.storeVariable row bytes

/-- `initialize_variable_column`. The data are written behind each other. -/
def initializeVariableColumn (result : OwnedResult) (column : ℕ) (kind : ArrowKind) :
    Except Failure ArrowArray := do
  require (result.rows ≠ sizeMax)
  let _ ← checkedMultiply (result.rows + 1) 4
  let _ ← (List.range result.rows).foldlM (measureRow result column kind) 0
  let array ← (List.range result.rows).foldlM (variableRow result column kind)
    (.zeroed result.rows [])
  return array.pushOffset

def initializeColumn (result : OwnedResult) (column : ℕ) : Except Failure ArrowArray :=
  let type := mapType (result.field column)
  if type.isVariable then initializeVariableColumn result column type.kind
  else initializeFixedColumn parseDouble result column type

/-- `pgm_result_export_arrow`: the children of the array, one for each column. -/
def exportArrow (result : OwnedResult) : Except Failure (List ArrowArray) := do
  require (result.status = .tuplesOk ∨ result.status = .tuplesChunk)
  require (result.columns ≤ 9223372036854775807 ∧ result.rows ≤ 9223372036854775807 ∧
    result.columns ≤ sizeMax / 8)
  (List.range result.columns).mapM (initializeColumn parseDouble result)

def bitAt (bitmap : Bytes) (index : ℕ) : Bool := (bitmap.getD (index / 8) 0).toNat.testBit (index % 8)

/-- The slot of a row as a reader of the Arrow layout finds it. -/
def ArrowArray.slot (array : ArrowArray) (type : ArrowType) (row : ℕ) : Bytes :=
  if type.isVariable then
    (array.data.drop (array.offsets.getD row 0).toNat).take
      ((array.offsets.getD (row + 1) 0).toNat - (array.offsets.getD row 0).toNat)
  else if type.kind = .bool then [if bitAt array.data row then 1 else 0]
  else (array.data.drop (row * type.width)).take type.width

end Arrow
end Embedded
end Postgamma
