import Mathlib.Tactic
import Postgamma.Library.Cursor

/-!
# The wire format between the bridge and the client

The writer of the C bridge and the reader of the script client. Words are little-endian, values
carry their length, and a null is the largest word in place of a length.
-/

namespace Postgamma
namespace Wasm

open Text (Bytes Utf16)
open LittleEndian (u32 getUint32)

/-- The largest message, the same policy on both sides. -/
def commandBytes : ℕ := 33554432

/-- The output buffer of a command. -/
structure Writer where
  data : Bytes
  failed : Bool

/-- A fresh output buffer. -/
def Writer.fresh : Writer := { data := [], failed := false }

namespace Writer

def bytes (writer : Writer) (data : Bytes) : Writer :=
  if writer.failed = true ∨ commandBytes - writer.data.length < data.length then
    { writer with failed := true }
  else { writer with data := writer.data ++ data }

def put (writer : Writer) (word : ℕ) : Writer := writer.bytes (u32 word)

/-- `value`: nothing stands for a null. -/
def value (writer : Writer) : Option Bytes → Writer
  | none => writer.put 0xFFFFFFFF
  | some data => (writer.put data.length).bytes data

/-- `text`: nothing stands for a null pointer. -/
def text (writer : Writer) (string : Option Bytes) : Writer := writer.value string

end Writer

/-- The errors of the reader. -/
inductive WireError where
  | truncatedInteger
  | truncatedValue
  | trailingData
  | invalidUtf8
  | invalidColumnCount
  | invalidDimensions
  | invalidBuffer
  deriving DecidableEq, Repr

namespace Reader

/-- The constructor of a reader. -/
def create (buffer : Bytes) : Except WireError Cursor :=
  if commandBytes < buffer.length then .error .invalidBuffer else .ok { buffer, offset := 0 }

def u32 : Scan WireError ℕ := fun cursor =>
  if cursor.buffer.length < cursor.offset + 4 then .error .truncatedInteger
  else .ok (getUint32 cursor.buffer cursor.offset, { cursor with offset := cursor.offset + 4 })

def i32 : Scan WireError ℤ := do
  let word ← u32
  return Int.bmod word 4294967296

/-- The bytes in front of the cursor. -/
def take (length : ℕ) : Scan WireError Bytes := fun cursor =>
  if cursor.buffer.length < cursor.offset + length then .error .truncatedValue
  else .ok ((cursor.buffer.drop cursor.offset).take length,
    { cursor with offset := cursor.offset + length })

def blob : Scan WireError (Option Bytes) := do
  let length ← u32
  if length = 0xFFFFFFFF then return none
  else do
    let bytes ← take length
    return some bytes

/-- A fatal decoder on a value. -/
def decode (bytes : Bytes) : Scan WireError Utf16 :=
  match Text.decode bytes with
  | some text => pure text
  | none => throw .invalidUtf8

def text : Scan WireError (Option Utf16) := do
  match ← blob with
  | none => return none
  | some bytes => do
      let text ← decode bytes
      return some text

/-- `end`. -/
def finish : Scan WireError Unit := fun cursor =>
  if cursor.offset ≠ cursor.buffer.length then .error .trailingData else .ok ((), cursor)

end Reader

namespace Writer

def valueBytes : Option Bytes → Bytes
  | none => LittleEndian.u32 0xFFFFFFFF
  | some data => LittleEndian.u32 data.length ++ data

/-- A writer that did not fail has appended the data. -/
theorem bytes_eq {writer : Writer} {data : Bytes} (done : (writer.bytes data).failed = false) :
    writer.failed = false ∧ writer.bytes data = { writer with data := writer.data ++ data } := by
  unfold bytes at done ⊢
  split at done
  · cases done
  · rename_i fits
    refine ⟨by simpa using not_or.mp fits |>.1, ?_⟩
    rw [if_neg fits]

theorem put_eq {writer : Writer} {word : ℕ} (done : (writer.put word).failed = false) :
    writer.failed = false ∧ (writer.put word).data = writer.data ++ LittleEndian.u32 word := by
  obtain ⟨before, same⟩ := bytes_eq done
  exact ⟨before, by rw [put, same]⟩

theorem value_eq {writer : Writer} {cell : Option Bytes}
    (done : (writer.value cell).failed = false) :
    writer.failed = false ∧ (writer.value cell).data = writer.data ++ valueBytes cell := by
  cases cell with
  | none => exact put_eq done
  | some data =>
      obtain ⟨sized, same⟩ := bytes_eq done
      obtain ⟨before, length⟩ := put_eq sized
      refine ⟨before, ?_⟩
      rw [value, same, length, valueBytes, List.append_assoc]

end Writer

namespace Reader

theorem reads_u32 {word : ℕ} (small : word < 4294967296) : Reads u32 (LittleEndian.u32 word) word := by
  intro front rest
  have there := @LittleEndian.getUint32_at front rest word front.length small rfl
  unfold u32 Cursor.before Cursor.behind
  simp only [there, LittleEndian.u32_length]
  rw [if_neg (by simp)]

theorem reads_i32 (number : Int32) :
    Reads i32 (LittleEndian.u32 number.toUInt32.toNat) number.toInt := by
  have reads := @reads_u32 number.toUInt32.toNat number.toUInt32.toNat_lt
  have signed : Int.bmod number.toUInt32.toNat 4294967296 = number.toInt :=
    (BitVec.toInt_eq_toNat_bmod number.toBitVec).symm
  rw [← signed]
  exact reads.map fun word => Int.bmod word 4294967296

theorem reads_take (bytes : Bytes) : Reads (take bytes.length) bytes bytes := by
  intro front rest
  unfold take Cursor.before Cursor.behind
  simp only
  rw [if_neg (by simp), List.drop_left, List.take_left]

/-- A written value is read, when its length is no mark of a null. -/
theorem reads_blob {cell : Option Bytes} (short : ∀ data ∈ cell, data.length < 4294967295) :
    Reads blob (Writer.valueBytes cell) cell := by
  cases cell with
  | none =>
      have reads := @reads_u32 0xFFFFFFFF (by norm_num)
      rw [Writer.valueBytes, ← List.append_nil (LittleEndian.u32 0xFFFFFFFF)]
      exact reads.bind (Reads.pure none)
  | some data =>
      have small := short data rfl
      have reads := @reads_u32 data.length (by omega)
      refine reads.bind ?_
      rw [if_neg (by omega)]
      exact (reads_take data).map some

theorem reads_text_some {bytes : Bytes} {text : Utf16} (short : bytes.length < 4294967295)
    (decoded : Text.decode bytes = some text) :
    Reads Reader.text (Writer.valueBytes (some bytes)) (some text) := by
  have reads := @reads_blob (some bytes) (by
    intro data same
    obtain rfl := Option.some.inj same
    exact short)
  rw [← List.append_nil (Writer.valueBytes (some bytes))]
  refine reads.bind ?_
  simp only [decode, decoded]
  exact Reads.pure _

end Reader
theorem valueBytes_length (data : Bytes) : (Writer.valueBytes (some data)).length = 4 + data.length := by
  simp [Writer.valueBytes]

end Wasm
end Postgamma
