import Mathlib.Tactic
import Postgamma.Wasm.Wire

/-!
# Query results across the bridge

`marshal_result` writes a query result for the script client, which reads it with `result`. Names
and cells in the text format pass through a decoder that drops a leading byte order mark, so a
result arrives unchanged exactly when no name and no text cell begins with one.
-/

namespace Postgamma
namespace Wasm

open Text (Bytes Utf16)

/-- `pgm_column`. -/
structure PgmColumn where
  name : Bytes
  tableOid : UInt32
  tableColumn : Int32
  typeOid : UInt32
  typeSize : Int32
  typeModifier : Int32
  format : UInt16

/-- A `pgm_result`. A null cell is nothing, and the command tag is valid text. -/
structure PgmResult where
  kind : UInt32
  commandStatus : Bytes
  columns : List PgmColumn
  rows : List (List (Option Bytes))
  tag : (Text.spelling commandStatus).isSome
  rectangular : ∀ row ∈ rows, row.length = columns.length

/-- A column of `marshal_result`. -/
def marshalColumn (writer : Writer) (column : PgmColumn) : Writer :=
  ((((((writer.text (some column.name)).put column.typeOid.toNat).put column.format.toNat).put
    column.tableOid.toNat).put column.tableColumn.toUInt32.toNat).put
    column.typeSize.toUInt32.toNat).put column.typeModifier.toUInt32.toNat

def marshalResult (writer : Writer) (result : PgmResult) : Writer :=
  let header := (((writer.put result.kind.toNat).text (some result.commandStatus)).put
    result.columns.length).put result.rows.length
  result.rows.flatten.foldl Writer.value (result.columns.foldl marshalColumn header)

/-- `Column`. -/
structure Column where
  name : Utf16
  typeOid : ℕ
  format : ℕ
  tableOid : ℕ
  tableColumn : ℤ
  typeSize : ℤ
  typeModifier : ℤ
  deriving DecidableEq, Repr

/-- A value of a row. -/
inductive Cell where
  | null
  | binary (bytes : Bytes)
  | text (string : Utf16)
  deriving DecidableEq, Repr

/-- `Result`, without the stream that a copy attaches. -/
structure Result where
  byteLength : ℕ
  kind : ℕ
  command : Utf16
  columns : List Column
  rows : List (List Cell)
  deriving DecidableEq, Repr

/-- A column of `readColumns`. -/
def readColumn : Scan WireError Column := do
  let name ← Reader.text
  let typeOid ← Reader.u32
  let format ← Reader.u32
  let tableOid ← Reader.u32
  let tableColumn ← Reader.i32
  let typeSize ← Reader.i32
  let typeModifier ← Reader.i32
  return { name := name.getD [], typeOid, format, tableOid, tableColumn, typeSize, typeModifier }

def readColumns (width : ℕ) : Scan WireError (List Column) :=
  if 65535 < width then throw .invalidColumnCount else Scan.times width readColumn

/-- A cell of `result`. -/
def readCell (column : Column) : Scan WireError Cell := do
  match ← Reader.blob with
  | none => return .null
  | some bytes =>
      if column.format = 1 then return .binary bytes
      else do
        let string ← Reader.decode bytes
        return .text string

def result : Scan WireError Result := do
  let kind ← Reader.u32
  let command ← Reader.text
  let width ← Reader.u32
  let height ← Reader.u32
  if 65535 < width ∨ 1048576 < height then throw .invalidDimensions
  else do
    let columns ← readColumns width
    let rows ← Scan.times height (columns.mapM readCell)
    let reader ← get
    return { byteLength := reader.buffer.length, kind, command := command.getD [], columns, rows }

def columnBytes (column : PgmColumn) : Bytes :=
  Writer.valueBytes (some column.name) ++ (LittleEndian.u32 column.typeOid.toNat ++
    (LittleEndian.u32 column.format.toNat ++ (LittleEndian.u32 column.tableOid.toNat ++
    (LittleEndian.u32 column.tableColumn.toUInt32.toNat ++
    (LittleEndian.u32 column.typeSize.toUInt32.toNat ++
    LittleEndian.u32 column.typeModifier.toUInt32.toNat)))))

def resultBytes (result : PgmResult) : Bytes :=
  LittleEndian.u32 result.kind.toNat ++ (Writer.valueBytes (some result.commandStatus) ++
    (LittleEndian.u32 result.columns.length ++ (LittleEndian.u32 result.rows.length ++
    (result.columns.flatMap columnBytes ++
    result.rows.flatMap fun row => row.flatMap Writer.valueBytes))))

/-- A fold of writing steps that did not fail has appended the bytes of each item. -/
theorem foldl_eq {α : Type} {write : Writer → α → Writer} {encode : α → Bytes}
    (step : ∀ writer item, (write writer item).failed = false →
      writer.failed = false ∧ (write writer item).data = writer.data ++ encode item)
    {items : List α} {writer : Writer} (done : (items.foldl write writer).failed = false) :
    writer.failed = false ∧ (items.foldl write writer).data = writer.data ++ items.flatMap encode := by
  induction items generalizing writer with
  | nil => exact ⟨done, (List.append_nil _).symm⟩
  | cons item items induction =>
      obtain ⟨written, rest⟩ := induction done
      obtain ⟨before, first⟩ := step writer item written
      refine ⟨before, ?_⟩
      rw [List.foldl_cons, rest, first, List.flatMap_cons, List.append_assoc]

theorem marshalColumn_eq (writer : Writer) (column : PgmColumn)
    (done : (marshalColumn writer column).failed = false) :
    writer.failed = false ∧
      (marshalColumn writer column).data = writer.data ++ columnBytes column := by
  obtain ⟨done, modifier⟩ := Writer.put_eq done
  obtain ⟨done, size⟩ := Writer.put_eq done
  obtain ⟨done, tableColumn⟩ := Writer.put_eq done
  obtain ⟨done, tableOid⟩ := Writer.put_eq done
  obtain ⟨done, format⟩ := Writer.put_eq done
  obtain ⟨done, typeOid⟩ := Writer.put_eq done
  obtain ⟨done, name⟩ := Writer.value_eq done
  refine ⟨done, ?_⟩
  rw [marshalColumn, modifier, size, tableColumn, tableOid, format, typeOid, Writer.text, name]
  simp only [columnBytes, List.append_assoc]

variable {result : PgmResult}

theorem marshalResult_eq {writer : Writer} (done : (marshalResult writer result).failed = false) :
    (marshalResult writer result).data = writer.data ++ resultBytes result := by
  obtain ⟨done, cells⟩ := foldl_eq (fun writer cell => @Writer.value_eq writer cell) done
  obtain ⟨done, columns⟩ := foldl_eq marshalColumn_eq done
  obtain ⟨done, height⟩ := Writer.put_eq done
  obtain ⟨done, width⟩ := Writer.put_eq done
  obtain ⟨done, command⟩ := Writer.value_eq done
  obtain ⟨-, kind⟩ := Writer.put_eq done
  rw [marshalResult, cells, columns, height, width, Writer.text, command, kind, List.flatten_eq_flatMap,
    List.flatMap_assoc]
  simp only [resultBytes, List.append_assoc, id]

/-- A column whose name is read in a given way. -/
def PgmColumn.received (reading : Bytes → Utf16) (column : PgmColumn) : Column where
  name := reading column.name
  typeOid := column.typeOid.toNat
  format := column.format.toNat
  tableOid := column.tableOid.toNat
  tableColumn := column.tableColumn.toInt
  typeSize := column.typeSize.toInt
  typeModifier := column.typeModifier.toInt

/-- A cell whose text is read in a given way. -/
def receivedCell (reading : Bytes → Utf16) (column : PgmColumn) : Option Bytes → Cell
  | none => .null
  | some bytes => if column.format = 1 then .binary bytes else .text (reading bytes)

/-- The columns of a result whose texts are read in a given way. -/
def PgmResult.receivedColumns (result : PgmResult) (reading : Bytes → Utf16) : List Column :=
  result.columns.map (·.received reading)

/-- The rows of a result whose texts are read in a given way. -/
def PgmResult.receivedRows (result : PgmResult) (reading : Bytes → Utf16) : List (List Cell) :=
  result.rows.map fun row => (result.columns.zip row).map fun pair =>
    receivedCell reading pair.1 pair.2

/-- The bytes are the data of a cell in the text format. -/
def PgmResult.TextCell (result : PgmResult) (bytes : Bytes) : Prop :=
  ∃ row ∈ result.rows, ∃ pair ∈ result.columns.zip row, pair.1.format ≠ 1 ∧ pair.2 = some bytes

/-- The bytes are a column name or the data of a cell in the text format. -/
def PgmResult.Texts (result : PgmResult) (bytes : Bytes) : Prop :=
  (∃ column ∈ result.columns, column.name = bytes) ∨ result.TextCell bytes

/-- The text that a fatal decoder returns. -/
def decoded (bytes : Bytes) : Utf16 := (Text.decode bytes).getD []

/-- The text that the bytes encode. -/
def spelled (bytes : Bytes) : Utf16 := (Text.spelling bytes).getD []

theorem decode_eq {bytes : Bytes} (valid : (Text.spelling bytes).isSome) :
    Text.decode bytes = some (decoded bytes) := by
  obtain ⟨text, spelling⟩ := Option.isSome_iff_exists.mp valid
  obtain ⟨letters, scalars, -⟩ := Option.map_eq_some_iff.mp spelling
  rw [decoded, Text.decode_of_scalars scalars, Option.getD_some]

theorem decoded_eq_spelled_iff {bytes : Bytes} (valid : (Text.spelling bytes).isSome) :
    decoded bytes = spelled bytes ↔ ¬Text.Marked bytes := by
  obtain ⟨text, spelling⟩ := Option.isSome_iff_exists.mp valid
  rw [← Text.decode_eq_spelling_iff spelling, decode_eq valid, Option.some_inj, spelled, spelling,
    Option.getD_some]

theorem length_le_flatMap {α : Type} {encode : α → Bytes} {items : List α} {item : α}
    (member : item ∈ items) : (encode item).length ≤ (items.flatMap encode).length := by
  obtain ⟨front, rest, rfl⟩ := List.append_of_mem member
  simp
  omega

theorem reads_column {column : PgmColumn} (valid : (Text.spelling column.name).isSome)
    (short : column.name.length < 4294967295) :
    Reads readColumn (columnBytes column) (column.received decoded) := by
  refine (Reader.reads_text_some short (decode_eq valid)).bind ?_
  refine (Reader.reads_u32 column.typeOid.toNat_lt).bind ?_
  refine (Reader.reads_u32 (column.format.toNat_lt.trans (by norm_num))).bind ?_
  refine (Reader.reads_u32 column.tableOid.toNat_lt).bind ?_
  refine (Reader.reads_i32 column.tableColumn).bind ?_
  refine (Reader.reads_i32 column.typeSize).bind ?_
  exact (Reader.reads_i32 column.typeModifier).map _

theorem reads_cell {column : PgmColumn} {cell : Option Bytes}
    (valid : ∀ data ∈ cell, column.format ≠ 1 → (Text.spelling data).isSome)
    (short : ∀ data ∈ cell, data.length < 4294967295) :
    Reads (readCell (column.received decoded)) (Writer.valueBytes cell)
      (receivedCell decoded column cell) := by
  rw [← List.append_nil (Writer.valueBytes cell)]
  refine (Reader.reads_blob short).bind ?_
  cases cell with
  | none => exact Reads.pure _
  | some data =>
      have same : (column.received decoded).format = 1 ↔ column.format = 1 :=
        ⟨fun one => UInt16.toNat.inj one, fun one => congrArg UInt16.toNat one⟩
      by_cases binary : column.format = 1
      · rw [receivedCell, if_pos binary]
        simp only [if_pos (same.mpr binary)]
        exact Reads.pure _
      · rw [receivedCell, if_neg binary]
        simp only [if_neg (mt same.mp binary), Reader.decode, decode_eq (valid data rfl binary)]
        exact Reads.pure _

/-- The limits of the client and the validity of the texts of a result. -/
structure PgmResult.Readable (result : PgmResult) : Prop where
  columns : result.columns.length ≤ 65535
  rows : result.rows.length ≤ 1048576
  texts : ∀ bytes, result.Texts bytes → (Text.spelling bytes).isSome

theorem column_short {column : PgmColumn} (member : column ∈ result.columns) :
    column.name.length < (resultBytes result).length := by
  have part := @length_le_flatMap PgmColumn columnBytes _ _ member
  have name := valueBytes_length column.name
  simp only [columnBytes, List.length_append] at part
  simp only [resultBytes, List.length_append]
  omega

theorem cell_short {row : List (Option Bytes)} {data : Bytes}
    (member : row ∈ result.rows) (cell : some data ∈ row) :
    data.length < (resultBytes result).length := by
  have inner := @length_le_flatMap (Option Bytes) Writer.valueBytes _ _ cell
  have outer := @length_le_flatMap (List (Option Bytes))
    (fun row => row.flatMap Writer.valueBytes) _ _ member
  have size := valueBytes_length data
  simp only [resultBytes, List.length_append]
  omega

/-- The client reads the bytes of a result, its texts as the decoder returns them. -/
theorem result_run (readable : result.Readable)
    (short : (resultBytes result).length ≤ commandBytes) (front rest : Bytes) :
    Wasm.result (.before front (resultBytes result) rest) = .ok
      ({ byteLength := (front ++ (resultBytes result ++ rest)).length, kind := result.kind.toNat,
         command := decoded result.commandStatus, columns := result.receivedColumns decoded,
         rows := result.receivedRows decoded },
        .behind front (resultBytes result) rest) := by
  have small : commandBytes < 4294967295 := by decide
  have command : result.commandStatus.length < (resultBytes result).length := by
    have value := valueBytes_length result.commandStatus
    simp only [resultBytes, List.length_append]
    omega
  have columns : Reads (readColumns result.columns.length) (result.columns.flatMap columnBytes)
      (result.receivedColumns decoded) := by
    rw [readColumns, if_neg (Nat.not_lt.mpr readable.columns)]
    refine Reads.times fun column member => reads_column ?_ ?_
    · exact readable.texts _ (.inl ⟨column, member, rfl⟩)
    · have length := column_short member
      omega
  have rows : Reads (Scan.times result.rows.length ((result.receivedColumns decoded).mapM readCell))
      (result.rows.flatMap fun row => row.flatMap Writer.valueBytes)
      (result.receivedRows decoded) := by
    refine Reads.times fun row member => ?_
    rw [PgmResult.receivedColumns, List.mapM_map]
    refine Reads.mapM (result.rectangular row member) fun pair paired => reads_cell ?_ ?_
    · intro data cell text
      exact readable.texts data (.inr ⟨row, member, pair, paired, text, cell⟩)
    · intro data cell
      have there : some data ∈ row := cell ▸ (List.of_mem_zip paired).2
      have length := cell_short member there
      omega
  have heightSmall : result.rows.length < 4294967296 := by
    have rows := readable.rows
    omega
  have widthSmall : result.columns.length < 4294967296 := by
    have columns := readable.columns
    omega
  unfold Wasm.result
  rw [resultBytes, (Reader.reads_u32 result.kind.toNat_lt).step,
    (Reader.reads_text_some (by omega) (decode_eq result.tag)).step,
    (Reader.reads_u32 widthSmall).step, (Reader.reads_u32 heightSmall).step,
    if_neg (not_or.mpr ⟨Nat.not_lt.mpr readable.columns, Nat.not_lt.mpr readable.rows⟩),
    columns.step, rows.last]
  have finish : Cursor.behind
      (front ++ LittleEndian.u32 result.kind.toNat ++ Writer.valueBytes (some result.commandStatus) ++
        LittleEndian.u32 result.columns.length ++ LittleEndian.u32 result.rows.length ++
        result.columns.flatMap columnBytes)
      (result.rows.flatMap fun row => row.flatMap Writer.valueBytes) rest =
      Cursor.behind front (resultBytes result) rest := by
    simp [Cursor.behind, resultBytes, Nat.add_assoc]
  rw [finish]
  rfl

theorem receivedColumns_eq_iff (readable : result.Readable) :
    result.receivedColumns decoded = result.receivedColumns spelled ↔
      ∀ column ∈ result.columns, ¬Text.Marked column.name := by
  rw [PgmResult.receivedColumns, PgmResult.receivedColumns, List.map_inj_left]
  refine forall₂_congr fun column member => ?_
  rw [← decoded_eq_spelled_iff (readable.texts _ (.inl ⟨column, member, rfl⟩))]
  simp [PgmColumn.received]

theorem receivedRows_eq_iff (readable : result.Readable) :
    result.receivedRows decoded = result.receivedRows spelled ↔
      ∀ bytes, result.TextCell bytes → ¬Text.Marked bytes := by
  have cell : ∀ row ∈ result.rows, ∀ pair ∈ result.columns.zip row,
      (receivedCell decoded pair.1 pair.2 = receivedCell spelled pair.1 pair.2 ↔
        ∀ bytes ∈ pair.2, pair.1.format ≠ 1 → ¬Text.Marked bytes) := by
    rintro row member ⟨column, cell⟩ paired
    cases cell with
    | none => simp [receivedCell]
    | some bytes =>
        by_cases binary : column.format = 1
        · simp [receivedCell, binary]
        · have valid := readable.texts bytes (.inr ⟨row, member, _, paired, binary, rfl⟩)
          simp [receivedCell, binary, decoded_eq_spelled_iff valid]
  rw [PgmResult.receivedRows, PgmResult.receivedRows, List.map_inj_left]
  constructor
  · rintro same bytes ⟨row, member, pair, paired, text, data⟩
    exact (cell row member pair paired).mp (List.map_inj_left.mp (same row member) pair paired)
      bytes data text
  · intro plain row member
    refine List.map_inj_left.mpr fun pair paired => (cell row member pair paired).mpr ?_
    intro bytes data text
    exact plain bytes ⟨row, member, pair, paired, text, data⟩

/-- A read result has the columns and the rows of the result. -/
structure Exact (result : PgmResult) (read : Result) : Prop where
  kind : read.kind = result.kind.toNat
  columns : read.columns = result.receivedColumns spelled
  rows : read.rows = result.receivedRows spelled

/-- The bytes that `marshal_result` appends to its writer. -/
def marshalled (writer : Writer) (result : PgmResult) : Bytes :=
  (marshalResult writer result).data.drop writer.data.length

theorem marshalled_eq {writer : Writer} (done : (marshalResult writer result).failed = false) :
    marshalled writer result = resultBytes result := by
  rw [marshalled, marshalResult_eq done, List.drop_left]

/-- A result whose payload fits arrives unchanged, wherever its bytes stand in the message, exactly
when no column name and no text cell begins with a byte order mark. -/
theorem marshalled_exact_iff {writer : Writer} {result : PgmResult} {front rest : Bytes}
    (readable : result.Readable) (done : (marshalResult writer result).failed = false)
    (fits : (front ++ (marshalled writer result ++ rest)).length ≤ commandBytes) :
    (∃ read, Wasm.result (.before front (marshalled writer result) rest) =
        .ok (read, .behind front (marshalled writer result) rest) ∧ Exact result read) ↔
      ∀ bytes, result.Texts bytes → ¬Text.Marked bytes := by
  rw [marshalled_eq done] at fits ⊢
  have short : (resultBytes result).length ≤ commandBytes := by
    simp only [List.length_append] at fits
    omega
  have run := result_run readable short front rest
  constructor
  · rintro ⟨read, returned, exact⟩ bytes text
    rw [run] at returned
    obtain rfl := congrArg Prod.fst (Except.ok.inj returned)
    rcases text with ⟨column, member, rfl⟩ | cell
    · exact (receivedColumns_eq_iff readable).mp exact.columns column member
    · exact (receivedRows_eq_iff readable).mp exact.rows bytes cell
  · intro plain
    refine ⟨_, run, rfl, ?_, ?_⟩
    · exact (receivedColumns_eq_iff readable).mpr fun column member =>
        plain _ (.inl ⟨column, member, rfl⟩)
    · exact (receivedRows_eq_iff readable).mpr fun bytes cell => plain bytes (.inr cell)

/-- A result of one column `x` in the text format, of one row whose cell is the text `a`. -/
def plainResult : PgmResult where
  kind := 1
  commandStatus := ['S'].flatMap String.utf8EncodeChar
  columns := [
    { name := ['x'].flatMap String.utf8EncodeChar, tableOid := 0, tableColumn := 0, typeOid := 25,
      typeSize := -1, typeModifier := -1, format := 0 }]
  rows := [[some (['a'].flatMap String.utf8EncodeChar)]]
  tag := by
    simp only [Text.spelling, Text.scalars_flatMap]
    rfl
  rectangular := by simp

/-- The same result with a byte order mark in front of the cell. -/
def markedResult : PgmResult :=
  { plainResult with
    rows := [[some ([Text.byteOrderMark, 'a'].flatMap String.utf8EncodeChar)]]
    rectangular := by simp [plainResult] }

theorem plainResult_readable : plainResult.Readable where
  columns := by decide
  rows := by decide
  texts := by
    rintro bytes (⟨column, member, rfl⟩ | ⟨row, member, pair, paired, -, cell⟩)
    · obtain rfl := List.mem_singleton.mp member
      simp only [Text.spelling, Text.scalars_flatMap]
      rfl
    · obtain rfl := List.mem_singleton.mp member
      obtain rfl := List.mem_singleton.mp paired
      obtain rfl := Option.some.inj cell
      simp only [Text.spelling, Text.scalars_flatMap]
      rfl

theorem markedResult_readable : markedResult.Readable where
  columns := by decide
  rows := by decide
  texts := by
    rintro bytes (⟨column, member, rfl⟩ | ⟨row, member, pair, paired, -, cell⟩)
    · exact plainResult_readable.texts _ (.inl ⟨column, member, rfl⟩)
    · obtain rfl := List.mem_singleton.mp member
      obtain rfl := List.mem_singleton.mp paired
      obtain rfl := Option.some.inj cell
      simp only [Text.spelling, Text.scalars_flatMap]
      rfl

theorem marshalled_exact_plain :
    (∃ read, Wasm.result (.before [] (marshalled .fresh plainResult) []) =
        .ok (read, .behind [] (marshalled .fresh plainResult) []) ∧ Exact plainResult read) ↔
      ∀ bytes, plainResult.Texts bytes → ¬Text.Marked bytes :=
  @marshalled_exact_iff .fresh plainResult [] [] plainResult_readable (by decide) (by decide)

/-- The client reads the marked cell as the text without the mark. -/
theorem marked_cell_stripped :
    markedResult.Readable ∧ (marshalResult .fresh markedResult).failed = false ∧
      ¬∃ read, Wasm.result (.before [] (marshalled .fresh markedResult) []) =
          .ok (read, .behind [] (marshalled .fresh markedResult) []) ∧ Exact markedResult read := by
  have done : (marshalResult .fresh markedResult).failed = false := by decide
  refine ⟨markedResult_readable, done, ?_⟩
  rintro ⟨read, returned, exact⟩
  rw [marshalled_eq done, result_run markedResult_readable (by decide)] at returned
  obtain rfl := congrArg Prod.fst (Except.ok.inj returned)
  refine (receivedRows_eq_iff markedResult_readable).mp exact.rows
    ([Text.byteOrderMark, 'a'].flatMap String.utf8EncodeChar) ?_ (by decide)
  exact ⟨_, List.mem_singleton_self _, _, List.mem_singleton_self _, by decide, rfl⟩

end Wasm
end Postgamma
