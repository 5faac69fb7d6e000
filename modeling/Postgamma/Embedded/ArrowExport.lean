import Mathlib
import Postgamma.Embedded.ArrowColumns
import Postgamma.Embedded.ArrowDecoding

/-!
# Exactness of the Arrow export

The buffers of an exported column hold, row by row, the bytes that the decoder of the value stores.
With the exactness of the decoders every exported value is exact, but for minus infinity of a date
or a timestamp in the binary format.
-/

namespace Postgamma
namespace Embedded
namespace Arrow

open Text (Bytes)
open CrashFile (splice)
open TwosComplement (Fits littleEndian wrap)

@[simp]
theorem setValid_length (bitmap : Bytes) (index : ℕ) :
    (setValid bitmap index).length = bitmap.length := by
  simp [setValid]

theorem testBit_mask (index position : ℕ) (small : index < 8) :
    (UInt8.ofNat (2 ^ index)).toNat.testBit position = decide (index = position) := by
  have fits : 2 ^ index < 2 ^ 8 := Nat.pow_lt_pow_right (by norm_num) small
  rw [UInt8.toNat_ofNat', Nat.mod_eq_of_lt fits, Nat.testBit_two_pow]

theorem bitAt_setValid {bitmap : Bytes} {index : ℕ} (inside : index / 8 < bitmap.length)
    (other : ℕ) : bitAt (setValid bitmap index) other = (bitAt bitmap other || decide (index = other)) := by
  unfold bitAt setValid
  rw [List.getD_eq_getElem?_getD, List.getElem?_modify, List.getD_eq_getElem?_getD]
  by_cases same : index / 8 = other / 8
  · rw [same] at inside ⊢
    rw [List.getElem?_eq_getElem inside]
    simp only [if_true, Option.map_eq_map, Option.map_some, Option.getD_some, UInt8.toNat_or,
      Nat.testBit_or]
    rw [testBit_mask _ _ (Nat.mod_lt _ (by norm_num))]
    congr 1
    rw [decide_eq_decide]
    omega
  · have apart : decide (index = other) = false := decide_eq_false fun equal => same (equal ▸ rfl)
    rw [apart, Bool.or_false]
    simp [same]

theorem bitAt_replicate (count index : ℕ) : bitAt (List.replicate count 0) index = false := by
  unfold bitAt
  rw [List.getD_eq_getElem?_getD]
  by_cases inside : index / 8 < count
  · simp [inside]
  · have outside : (List.replicate count (0 : UInt8))[index / 8]? = none :=
      List.getElem?_eq_none (by simpa using inside)
    simp [outside]

theorem splice_length_eq {bytes data : Bytes} {offset : ℕ} (inside : offset + data.length ≤ bytes.length) :
    (splice bytes offset data).length = bytes.length := by
  rw [CrashFile.splice_length]
  omega

/-- Bytes in front of an overwritten place stay. -/
theorem slice_splice_before {bytes data : Bytes} {start width offset : ℕ}
    (before : start + width ≤ offset) (inside : offset ≤ bytes.length) :
    ((splice bytes offset data).drop start).take width = (bytes.drop start).take width := by
  rw [CrashFile.splice_eq inside, List.drop_append_of_le_length (by rw [List.length_take]; omega),
    List.take_append_of_le_length (by rw [List.length_drop, List.length_take]; omega),
    List.drop_take, List.take_take]
  congr 1
  omega

/-- The overwritten bytes are read back. -/
theorem slice_splice_here {bytes data : Bytes} {offset : ℕ} (inside : offset ≤ bytes.length) :
    ((splice bytes offset data).drop offset).take data.length = data := by
  rw [CrashFile.splice_eq inside, List.drop_left' (by rw [List.length_take]; omega),
    List.take_left]

/-- The number of bytes that a kind stores. -/
def ArrowKind.width : ArrowKind → ℕ
  | .bool => 1
  | .int16 => 2
  | .int32 | .uint32 | .float32 | .date32 => 4
  | .int64 | .float64 | .timestamp => 8
  | .uuid => 16
  | .utf8 | .binary => 0

theorem mapType_width (field : ResultField) : (mapType field).width = (mapType field).kind.width := by
  unfold mapType
  split <;> first | rfl | (split <;> rfl)

theorem require_eq_ok {condition : Prop} [Decidable condition] {result : Unit} :
    require condition = .ok result ↔ condition := by
  unfold require
  split <;> simp [*]

variable (parseDouble : Bytes → Option (ℤ × ℤ))

theorem parseUuidText_length {data output : Bytes} (parsed : parseUuidText data = .ok output) :
    output.length = 16 := by
  unfold parseUuidText at parsed
  split at parsed
  · cases parsed
  · split at parsed
    · split at parsed
      · rename_i length
        exact Except.ok.inj parsed ▸ length
      · cases parsed
    · cases parsed

/-- A binary value is stored in the width of its kind. -/
theorem convertBinary_length {data target : Bytes} {kind : ArrowKind}
    (converted : convertBinary data kind = .ok target) : target.length = kind.width := by
  cases kind <;> simp only [convertBinary, except_bind_eq_ok, require_eq_ok, Except.ok.injEq,
    binaryDate, binaryTimestamp, pure, Except.pure, reduceCtorEq] at converted
  case bool => exact converted.choose_spec.2 ▸ converted.choose_spec.1.1
  case uuid => exact converted.choose_spec.2 ▸ converted.choose_spec.1
  case date32 =>
    obtain ⟨-, -, -, -, date, -, rfl⟩ := converted
    rfl
  case timestamp =>
    obtain ⟨-, -, -, -, date, -, rfl⟩ := converted
    rfl
  all_goals
    obtain ⟨-, -, rfl⟩ := converted
    rfl

/-- A text value is stored in the width of its kind. -/
theorem convertText_length {data target : Bytes} {kind : ArrowKind}
    (converted : convertText parseDouble data kind = .ok target) : target.length = kind.width := by
  cases kind <;> simp only [convertText, except_bind_eq_ok, Except.ok.injEq, pure, Except.pure,
    reduceCtorEq] at converted
  case uuid => exact parseUuidText_length converted
  case float32 =>
    split at converted
    · exact Except.ok.inj converted ▸ TwosComplement.littleEndian_length 4 _
    · cases converted
  case float64 =>
    split at converted
    · exact Except.ok.inj converted ▸ TwosComplement.littleEndian_length 8 _
    · cases converted
  all_goals
    obtain ⟨value, -, rfl⟩ := converted
    rfl

theorem convertFixedValue_length {field : ResultField} {data target : Bytes} {kind : ArrowKind}
    (converted : convertFixedValue parseDouble field data kind = .ok target) :
    target.length = kind.width := by
  unfold convertFixedValue at converted
  split at converted
  · exact convertBinary_length converted
  · exact convertText_length parseDouble converted

/-- A truth value is stored as zero or one. -/
theorem convertFixedValue_bool {field : ResultField} {data target : Bytes}
    (converted : convertFixedValue parseDouble field data .bool = .ok target) :
    target = [if target.headD 0 ≠ 0 then 1 else 0] := by
  unfold convertFixedValue at converted
  split at converted
  · simp only [convertBinary, except_bind_eq_ok, require_eq_ok, pure, Except.pure,
      Except.ok.injEq] at converted
    obtain ⟨-, ⟨length, small⟩, rfl⟩ := converted
    obtain ⟨byte, rfl⟩ := List.length_eq_one_iff.mp length
    have cases : byte = 0 ∨ byte = 1 := by
      have below : byte.toNat ≤ 1 := UInt8.le_iff_toNat_le.mp small
      rcases Nat.le_one_iff_eq_zero_or_eq_one.mp below with zero | one
      · exact .inl (UInt8.toNat_inj.mp zero)
      · exact .inr (UInt8.toNat_inj.mp one)
    rcases cases with rfl | rfl <;> rfl
  · simp only [convertText, except_bind_eq_ok, pure, Except.pure, Except.ok.injEq] at converted
    obtain ⟨bit, -, rfl⟩ := converted
    cases bit <;> rfl

/-- What every row keeps holds of the result of a loop. -/
theorem foldlM_range {σ : Type} {step : σ → ℕ → Except Failure σ} {invariant : ℕ → σ → Prop}
    {first result : σ} {total count : ℕ} (start : invariant 0 first)
    (keep : ∀ row state next, row < total → invariant row state → step state row = .ok next →
      invariant (row + 1) next) (inside : count ≤ total)
    (done : (List.range count).foldlM step first = .ok result) : invariant count result := by
  induction count generalizing result with
  | zero => exact Except.ok.inj done ▸ start
  | succ count induction =>
      rw [List.range_succ, List.foldlM_append, except_bind_eq_ok] at done
      obtain ⟨state, before, last⟩ := done
      rw [List.foldlM_cons, except_bind_eq_ok] at last
      obtain ⟨next, stepped, finished⟩ := last
      exact Except.ok.inj finished ▸
        keep count state next (by omega) (induction (by omega) before) stepped

theorem foldlM_meets {σ : Type} {step : σ → ℕ → Except Failure σ} {rows : List ℕ}
    (safe : ∀ row ∈ rows, ∀ state, Meets (step state row) fun _ => True) (first : σ) :
    Meets (rows.foldlM step first) fun _ => True := by
  induction rows generalizing first with
  | nil => exact Meets.ok trivial
  | cons row rows induction =>
      rw [List.foldlM_cons]
      exact (safe row List.mem_cons_self first).bind fun next _ =>
        induction (fun other member => safe other (List.mem_cons_of_mem _ member)) next

/-- Two loops whose rows agree end alike. -/
theorem foldlM_agree {σ : Type} {step other : σ → ℕ → Except Failure σ} {rows : List ℕ}
    (agree : ∀ row ∈ rows, ∀ state one two, step state row = .ok one → other state row = .ok two →
      one = two) {first result second : σ} (done : rows.foldlM step first = .ok result)
    (also : rows.foldlM other first = .ok second) : result = second := by
  induction rows generalizing first with
  | nil => exact Except.ok.inj (done.symm.trans also)
  | cons row rows induction =>
      rw [List.foldlM_cons, except_bind_eq_ok] at done also
      obtain ⟨one, stepped, done⟩ := done
      obtain ⟨two, taken, also⟩ := also
      obtain rfl := agree row List.mem_cons_self first one two stepped taken
      exact induction (fun place member => agree place (List.mem_cons_of_mem _ member)) done also

/-- A row of an array shows a cell: a null is not valid, and a value is valid with the slot that
its decoder stores. -/
def ArrowArray.ShowsCell (array : ArrowArray) (field : ResultField) (row : ℕ) :
    Option Bytes → Prop
  | none => bitAt array.bitmap row = false
  | some data => bitAt array.bitmap row = true ∧
      slotBytes parseDouble field data = .ok (array.slot (mapType field) row)

/-- The state of a fixed-width column after some rows. -/
structure FilledFixed (result : OwnedResult) (column size count : ℕ) (array : ArrowArray) :
    Prop where
  bitmapLength : array.bitmap.length = (result.rows + 7) / 8
  dataLength : array.data.length = size
  shown : ∀ row < count,
    array.ShowsCell parseDouble (result.field column) row (result.value row column)
  unset : ∀ row, count ≤ row → bitAt array.bitmap row = false
  clear : (mapType (result.field column)).kind = .bool →
    ∀ row, count ≤ row → bitAt array.data row = false

variable {parseDouble} {result : OwnedResult} {column size : ℕ}

variable {array : ArrowArray}

theorem slot_fixed {type : ArrowType} (fixed : type.isVariable = false) (row : ℕ) :
    array.slot type row =
      if type.kind = .bool then [if bitAt array.data row then 1 else 0]
      else (array.data.drop (row * type.width)).take type.width := by
  unfold ArrowArray.slot
  rw [fixed]
  simp

/-- Storing a value leaves the slots of the earlier rows. -/
theorem slot_storeFixed_before {type : ArrowType} {target : Bytes}
    {row other : ℕ} (fixed : type.isVariable = false)
    (room : type.kind = .bool → row / 8 < array.data.length)
    (wide : type.kind ≠ .bool → row * type.width + type.width ≤ array.data.length)
    (before : other < row) :
    (array.storeFixed type row target).slot type other = array.slot type other := by
  rw [slot_fixed fixed, slot_fixed fixed]
  by_cases bool : type.kind = .bool
  · rw [if_pos bool, if_pos bool, ArrowArray.storeFixed, if_pos bool]
    split
    · rw [bitAt_setValid (room bool), decide_eq_false (by omega), Bool.or_false]
    · rfl
  · have long := wide bool
    have ordered : other * type.width + type.width ≤ row * type.width := by
      have := Nat.mul_le_mul_right type.width (Nat.succ_le_of_lt before)
      rwa [Nat.succ_mul] at this
    rw [if_neg bool, if_neg bool, ArrowArray.storeFixed, if_neg bool]
    exact slice_splice_before ordered (by omega)

theorem slot_storeFixed_here {array : ArrowArray} {type : ArrowType} {target : Bytes} {row : ℕ}
    (fixed : type.isVariable = false)
    (room : type.kind = .bool → row / 8 < array.data.length)
    (wide : type.kind ≠ .bool → row * type.width + type.width ≤ array.data.length)
    (clear : type.kind = .bool → bitAt array.data row = false)
    (bit : type.kind = .bool → target = [if target.headD 0 ≠ 0 then 1 else 0])
    (length : type.kind ≠ .bool → target.length = type.width) :
    (array.storeFixed type row target).slot type row = target := by
  rw [slot_fixed fixed]
  by_cases bool : type.kind = .bool
  · rw [if_pos bool, ArrowArray.storeFixed, if_pos bool]
    refine Eq.trans ?_ (bit bool).symm
    by_cases nonzero : target.headD 0 ≠ 0
    · simp only [if_pos nonzero]
      rw [bitAt_setValid (room bool)]
      simp
    · simp only [if_neg nonzero]
      rw [clear bool]
      simp
  · have long := wide bool
    rw [if_neg bool, ArrowArray.storeFixed, if_neg bool, ← length bool]
    exact slice_splice_here (by rw [length bool]; omega)

theorem fixedRow_filled (fixed : (mapType (result.field column)).isVariable = false)
    (bits : (mapType (result.field column)).kind = .bool → size = (result.rows + 7) / 8)
    (bytes : (mapType (result.field column)).kind ≠ .bool →
      size = result.rows * (mapType (result.field column)).width)
    {row : ℕ} {array next : ArrowArray} (inside : row < result.rows)
    (filled : FilledFixed parseDouble result column size row array)
    (stored : fixedRow parseDouble result column (mapType (result.field column)) array row =
      .ok next) : FilledFixed parseDouble result column size (row + 1) next := by
  unfold fixedRow at stored
  split at stored
  · rename_i null
    obtain rfl := Except.ok.inj stored
    refine ⟨filled.bitmapLength, filled.dataLength, fun other before => ?_,
      fun other behind => filled.unset other (by omega),
      fun bool other behind => filled.clear bool other (by omega)⟩
    rcases Nat.lt_succ_iff_lt_or_eq.mp before with before | rfl
    · exact filled.shown other before
    · rw [null]
      exact filled.unset other le_rfl
  · rename_i data present
    obtain ⟨target, converted, same⟩ := except_bind_eq_ok.mp stored
    obtain rfl := Except.ok.inj same
    have roomBits : row / 8 < array.bitmap.length := by
      rw [filled.bitmapLength]
      omega
    have room (bool : (mapType (result.field column)).kind = .bool) :
        row / 8 < array.data.length := by
      rw [filled.dataLength, bits bool]
      omega
    have wide (other : (mapType (result.field column)).kind ≠ .bool) :
        row * (mapType (result.field column)).width + (mapType (result.field column)).width ≤
          array.data.length := by
      rw [filled.dataLength, bytes other, ← Nat.succ_mul]
      exact Nat.mul_le_mul_right _ inside
    have length : target.length = (mapType (result.field column)).width :=
      (convertFixedValue_length parseDouble converted).trans (mapType_width _).symm
    have here := @slot_storeFixed_here array _ target row fixed room wide
      (fun bool => filled.clear bool row le_rfl)
      (fun bool => convertFixedValue_bool parseDouble (bool ▸ converted)) (fun _ => length)
    refine ⟨?_, ?_, fun other before => ?_, fun other behind => ?_, fun bool other behind => ?_⟩
    · exact (setValid_length ..).trans filled.bitmapLength
    · rw [ArrowArray.storeFixed, ← filled.dataLength]
      by_cases bool : (mapType (result.field column)).kind = .bool
      · rw [if_pos bool]
        split <;> simp
      · rw [if_neg bool]
        exact splice_length_eq (by rw [length]; exact wide bool)
    · rcases Nat.lt_succ_iff_lt_or_eq.mp before with before | rfl
      · have shown := filled.shown other before
        have kept : bitAt (setValid array.bitmap row) other = bitAt array.bitmap other := by
          rw [bitAt_setValid roomBits, decide_eq_false (by omega), Bool.or_false]
        cases cell : result.value other column with
        | none =>
            rw [cell] at shown
            exact kept.trans shown
        | some data =>
            rw [cell] at shown
            exact ⟨kept.trans shown.1,
              (slot_storeFixed_before fixed room wide before).symm ▸ shown.2⟩
      · rw [present]
        refine ⟨?_, ?_⟩
        · exact (bitAt_setValid roomBits other).trans (by simp)
        · rw [here, slotBytes, fixed]
          exact converted
    · exact (bitAt_setValid roomBits other).trans
        (by rw [filled.unset other (by omega), decide_eq_false (by omega)]; rfl)
    · rw [ArrowArray.storeFixed, if_pos bool]
      split
      · rw [bitAt_setValid (room bool), filled.clear bool other (by omega),
          decide_eq_false (by omega)]
        rfl
      · exact filled.clear bool other (by omega)

theorem initializeFixedColumn_shows (fixed : (mapType (result.field column)).isVariable = false)
    (done : initializeFixedColumn parseDouble result column
      (mapType (result.field column)) = .ok array) {row : ℕ} (inside : row < result.rows) :
    array.ShowsCell parseDouble (result.field column) row (result.value row column) := by
  unfold initializeFixedColumn at done
  obtain ⟨size, sized, done⟩ := except_bind_eq_ok.mp done
  have bits (bool : (mapType (result.field column)).kind = .bool) : size = (result.rows + 7) / 8 := by
    rw [fixedDataSize, if_pos bool] at sized
    exact (Except.ok.inj sized).symm
  have bytes (other : (mapType (result.field column)).kind ≠ .bool) :
      size = result.rows * (mapType (result.field column)).width := by
    rw [fixedDataSize, if_neg other, checkedMultiply] at sized
    split at sized
    · cases sized
    · exact (Except.ok.inj sized).symm
  have start : FilledFixed parseDouble result column size 0
      (.zeroed result.rows (List.replicate size 0)) :=
    { bitmapLength := List.length_replicate, dataLength := List.length_replicate
      shown := fun _ impossible => absurd impossible (Nat.not_lt_zero _)
      unset := fun _ _ => bitAt_replicate .., clear := fun _ _ _ => bitAt_replicate .. }
  have filled : FilledFixed parseDouble result column size result.rows array :=
    foldlM_range start (fun _ _ _ => fixedRow_filled fixed bits bytes) le_rfl done
  exact filled.shown row inside

/-- The bytes that a row adds to the data of a variable-width column. -/
def piece (result : OwnedResult) (column : ℕ) (kind : ArrowKind) (row : ℕ) : Bytes :=
  match result.value row column with
  | none => []
  | some data => (valueBytes (result.field column) data kind).toOption.getD []

/-- The data in front of a row. -/
def pieces (result : OwnedResult) (column : ℕ) (kind : ArrowKind) (count : ℕ) : Bytes :=
  (List.range count).flatMap (piece result column kind)

variable {kind : ArrowKind}

theorem pieces_succ (count : ℕ) :
    pieces result column kind (count + 1) =
      pieces result column kind count ++ piece result column kind count := by
  simp [pieces, List.range_succ]

theorem pieces_append (count more : ℕ) : ∃ behind,
    pieces result column kind (count + more) = pieces result column kind count ++ behind := by
  induction more with
  | zero => exact ⟨[], (List.append_nil _).symm⟩
  | succ more induction =>
      obtain ⟨behind, same⟩ := induction
      refine ⟨behind ++ piece result column kind (count + more), ?_⟩
      rw [← Nat.add_assoc, pieces_succ, same, List.append_assoc]

theorem pieces_length_le {count total : ℕ} (inside : count ≤ total) :
    (pieces result column kind count).length ≤ (pieces result column kind total).length := by
  obtain ⟨more, rfl⟩ := Nat.exists_eq_add_of_le inside
  obtain ⟨behind, same⟩ := @pieces_append result column kind count more
  rw [same, List.length_append]
  omega

/-- The size of the data in front of a row, which does not exceed the largest offset. -/
def Measured (result : OwnedResult) (column : ℕ) (kind : ArrowKind) (row size : ℕ) : Prop :=
  size = (pieces result column kind row).length ∧ size ≤ 2147483647

/-- The first loop measures the data. -/
theorem measureRow_measures {row size next : ℕ} (measured : Measured result column kind row size)
    (step : measureRow result column kind size row = .ok next) :
    Measured result column kind (row + 1) next := by
  obtain ⟨rfl, bound⟩ := measured
  rw [Measured, pieces_succ, List.length_append]
  rw [measureRow] at step
  rw [piece]
  cases present : result.value row column with
  | none =>
      simp only [present] at step ⊢
      obtain rfl := Except.ok.inj step
      exact ⟨rfl, bound⟩
  | some data =>
      simp only [present] at step ⊢
      obtain ⟨bytes, found, step⟩ := except_bind_eq_ok.mp step
      obtain ⟨checked, room, step⟩ := except_bind_eq_ok.mp step
      obtain ⟨short, room⟩ := require_eq_ok.mp room
      obtain rfl := Except.ok.inj step
      simp only [found, Except.toOption, Option.getD_some]
      exact ⟨trivial, by omega⟩

/-- The state of a variable-width column after some rows. -/
structure FilledVariable (result : OwnedResult) (column : ℕ) (kind : ArrowKind) (count : ℕ)
    (array : ArrowArray) : Prop where
  bitmapLength : array.bitmap.length = (result.rows + 7) / 8
  offsets : array.offsets =
    (List.range count).map fun row => wrap 32 (pieces result column kind row).length
  data : array.data = pieces result column kind count
  valid : ∀ row < count, bitAt array.bitmap row = (result.value row column).isSome
  stored : ∀ row < count, ∀ data, result.value row column = some data →
    valueBytes (result.field column) data kind = .ok (piece result column kind row)
  unset : ∀ row, count ≤ row → bitAt array.bitmap row = false

theorem FilledVariable.pushOffset {count : ℕ}
    (filled : FilledVariable result column kind count array) :
    array.pushOffset.offsets =
      (List.range (count + 1)).map fun row => wrap 32 (pieces result column kind row).length := by
  rw [ArrowArray.pushOffset, List.range_succ, List.map_append, ← filled.offsets, filled.data]
  rfl

theorem variableRow_filled {row : ℕ} {array next : ArrowArray} (inside : row < result.rows)
    (filled : FilledVariable result column kind row array)
    (stored : variableRow result column kind array row = .ok next) :
    FilledVariable result column kind (row + 1) next := by
  unfold variableRow at stored
  have pushed := filled.pushOffset
  split at stored
  · rename_i null
    obtain rfl := Except.ok.inj stored
    have empty : piece result column kind row = [] := by rw [piece, null]
    refine ⟨filled.bitmapLength, pushed, ?_, fun other before => ?_,
      fun other before data present => ?_, fun other behind => filled.unset other (by omega)⟩
    · rw [pieces_succ, empty, List.append_nil]
      exact filled.data
    · rcases Nat.lt_succ_iff_lt_or_eq.mp before with before | rfl
      · exact filled.valid other before
      · rw [null]
        exact filled.unset other le_rfl
    · rcases Nat.lt_succ_iff_lt_or_eq.mp before with before | rfl
      · exact filled.stored other before data present
      · cases null.symm.trans present
  · rename_i data present
    obtain ⟨bytes, found, same⟩ := except_bind_eq_ok.mp stored
    obtain rfl := Except.ok.inj same
    have here : piece result column kind row = bytes := by
      rw [piece, present]
      simp only [found, Except.toOption, Option.getD_some]
    have roomBits : row / 8 < array.bitmap.length := by
      rw [filled.bitmapLength]
      omega
    refine ⟨(setValid_length ..).trans filled.bitmapLength, pushed, ?_, fun other before => ?_,
      fun other before data found => ?_, fun other behind => ?_⟩
    · rw [pieces_succ, here, ← filled.data]
      rfl
    · rcases Nat.lt_succ_iff_lt_or_eq.mp before with before | rfl
      · refine (bitAt_setValid roomBits other).trans ?_
        rw [decide_eq_false (by omega), Bool.or_false]
        exact filled.valid other before
      · refine (bitAt_setValid roomBits other).trans ?_
        rw [present]
        simp
    · rcases Nat.lt_succ_iff_lt_or_eq.mp before with before | rfl
      · exact filled.stored other before data found
      · obtain rfl := Option.some.inj (present.symm.trans found)
        rwa [here]
    · refine (bitAt_setValid roomBits other).trans ?_
      rw [filled.unset other (by omega), decide_eq_false (by omega)]
      rfl

theorem wrap_length {length : ℕ} (small : length ≤ 2147483647) : (wrap 32 length).toNat = length := by
  have fits : Fits 32 (length : ℤ) := fits32.2 ⟨by omega, by omega⟩
  have whole := TwosComplement.wrap_eq (by norm_num) fits
  rw [Int.emod_eq_of_lt (by omega) (by norm_num; omega)] at whole
  rw [whole, Int.toNat_natCast]

theorem initializeVariableColumn_shows (varies : (mapType (result.field column)).isVariable = true)
    (done : initializeVariableColumn result column
      (mapType (result.field column)).kind = .ok array) {row : ℕ} (inside : row < result.rows) :
    array.ShowsCell parseDouble (result.field column) row (result.value row column) := by
  unfold initializeVariableColumn at done
  obtain ⟨-, -, done⟩ := except_bind_eq_ok.mp done
  obtain ⟨-, -, done⟩ := except_bind_eq_ok.mp done
  obtain ⟨size, measured, done⟩ := except_bind_eq_ok.mp done
  obtain ⟨last, filled, done⟩ := except_bind_eq_ok.mp done
  obtain rfl := Except.ok.inj done
  generalize named : (mapType (result.field column)).kind = kind at measured filled
  have bound : Measured result column kind result.rows size :=
    foldlM_range ⟨rfl, Nat.zero_le _⟩ (fun _ _ _ _ => measureRow_measures) le_rfl measured
  have start : FilledVariable result column kind 0 (.zeroed result.rows []) :=
    { bitmapLength := List.length_replicate, offsets := rfl, data := rfl
      valid := fun _ impossible => absurd impossible (Nat.not_lt_zero _)
      stored := fun _ impossible => absurd impossible (Nat.not_lt_zero _)
      unset := fun _ _ => bitAt_replicate .. }
  have filled : FilledVariable result column kind result.rows last :=
    foldlM_range start (fun _ _ _ => variableRow_filled) le_rfl filled
  have small (count : ℕ) (le : count ≤ result.rows) :
      (pieces result column kind count).length ≤ 2147483647 :=
    (pieces_length_le le).trans (bound.1 ▸ bound.2)
  have offset (count : ℕ) (le : count ≤ result.rows) :
      (last.pushOffset.offsets.getD count 0).toNat = (pieces result column kind count).length := by
    have entry : last.pushOffset.offsets[count]? =
        some (wrap 32 (pieces result column kind count).length) := by
      rw [filled.pushOffset, List.getElem?_map, List.getElem?_range (Nat.lt_succ_of_le le)]
      rfl
    rw [List.getD_eq_getElem?_getD, entry, Option.getD_some, wrap_length (small count le)]
  have slot : last.pushOffset.slot (mapType (result.field column)) row =
      piece result column kind row := by
    obtain ⟨more, total⟩ := Nat.exists_eq_add_of_le (Nat.succ_le_of_lt inside)
    obtain ⟨behind, whole⟩ := @pieces_append result column kind (row + 1) more
    have data : last.pushOffset.data = pieces result column kind (row + 1 + more) := by
      rw [ArrowArray.pushOffset, filled.data, total]
    rw [ArrowArray.slot, if_pos varies, offset row (by omega), offset (row + 1) (by omega), data,
      whole, pieces_succ, List.append_assoc, List.drop_left, List.length_append,
      Nat.add_sub_cancel_left, List.take_left]
  cases cell : result.value row column with
  | none =>
      have valid := filled.valid row inside
      rwa [cell] at valid
  | some data =>
      have valid := filled.valid row inside
      rw [cell] at valid
      refine ⟨valid, ?_⟩
      rw [slot, slotBytes, if_pos varies, named]
      exact filled.stored row inside data cell

theorem initializeColumn_shows
    (done : initializeColumn parseDouble result column = .ok array) {row : ℕ}
    (inside : row < result.rows) :
    array.ShowsCell parseDouble (result.field column) row (result.value row column) := by
  unfold initializeColumn at done
  dsimp only at done
  cases width : (mapType (result.field column)).isVariable with
  | true =>
      rw [width] at done
      exact initializeVariableColumn_shows width done inside
  | false =>
      rw [width] at done
      exact initializeFixedColumn_shows width done inside

/-- The data that convey a value in a format: what is sent or what is printed. -/
def PgValue.Conveyed (value : PgValue) : Format → Bytes → Prop
  | .binary, data => data = value.sent
  | .text, data => value.Prints data

/-- A cell conveys a value of the type of its column, or it is null. -/
def Conveys (field : ResultField) : Option PgValue → Option Bytes → Prop
  | some value, some data => value.typeOid = field.typeOid ∧ PgValue.Conveyed value field.format data
  | none, none => True
  | _, _ => False

theorem exportArrow_column {arrays : List ArrowArray}
    (done : exportArrow parseDouble result = .ok arrays) (inside : column < result.columns) :
    ∃ array, arrays[column]? = some array ∧
      initializeColumn parseDouble result column = .ok array := by
  unfold exportArrow at done
  obtain ⟨-, -, done⟩ := except_bind_eq_ok.mp done
  obtain ⟨-, -, done⟩ := except_bind_eq_ok.mp done
  generalize result.columns = columns at done inside
  have found (columns : List ℕ) (arrays : List ArrowArray) (place : ℕ) (column : ℕ)
      (done : columns.mapM (initializeColumn parseDouble result) = .ok arrays)
      (there : columns[place]? = some column) : ∃ array, arrays[place]? = some array ∧
        initializeColumn parseDouble result column = .ok array := by
    induction columns generalizing arrays place with
    | nil => cases there
    | cons head columns induction =>
        rw [List.mapM_cons] at done
        obtain ⟨array, here, done⟩ := except_bind_eq_ok.mp done
        obtain ⟨rest, later, done⟩ := except_bind_eq_ok.mp done
        obtain rfl := Except.ok.inj done
        cases place with
        | zero =>
            obtain rfl : head = column := by simpa using there
            exact ⟨array, rfl, here⟩
        | succ place => exact induction rest place later (by simpa using there)
  exact found _ arrays column column done (List.getElem?_range inside)

/-- Conveyed values are stored exactly or refused, but for a sent minus infinity. -/
theorem slotBytes_conveyed {field : ResultField} {value : PgValue} {data : Bytes}
    (typed : value.typeOid = field.typeOid) (conveyed : PgValue.Conveyed value field.format data) :
    Meets (slotBytes parseDouble field data) fun slot =>
      ¬(value.NegInfinite ∧ field.format = .binary) → value.Exact slot := by
  obtain ⟨typeOid, format⟩ := field
  obtain rfl := typed
  cases format with
  | text => exact (slotBytes_printed parseDouble conveyed).weaken fun _ exact _ => exact
  | binary =>
      obtain rfl := conveyed
      exact (slotBytes_sent parseDouble value).weaken fun _ exact finite =>
        exact fun negative => finite ⟨negative, rfl⟩

/-- The cell of a row holds the data of a value in a format. -/
def OwnedResult.Holds (result : OwnedResult) (row column : ℕ) (field : ResultField) (data : Bytes) :
    Prop :=
  row < result.rows ∧ column < result.columns ∧ result.field column = field ∧
    result.value row column = some data

/-- In every result that holds the data of a value, in any cell and with any other values, an
export that succeeds stores the value exactly: its row is valid and its slot is the exact one. -/
def ExportsExactly (value : PgValue) (format : Format) (data : Bytes) : Prop :=
  ∀ (result : OwnedResult) (row column : ℕ) (arrays : List ArrowArray),
    result.Holds row column { typeOid := value.typeOid, format } data →
    exportArrow parseDouble result = .ok arrays →
    ∃ array, arrays[column]? = some array ∧ bitAt array.bitmap row = true ∧
      value.Exact (array.slot (mapType (result.field column)) row)

variable (parseDouble) in
theorem exportsExactly_of_finite {value : PgValue} {format : Format} {data : Bytes}
    (conveyed : PgValue.Conveyed value format data) (finite : ¬(value.NegInfinite ∧ format = .binary)) :
    @ExportsExactly parseDouble value format data := by
  intro result row column arrays holds done
  obtain ⟨rowInside, columnInside, field, present⟩ := holds
  obtain ⟨array, found, filled⟩ := exportArrow_column done columnInside
  have shows := initializeColumn_shows filled rowInside
  rw [present, field] at shows
  refine ⟨array, found, shows.1, ?_⟩
  rw [field]
  exact (@slotBytes_conveyed parseDouble { typeOid := value.typeOid, format } value data rfl
    conveyed).result shows.2 finite

def singleResult (field : ResultField) (data : Bytes) : OwnedResult :=
  { status := .tuplesOk, rows := 1, columns := 1, fields := [field], values := [some data] }

theorem negInfinite_exported (parseDouble : Bytes → Option (ℤ × ℤ)) {value : PgValue}
    (negative : value.NegInfinite) :
    ∃ arrays, exportArrow parseDouble
      (singleResult { typeOid := value.typeOid, format := .binary } value.sent) = .ok arrays := by
  cases value with
  | date time =>
      cases time with
      | negInfinity => exact ⟨_, rfl⟩
      | _ => exact negative.elim
  | timestamp time =>
      cases time with
      | negInfinity => exact ⟨_, rfl⟩
      | _ => exact negative.elim
  | timestamptz time =>
      cases time with
      | negInfinity => exact ⟨_, rfl⟩
      | _ => exact negative.elim
  | _ => exact negative.elim

theorem not_exact_of_negInfinite {value : PgValue} (negative : value.NegInfinite) (slot : Bytes) :
    ¬value.Exact slot := by
  intro exact
  cases value with
  | date time =>
      cases time with
      | negInfinity => exact exact
      | _ => exact negative.elim
  | timestamp time =>
      cases time with
      | negInfinity => exact exact
      | _ => exact negative.elim
  | timestamptz time =>
      cases time with
      | negInfinity => exact exact
      | _ => exact negative.elim
  | _ => exact negative.elim

theorem not_exportsExactly (parseDouble : Bytes → Option (ℤ × ℤ)) {value : PgValue}
    (negative : value.NegInfinite) :
    ¬@ExportsExactly parseDouble value .binary value.sent := by
  intro claimed
  obtain ⟨arrays, done⟩ := negInfinite_exported parseDouble negative
  obtain ⟨array, -, -, exact⟩ := claimed _ 0 0 arrays
    ⟨Nat.one_pos, Nat.one_pos, rfl, rfl⟩ done
  exact not_exact_of_negInfinite negative _ exact

/-! ## Agreement of the formats -/

/-- The types that have an exact Arrow counterpart. -/
def exactTypes : List ℕ := [16, 21, 23, 20, 26, 2950, 17, 1082, 1114, 1184]

theorem mapType_format {typeOid : ℕ} (known : typeOid ∈ exactTypes) (first second : Format) :
    mapType { typeOid, format := first } = mapType { typeOid, format := second } := by
  simp only [exactTypes, List.mem_cons, List.not_mem_nil, or_false] at known
  rcases known with rfl | rfl | rfl | rfl | rfl | rfl | rfl | rfl | rfl | rfl <;> rfl

/-- Two forms of a value that are both stored are stored alike. -/
theorem slotBytes_agree {typeOid : ℕ} {first second : Format} {value : PgValue}
    {one two firstSlot secondSlot : Bytes} (typed : value.typeOid = typeOid)
    (conveyed : PgValue.Conveyed value first one) (also : PgValue.Conveyed value second two)
    (stored : slotBytes parseDouble { typeOid, format := first } one = .ok firstSlot)
    (other : slotBytes parseDouble { typeOid, format := second } two = .ok secondSlot) :
    firstSlot = secondSlot := by
  have exact := (@slotBytes_conveyed parseDouble { typeOid, format := first } value one typed
    conveyed).result stored
  have exact' := (@slotBytes_conveyed parseDouble { typeOid, format := second } value two typed
    also).result other
  by_cases negative : value.NegInfinite
  · have impossible (slot : Bytes) := not_exact_of_negInfinite negative slot
    cases first with
    | text => exact absurd (exact (by simp)) (impossible _)
    | binary =>
        cases second with
        | text => exact absurd (exact' (by simp)) (impossible _)
        | binary =>
            obtain rfl : one = two := Eq.trans conveyed (Eq.symm also)
            exact Except.ok.inj (stored.symm.trans other)
  · exact (exact fun both => negative both.1).unique (exact' fun both => negative both.1)

/-- Two columns of one type convey the same values, each in its format. -/
def Alike (first second : OwnedResult) (column : ℕ) : Prop :=
  first.rows = second.rows ∧ (first.field column).typeOid ∈ exactTypes ∧
    (first.field column).typeOid = (second.field column).typeOid ∧
    ∀ row < first.rows, ∃ value, Conveys (first.field column) value (first.value row column) ∧
      Conveys (second.field column) value (second.value row column)

/-- The bytes of alike columns agree cell by cell. -/
theorem Alike.slots {first second : OwnedResult} {column : ℕ} (alike : Alike first second column)
    {row : ℕ} (inside : row < first.rows) :
    (first.value row column = none ∧ second.value row column = none) ∨
      ∃ one two, first.value row column = some one ∧ second.value row column = some two ∧
        ∀ firstSlot secondSlot, slotBytes parseDouble (first.field column) one = .ok firstSlot →
          slotBytes parseDouble (second.field column) two = .ok secondSlot →
          firstSlot = secondSlot := by
  obtain ⟨-, -, typed, cells⟩ := alike
  obtain ⟨value, conveyed, also⟩ := cells row inside
  cases value with
  | none =>
      cases one : first.value row column with
      | none =>
          cases two : second.value row column with
          | none => exact .inl ⟨rfl, rfl⟩
          | some data => exact (two ▸ also : Conveys _ none (some data)).elim
      | some data => exact (one ▸ conveyed : Conveys _ none (some data)).elim
  | some value =>
      cases one : first.value row column with
      | none => exact (one ▸ conveyed : Conveys _ (some value) none).elim
      | some firstData =>
          cases two : second.value row column with
          | none => exact (two ▸ also : Conveys _ (some value) none).elim
          | some secondData =>
              rw [one] at conveyed
              rw [two] at also
              refine .inr ⟨firstData, secondData, rfl, rfl, fun _ _ stored other => ?_⟩
              generalize first.field column = left at typed conveyed stored
              generalize second.field column = right at typed also other
              obtain ⟨typeOid, format⟩ := left
              obtain ⟨_, format'⟩ := right
              obtain rfl := typed
              exact slotBytes_agree conveyed.1 conveyed.2 also.2 stored other

/-- Alike columns that are both filled have the same buffers. -/
theorem initializeColumn_agree {first second : OwnedResult}
    (alike : Alike first second column) {one two : ArrowArray}
    (done : initializeColumn parseDouble first column = .ok one)
    (also : initializeColumn parseDouble second column = .ok two) : one = two := by
  have slots {row : ℕ} (inside : row ∈ List.range first.rows) :=
    @Alike.slots parseDouble first second column alike row (List.mem_range.mp inside)
  obtain ⟨rows, known, typed, -⟩ := alike
  have type : mapType (first.field column) = mapType (second.field column) := by
    generalize first.field column = left at typed known
    generalize second.field column = right at typed
    obtain ⟨typeOid, format⟩ := left
    obtain ⟨_, format'⟩ := right
    obtain rfl := typed
    exact mapType_format known ..
  unfold initializeColumn at done also
  dsimp only at done also
  simp only [slotBytes] at slots
  rw [← type] at also slots
  cases width : (mapType (first.field column)).isVariable with
  | true =>
      rw [width] at done also slots
      simp only [if_true] at done also slots
      unfold initializeVariableColumn at done also
      rw [← rows] at also
      obtain ⟨-, -, done⟩ := except_bind_eq_ok.mp done
      obtain ⟨-, -, done⟩ := except_bind_eq_ok.mp done
      obtain ⟨-, -, done⟩ := except_bind_eq_ok.mp done
      obtain ⟨last, filled, done⟩ := except_bind_eq_ok.mp done
      obtain ⟨-, -, also⟩ := except_bind_eq_ok.mp also
      obtain ⟨-, -, also⟩ := except_bind_eq_ok.mp also
      obtain ⟨-, -, also⟩ := except_bind_eq_ok.mp also
      obtain ⟨last', filled', also⟩ := except_bind_eq_ok.mp also
      obtain rfl := Except.ok.inj done
      obtain rfl := Except.ok.inj also
      refine congrArg _ (foldlM_agree (fun row member state one two step step' => ?_) filled filled')
      unfold variableRow at step step'
      rcases slots member with ⟨null, null'⟩ | ⟨data, data', present, present', same⟩
      · rw [null] at step
        rw [null'] at step'
        exact Except.ok.inj (step.symm.trans step')
      · rw [present] at step
        rw [present'] at step'
        obtain ⟨bytes, found, step⟩ := except_bind_eq_ok.mp step
        obtain ⟨bytes', found', step'⟩ := except_bind_eq_ok.mp step'
        obtain rfl := same bytes bytes' found found'
        exact Except.ok.inj (step.symm.trans step')
  | false =>
      rw [width] at done also slots
      simp only [Bool.false_eq_true, if_false] at done also slots
      unfold initializeFixedColumn at done also
      rw [← rows] at also
      obtain ⟨size, sized, done⟩ := except_bind_eq_ok.mp done
      obtain ⟨size', sized', also⟩ := except_bind_eq_ok.mp also
      obtain rfl := Except.ok.inj (sized.symm.trans sized')
      refine foldlM_agree (fun row member state one two step step' => ?_) done also
      unfold fixedRow at step step'
      rcases slots member with ⟨null, null'⟩ | ⟨data, data', present, present', same⟩
      · rw [null] at step
        rw [null'] at step'
        exact Except.ok.inj (step.symm.trans step')
      · rw [present] at step
        rw [present'] at step'
        obtain ⟨bytes, found, step⟩ := except_bind_eq_ok.mp step
        obtain ⟨bytes', found', step'⟩ := except_bind_eq_ok.mp step'
        obtain rfl := same bytes bytes' found found'
        exact Except.ok.inj (step.symm.trans step')

/-! ## No overflow -/

def OwnedResult.ConveysValues (result : OwnedResult) : Prop :=
  ∀ row < result.rows, ∀ column < result.columns, ∃ value,
    Conveys (result.field column) value (result.value row column)

theorem require_meets {condition : Prop} [Decidable condition] :
    Meets (require condition) fun _ => True := by
  unfold require
  split
  · exact Meets.ok trivial
  · exact Meets.rejected

theorem checkedMultiply_meets (left right : ℕ) :
    Meets (checkedMultiply left right) fun _ => True := by
  unfold checkedMultiply
  split
  · exact Meets.rejected
  · exact Meets.ok trivial

theorem initializeColumn_meets (inside : column < result.columns) (values : result.ConveysValues) :
    Meets (initializeColumn parseDouble result column) fun _ => True := by
  have cells {row : ℕ} (member : row ∈ List.range result.rows) (data : Bytes)
      (present : result.value row column = some data) :
      Meets (slotBytes parseDouble (result.field column) data) fun _ => True := by
    obtain ⟨value, conveys⟩ := values row (List.mem_range.mp member) column inside
    rw [present] at conveys
    cases value with
    | none => exact conveys.elim
    | some value => exact (slotBytes_conveyed conveys.1 conveys.2).weaken fun _ _ => trivial
  unfold initializeColumn
  dsimp only
  simp only [slotBytes] at cells
  cases width : (mapType (result.field column)).isVariable with
  | true =>
      rw [width] at cells
      rw [if_pos rfl]
      unfold initializeVariableColumn
      refine require_meets.bind fun _ _ => (checkedMultiply_meets ..).bind fun _ _ => ?_
      refine (foldlM_meets (fun row member size => ?_) 0).bind fun _ _ => ?_
      · unfold measureRow
        split
        · exact Meets.ok trivial
        · rename_i data present
          exact (cells member data present).bind fun _ _ => require_meets.bind fun _ _ =>
            Meets.ok trivial
      · refine (foldlM_meets (fun row member array => ?_) _).bind fun _ _ => Meets.ok trivial
        unfold variableRow
        split
        · exact Meets.ok trivial
        · rename_i data present
          exact (cells member data present).bind fun _ _ => Meets.ok trivial
  | false =>
      rw [width] at cells
      rw [if_neg (by simp)]
      unfold initializeFixedColumn
      have sized : Meets (fixedDataSize result.rows (mapType (result.field column)))
          fun _ => True := by
        unfold fixedDataSize
        split
        · exact Meets.ok trivial
        · exact checkedMultiply_meets ..
      refine sized.bind fun _ _ => foldlM_meets (fun row member array => ?_) _
      unfold fixedRow
      split
      · exact Meets.ok trivial
      · rename_i data present
        exact (cells member data present).bind fun _ _ => Meets.ok trivial

/-- The export of conveyed values computes without overflow. -/
theorem exportArrow_meets (values : result.ConveysValues) :
    Meets (exportArrow parseDouble result) fun _ => True := by
  have columns (list : List ℕ) (inside : ∀ column ∈ list, column < result.columns) :
      Meets (list.mapM (initializeColumn parseDouble result)) fun _ => True := by
    induction list with
    | nil => exact Meets.ok trivial
    | cons column list induction =>
        rw [List.mapM_cons]
        refine (initializeColumn_meets (inside column List.mem_cons_self) values).bind fun _ _ => ?_
        exact (induction fun other member => inside other (List.mem_cons_of_mem _ member)).bind
          fun _ _ => Meets.ok trivial
  unfold exportArrow
  refine require_meets.bind fun _ _ => require_meets.bind fun _ _ => ?_
  exact columns _ fun column member => List.mem_range.mp member

/-- The binary and the text export of values are exact and agree: a value in a format is exported
exactly if and only if it is not minus infinity of a date or a timestamp in the binary format,
columns of one type that convey the same values have the same buffers whenever both results are
exported, and no signed computation overflows. -/
theorem arrow_values (parseDouble : Bytes → Option (ℤ × ℤ)) :
    (∀ (value : PgValue) (format : Format) (data : Bytes), PgValue.Conveyed value format data →
      (@ExportsExactly parseDouble value format data ↔
        ¬(value.NegInfinite ∧ format = .binary))) ∧
    (∀ (first second : OwnedResult) (column : ℕ) (one two : List ArrowArray),
      Alike first second column → column < first.columns → column < second.columns →
      exportArrow parseDouble first = .ok one → exportArrow parseDouble second = .ok two →
      one[column]? = two[column]?) ∧
    ∀ result : OwnedResult, result.ConveysValues → exportArrow parseDouble result ≠ .error .overflow := by
  refine ⟨fun value format data conveyed => ⟨fun exact infinite => ?_,
    exportsExactly_of_finite parseDouble conveyed⟩, fun first second column one two alike inside
    inside' done also => ?_, fun result values => (exportArrow_meets values).no_overflow⟩
  · obtain ⟨negative, rfl⟩ := infinite
    obtain rfl := conveyed
    exact not_exportsExactly parseDouble negative exact
  · obtain ⟨left, found, filled⟩ := exportArrow_column done inside
    obtain ⟨right, found', filled'⟩ := exportArrow_column also inside'
    rw [found, found', initializeColumn_agree alike filled filled']

/-- The last day before the epoch. -/
def yesterday : PgValue := .date (.finite ⟨-10958, by norm_num, by norm_num⟩)

/-- A day before the epoch in both formats: both columns hold minus one. -/
theorem arrow_values_yesterday :
    exportArrow (fun _ => none) (singleResult { typeOid := 1082, format := .binary } yesterday.sent) =
      exportArrow (fun _ => none) (singleResult { typeOid := 1082, format := .text }
        [0x31, 0x39, 0x36, 0x39, 0x2D, 0x31, 0x32, 0x2D, 0x33, 0x31]) ∧
    @ExportsExactly (fun _ => none) yesterday .binary yesterday.sent :=
  ⟨by decide +kernel, ((arrow_values fun _ => none).1 yesterday .binary yesterday.sent rfl).2
    fun negative => negative.1⟩

/-- Minus infinity of a date is exported in the binary format, as a date in the past. -/
theorem negInfinity_exported :
    ¬∀ (value : PgValue) (format : Format) (data : Bytes), PgValue.Conveyed value format data →
      @ExportsExactly (fun _ => none) value format data := by
  intro claimed
  exact @not_exportsExactly (fun _ => none) (.date .negInfinity) trivial
    (claimed (.date .negInfinity) .binary _ rfl)

end Arrow
end Embedded
end Postgamma
