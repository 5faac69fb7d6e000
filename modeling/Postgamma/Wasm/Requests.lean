import Mathlib.Tactic
import Postgamma.Library.Program
import Postgamma.Wasm.Wire

/-!
# The requests of the client

The client's own writer, and the size of a request that the connection's queues reserve before
anything is encoded. A string is counted without a copy of it; what is counted is what the
encoder writes, replacement characters included.
-/

namespace Postgamma
namespace Wasm

open Text (Bytes Utf16)
open LittleEndian (u32)

/-- The errors of the client's writer. -/
inductive RangeError where
  | expectedUint32
  | exceedsLimit
  deriving DecidableEq

/-- The loop of `utf8Length`, from the unit it looks at. -/
def utf8LengthFrom : Utf16 → ℕ → ℕ
  | [], bytes => bytes
  | [unit], bytes =>
      if unit.toNat < 0x80 then bytes + 1
      else if unit.toNat < 0x800 then bytes + 2
      else bytes + 3
  | unit :: next :: rest, bytes =>
      if unit.toNat < 0x80 then utf8LengthFrom (next :: rest) (bytes + 1)
      else if unit.toNat < 0x800 then utf8LengthFrom (next :: rest) (bytes + 2)
      else if Text.High unit ∧ Text.Low next then utf8LengthFrom rest (bytes + 4)
      else utf8LengthFrom (next :: rest) (bytes + 3)

def utf8Length (value : Utf16) : ℕ := utf8LengthFrom value 0

namespace Request

def raw (sent data : Bytes) : Except RangeError Bytes :=
  if commandBytes < sent.length + data.length then .error .exceedsLimit
  else .ok (sent ++ data)

/-- `u32`. -/
def word (sent : Bytes) (value : ℕ) : Except RangeError Bytes :=
  if 0xFFFFFFFF < value then .error .expectedUint32 else raw sent (u32 value)

def blob (sent data : Bytes) : Except RangeError Bytes :=
  (word sent data.length).bind fun sent => raw sent data

def text (sent : Bytes) (value : Utf16) : Except RangeError Bytes := blob sent (Text.encode value)

/-- The value of a parameter. -/
inductive ParameterValue where
  | null
  | string (value : Utf16)
  | bytes (value : Bytes)

/-- A parameter of a request. -/
structure Parameter where
  typeOid : ℕ
  format : Option ℕ
  value : ParameterValue

def ParameterValue.octets : ParameterValue → Bytes
  | null => []
  | string value => Text.encode value
  | bytes value => value

def ParameterValue.format : ParameterValue → ℕ
  | bytes _ => 1
  | _ => 0

def ParameterValue.isNull : ParameterValue → ℕ
  | null => 1
  | _ => 0

/-- What `writeExecute` writes of one parameter. -/
def parameter (sent : Bytes) (p : Parameter) : Except RangeError Bytes :=
  (word sent p.typeOid).bind fun sent =>
    (word sent (p.format.getD p.value.format)).bind fun sent =>
      (word sent p.value.isNull).bind fun sent => blob sent p.value.octets

/-- What `writeExecute` writes of the parameters. -/
def parameters (sent : Bytes) (given : List Parameter) : Except RangeError Bytes :=
  given.foldlM parameter sent

def ParameterValue.reserved : ParameterValue → ℕ
  | null => 0
  | string value => utf8Length value
  | bytes value => value.length

def parameterBytes (given : List Parameter) : ℕ :=
  given.foldl (fun sum p => sum + 16 + p.value.reserved) 0

/-- The options of a request that are sent. -/
structure ExecuteOptions where
  binary : Bool
  chunkRows : Option ℕ
  parameters : List Parameter

def writeExecute (sent : Bytes) (options : ExecuteOptions) : Except RangeError Bytes :=
  (word sent (if options.binary = true then 1 else 0)).bind fun sent =>
    (word sent (options.chunkRows.getD 0)).bind fun sent =>
      (word sent options.parameters.length).bind fun sent => parameters sent options.parameters

/-- The commands for which `enqueue` or `admit` reserves the bytes: `query` (`copyFrom` and `copyTo`
send one without parameters), `exec`, the `query` of a statement, and `prepare`. -/
inductive Command where
  | query (sql : Utf16) (options : ExecuteOptions)
  | script (sql : Utf16) (chunkRows : Option ℕ)
  | statementQuery (options : ExecuteOptions)
  | prepare (sql : Utf16) (types : List ℕ)

namespace Command

def op : Command → ℕ
  | query .. => 3
  | script .. => 18
  | statementQuery .. => 25
  | prepare .. => 24

/-- The bytes that admission reserves. -/
def reserved : Command → ℕ
  | query sql options => utf8Length sql + 64 + parameterBytes options.parameters
  | script sql _ => utf8Length sql + 64
  | statementQuery options => 64 + parameterBytes options.parameters
  | prepare sql types => utf8Length sql + types.length * 4 + 64

/-- What the command writes behind its handle. -/
def body (sent : Bytes) : Command → Except RangeError Bytes
  | query sql options => (text sent sql).bind fun sent => writeExecute sent options
  | script sql chunkRows => (text sent sql).bind fun sent => word sent (chunkRows.getD 0)
  | statementQuery options => writeExecute sent options
  | prepare sql types =>
      (text sent sql).bind fun sent => (word sent types.length).bind fun sent =>
        types.foldlM word sent

/-- What `call` sends: `VERSION`, the sequence number, the code, the handle, the rest. -/
def message (command : Command) (sequence : ℕ) (handle : ℕ × ℕ) : Except RangeError Bytes :=
  (word [] 10).bind fun sent =>
    (word sent sequence).bind fun sent =>
      (word sent command.op).bind fun sent =>
        (word sent handle.1).bind fun sent =>
          (word sent handle.2).bind fun sent => command.body sent

/-- The bytes that are reserved and not sent. -/
def spare : Command → ℕ
  | query .. => 28
  | script .. => 36
  | statementQuery .. => 32
  | prepare .. => 36

end Command

end Request

theorem utf8Size_eq (scalar : Char) :
    scalar.utf8Size = if scalar.toNat < 0x80 then 1 else if scalar.toNat < 0x800 then 2
      else if scalar.toNat < 0x10000 then 3 else 4 := by
  simp only [Char.utf8Size, UInt32.le_iff_toNat_le, Char.toNat_val]
  split_ifs with one below two below three below <;> simp at * <;> omega

theorem scalarOf_utf8Size (unit : UInt16) :
    (Text.scalarOf unit).utf8Size =
      if unit.toNat < 0x80 then 1 else if unit.toNat < 0x800 then 2 else 3 := by
  have bound := Text.unit_toNat_lt unit
  by_cases lone : Text.Surrogate unit
  · rw [Text.scalarOf, if_pos lone, if_neg (by omega), if_neg (by omega)]
    rfl
  · have value : (Char.ofNat unit.toNat).toNat = unit.toNat := by
      refine Text.char_toNat_ofNat ?_
      simp only [Nat.isValidChar]
      simp only [Text.Surrogate] at lone
      omega
    rw [Text.scalarOf, if_neg lone, utf8Size_eq, value, if_pos bound]

theorem pairScalar_utf8Size {high low : UInt16} (isHigh : Text.High high)
    (isLow : Text.Low low) : (Text.pairScalar high low).utf8Size = 4 := by
  have value : (Char.ofNat (0x10000 + (high.toNat - 0xD800) * 0x400 +
      (low.toNat - 0xDC00))).toNat =
      0x10000 + (high.toNat - 0xD800) * 0x400 + (low.toNat - 0xDC00) := by
    refine Text.char_toNat_ofNat ?_
    simp only [Nat.isValidChar]
    omega
  rw [utf8Size_eq, Text.pairScalar, value, if_neg (by omega), if_neg (by omega),
    if_neg (by omega)]

theorem utf8LengthFrom_eq (value : Utf16) (bytes : ℕ) :
    utf8LengthFrom value bytes = bytes + (Text.encode value).length := by
  induction value using Text.toScalars.induct generalizing bytes with
  | case1 => rfl
  | case2 unit =>
      have size := scalarOf_utf8Size unit
      simp only [utf8LengthFrom, Text.encode, Text.toScalars, List.flatMap_cons,
        List.flatMap_nil, List.append_nil, String.length_utf8EncodeChar, size]
      split_ifs <;> rfl
  | case3 first second rest paired induction =>
      have size := pairScalar_utf8Size paired.1 paired.2
      have large : 0x800 ≤ first.toNat := by
        have := paired.1.1
        omega
      rw [utf8LengthFrom, if_neg (by omega), if_neg (by omega), if_pos paired, induction]
      simp only [Text.encode, Text.toScalars, if_pos paired, List.flatMap_cons, List.length_append,
        String.length_utf8EncodeChar, size]
      omega
  | case4 first second rest single induction =>
      have size := scalarOf_utf8Size first
      simp only [Text.encode] at induction
      simp only [utf8LengthFrom, if_neg single, induction, Text.encode, Text.toScalars,
        List.flatMap_cons, List.length_append, String.length_utf8EncodeChar, size]
      split_ifs <;> omega

theorem utf8Length_eq (value : Utf16) : utf8Length value = (Text.encode value).length := by
  rw [utf8Length, utf8LengthFrom_eq, Nat.zero_add]

namespace Request

theorem raw_ok {sent data after : Bytes} (done : raw sent data = .ok after) :
    after.length = sent.length + data.length := by
  rw [raw] at done
  split_ifs at done
  rw [← Except.ok.inj done, List.length_append]

variable {sent after : Bytes}

theorem word_ok {value : ℕ} (done : word sent value = .ok after) :
    after.length = sent.length + 4 := by
  rw [word] at done
  split_ifs at done
  exact raw_ok done

theorem blob_ok {sent data after : Bytes} (done : blob sent data = .ok after) :
    after.length = sent.length + 4 + data.length := by
  obtain ⟨middle, first, second⟩ := except_bind_eq_ok.1 done
  rw [raw_ok second, word_ok first]

theorem parameter_ok {p : Parameter} (done : parameter sent p = .ok after) :
    after.length = sent.length + (16 + p.value.octets.length) := by
  obtain ⟨first, oid, rest⟩ := except_bind_eq_ok.1 done
  obtain ⟨second, format, rest⟩ := except_bind_eq_ok.1 rest
  obtain ⟨third, flag, value⟩ := except_bind_eq_ok.1 rest
  rw [blob_ok value, word_ok flag, word_ok format, word_ok oid]
  omega

theorem reserved_eq (value : ParameterValue) : value.reserved = value.octets.length := by
  cases value with
  | null => rfl
  | string value => exact utf8Length_eq value
  | bytes value => rfl

theorem parameterBytes_cons (p : Parameter) (given : List Parameter) :
    parameterBytes (p :: given) = 16 + p.value.octets.length + parameterBytes given := by
  have shifted : ∀ (given : List Parameter) (sum : ℕ),
      given.foldl (fun sum p => sum + 16 + p.value.reserved) sum = sum + parameterBytes given := by
    intro given
    induction given with
    | nil => exact fun sum => rfl
    | cons q given induction =>
        intro sum
        rw [parameterBytes, List.foldl_cons, List.foldl_cons, induction, induction]
        omega
  rw [parameterBytes, List.foldl_cons, shifted, reserved_eq, Nat.zero_add]

/-- The parameters of a request take exactly the bytes that were reserved for them. -/
theorem parameters_ok {given : List Parameter} (done : parameters sent given = .ok after) :
    after.length = sent.length + parameterBytes given := by
  induction given generalizing sent with
  | nil => rw [← Except.ok.inj done]; rfl
  | cons p given induction =>
      rw [parameters, List.foldlM_cons] at done
      obtain ⟨middle, first, rest⟩ := except_bind_eq_ok.1 done
      rw [induction rest, parameter_ok first, parameterBytes_cons]
      omega

theorem writeExecute_ok {options : ExecuteOptions} (done : writeExecute sent options = .ok after) :
    after.length = sent.length + 12 + parameterBytes options.parameters := by
  obtain ⟨first, binary, rest⟩ := except_bind_eq_ok.1 done
  obtain ⟨second, rows, rest⟩ := except_bind_eq_ok.1 rest
  obtain ⟨third, count, rest⟩ := except_bind_eq_ok.1 rest
  rw [parameters_ok rest, word_ok count, word_ok rows, word_ok binary]

theorem types_ok {types : List ℕ} (done : types.foldlM word sent = .ok after) :
    after.length = sent.length + types.length * 4 := by
  induction types generalizing sent with
  | nil => rw [← Except.ok.inj done]; rfl
  | cons type types induction =>
      rw [List.foldlM_cons] at done
      obtain ⟨middle, first, rest⟩ := except_bind_eq_ok.1 done
      rw [induction rest, word_ok first, List.length_cons]
      omega

theorem body_ok {command : Command} (done : command.body sent = .ok after) :
    after.length + command.spare + 20 = sent.length + command.reserved := by
  cases command with
  | query sql options =>
      obtain ⟨middle, first, rest⟩ := except_bind_eq_ok.1 done
      rw [writeExecute_ok rest, blob_ok first, Command.reserved, utf8Length_eq, Command.spare]
      omega
  | script sql chunkRows =>
      obtain ⟨middle, first, rest⟩ := except_bind_eq_ok.1 done
      rw [word_ok rest, blob_ok first, Command.reserved, utf8Length_eq, Command.spare]
      omega
  | statementQuery options =>
      rw [writeExecute_ok done, Command.reserved, Command.spare]
      omega
  | prepare sql types =>
      obtain ⟨middle, first, rest⟩ := except_bind_eq_ok.1 done
      obtain ⟨counted, second, rest⟩ := except_bind_eq_ok.1 rest
      rw [types_ok rest, word_ok second, blob_ok first, Command.reserved, utf8Length_eq,
        Command.spare]
      omega

theorem message_ok {command : Command} {sequence : ℕ} {handle : ℕ × ℕ} {message : Bytes}
    (done : command.message sequence handle = .ok message) :
    message.length + command.spare = command.reserved := by
  obtain ⟨first, versions, rest⟩ := except_bind_eq_ok.1 done
  obtain ⟨second, sequences, rest⟩ := except_bind_eq_ok.1 rest
  obtain ⟨third, ops, rest⟩ := except_bind_eq_ok.1 rest
  obtain ⟨fourth, ids, rest⟩ := except_bind_eq_ok.1 rest
  obtain ⟨fifth, generations, rest⟩ := except_bind_eq_ok.1 rest
  have total := body_ok rest
  rw [word_ok generations, word_ok ids, word_ok ops, word_ok sequences, word_ok versions] at total
  simp only [List.length_nil] at total
  omega

end Request

/-- A text is counted by the bytes of its encoding, and the budget of a command is the size of its
message and a spare of the command's kind. -/
theorem budget_covers_message (value : Utf16) :
    utf8Length value = (Text.encode value).length ∧
    ∀ (command : Request.Command) (sequence : ℕ) (handle : ℕ × ℕ) (message : Bytes),
      command.message sequence handle = .ok message →
      command.reserved = message.length + command.spare := by
  refine ⟨utf8Length_eq value, fun command sequence handle message done => ?_⟩
  rw [Request.message_ok done]

/-- `"SELECT 1"`. -/
def selectOne : Request.Command :=
  .query [83, 69, 76, 69, 67, 84, 32, 49] { binary := false, chunkRows := none, parameters := [] }

/-- The budget is not the size: 72 bytes are reserved, 44 are sent. -/
theorem budget_exceeds_message : ∃ message : Bytes, selectOne.message 1 (2, 1) = .ok message ∧
    message.length = 44 ∧ selectOne.reserved = 72 :=
  ⟨_, rfl, rfl, rfl⟩

theorem budget_covers_message_selectOne : selectOne.reserved = 44 + selectOne.spare :=
  (budget_covers_message []).2 selectOne 1 (2, 1) _ rfl

end Wasm
end Postgamma
