import Mathlib
import Postgamma.Library.Text

/-!
# Result budgets of the server and of the client

The server charges every encoded `DataRow` body while it streams a result set and starts again at
chunk boundaries; the client charges the decoded rows of each result it is handed.  Both are
embedded with the arithmetic of `size_t` made explicit: an operation whose value leaves the range
`0 .. sizeMax` stops with `wrapped` instead of continuing with a reduced value.
-/

namespace Postgamma.Runtime

open Text (Bytes)

/-- Error codes of the two `ereport` calls. -/
inductive ErrorCode where
  | internalError
  | programLimitExceeded
  deriving DecidableEq

/-- An `ereport(ERROR, ...)`. -/
structure ErrorReport where
  code : ErrorCode
  message : String
  detail : Option String
  deriving DecidableEq

/-- Why a budget computation stops. -/
inductive BudgetHalt where
  | reported (report : ErrorReport)
  /-- A `size_t` operation left its range. -/
  | wrapped
  deriving DecidableEq

/-- `PostgammaKernelResultPolicy`. -/
structure ResultPolicy where
  requestGeneration : ℕ
  deliveryMode : ℕ
  targetChunkRows : ℕ
  resultBufferLimit : ℕ
  maximumValueSize : ℕ
  deriving DecidableEq

namespace ResultPolicy

/-- `POSTGAMMA_KERNEL_DELIVERY_MATERIALIZED`. -/
def materialized : ℕ := 0

/-- `POSTGAMMA_KERNEL_DELIVERY_CHUNKED`. -/
def chunked : ℕ := 1

/-- `POSTGAMMA_KERNEL_RESULT_POLICY_INIT`. -/
def initial : ResultPolicy :=
  { requestGeneration := 0, deliveryMode := materialized, targetChunkRows := 0
    resultBufferLimit := 0, maximumValueSize := 0 }

/-- The policies that `postgamma_postgres_result_budget_begin` refuses. -/
def Refused (policy : ResultPolicy) : Prop :=
  (policy.deliveryMode ≠ materialized ∧ policy.deliveryMode ≠ chunked) ∨
    policy.resultBufferLimit = 0 ∨ policy.maximumValueSize = 0 ∨
    policy.maximumValueSize > policy.resultBufferLimit ∨
    (policy.deliveryMode = materialized ∧ policy.targetChunkRows ≠ 0) ∨
    (policy.deliveryMode = chunked ∧ policy.targetChunkRows = 0)

instance (policy : ResultPolicy) : Decidable policy.Refused := by
  unfold Refused
  infer_instance

/-- `postgamma_private_result_policy_valid`. -/
def Valid (policy : ResultPolicy) : Prop :=
  (policy.deliveryMode = materialized ∨ policy.deliveryMode = chunked) ∧
    policy.targetChunkRows ≤ 2 ^ 31 - 1 ∧
    policy.resultBufferLimit ≠ 0 ∧ policy.maximumValueSize ≠ 0 ∧
    policy.maximumValueSize ≤ policy.resultBufferLimit ∧
    ((policy.deliveryMode = materialized ∧ policy.targetChunkRows = 0) ∨
      (policy.deliveryMode = chunked ∧ policy.targetChunkRows ≠ 0))

instance (policy : ResultPolicy) : Decidable policy.Valid := by
  unfold Valid
  infer_instance

theorem Valid.not_refused {policy : ResultPolicy} (valid : policy.Valid) : ¬ policy.Refused := by
  simp only [Valid, Refused, materialized, chunked] at valid ⊢
  omega

end ResultPolicy

/-- Addition of `size_t` values. -/
def sizeAdd (sizeMax left right : ℕ) : Except BudgetHalt ℕ :=
  if left + right ≤ sizeMax then .ok (left + right) else .error .wrapped

/-- Subtraction of `size_t` values. -/
def sizeSub (left right : ℕ) : Except BudgetHalt ℕ :=
  if right ≤ left then .ok (left - right) else .error .wrapped

/-- Multiplication of `size_t` values. -/
def sizeMul (sizeMax left right : ℕ) : Except BudgetHalt ℕ :=
  if left * right ≤ sizeMax then .ok (left * right) else .error .wrapped

theorem ok_bind {α β : Type} (value : α) (next : α → Except BudgetHalt β) :
    (Except.ok value >>= next) = next value := rfl

theorem error_bind {α β : Type} (halt : BudgetHalt) (next : α → Except BudgetHalt β) :
    (Except.error halt >>= next) = .error halt := rfl

theorem sizeAdd_ok {sizeMax left right : ℕ} (fits : left + right ≤ sizeMax) :
    sizeAdd sizeMax left right = .ok (left + right) := if_pos fits

theorem sizeSub_ok {left right : ℕ} (fits : right ≤ left) :
    sizeSub left right = .ok (left - right) := if_pos fits

theorem sizeMul_ok {sizeMax left right : ℕ} (fits : left * right ≤ sizeMax) :
    sizeMul sizeMax left right = .ok (left * right) := if_pos fits

/-- The result budget of a client session. -/
structure BudgetSession where
  resultBudgetActive : Bool
  resultBudgetBytes : ℕ
  /-- A `uint32_t` counter. -/
  resultBudgetRows : ℕ
  resultPolicy : ResultPolicy
  deriving DecidableEq

namespace BudgetSession

def malformed : ErrorReport :=
  { code := .internalError, message := "malformed embedded DataRow result", detail := none }

def invalidPolicy : ErrorReport :=
  { code := .internalError, message := "invalid embedded result policy", detail := none }

def unreadablePolicy (reason : String) : ErrorReport :=
  { code := .internalError
    message := "could not read the embedded result policy: " ++ reason
    detail := none }

def valueTooLarge (size limit : ℕ) : ErrorReport :=
  { code := .programLimitExceeded
    message := "embedded result value exceeds maximum_value_size"
    detail := some ("Value size is " ++ toString size ++
      " bytes; the configured limit is " ++ toString limit ++ " bytes.") }

def resultTooLarge (rowCharge bytes limit : ℕ) : ErrorReport :=
  { code := .programLimitExceeded
    message := "embedded result exceeds result_buffer_limit"
    detail := some ("The next encoded row requires " ++ toString rowCharge ++ " bytes; " ++
      toString bytes ++ " of " ++ toString limit ++ " bytes are already budgeted.") }

/-- Session fields that every begin resets first. -/
def reset : BudgetSession :=
  { resultBudgetActive := false, resultBudgetBytes := 0, resultBudgetRows := 0
    resultPolicy := .initial }

/-- `postgamma_postgres_result_budget_begin`; the argument is what the bound transport answers,
or `none` without a transport. -/
def resultBudgetBegin (transport : Option (Except String ResultPolicy)) :
    Except BudgetHalt BudgetSession :=
  match transport with
  | none => .ok reset
  | some (.error reason) => .error (.reported (unreadablePolicy reason))
  | some (.ok policy) =>
      if policy.requestGeneration = 0 then .ok reset
      else if policy.Refused then .error (.reported invalidPolicy)
      else .ok { reset with resultPolicy := policy, resultBudgetActive := true }

/-- The byte at an offset that the caller has checked. -/
def byteAt (bytes : Bytes) (offset : ℕ) : ℕ := (bytes.getD offset 0).toNat

/-- Two bytes, most significant first. -/
def networkShort (bytes : Bytes) (offset : ℕ) : ℕ :=
  byteAt bytes offset * 2 ^ 8 + byteAt bytes (offset + 1)

/-- Four bytes, most significant first. -/
def networkWord (bytes : Bytes) (offset : ℕ) : ℕ :=
  byteAt bytes offset * 2 ^ 24 + byteAt bytes (offset + 1) * 2 ^ 16 +
    byteAt bytes (offset + 2) * 2 ^ 8 + byteAt bytes (offset + 3)

/-- The field length minus one, as the word on the wire has it. -/
def nullLength : ℕ := 0xFFFFFFFF

/-- Words from here on are negative as an `int32_t`. -/
def negativeLength : ℕ := 0x80000000

/-- The column loop of `postgamma_postgres_result_budget_check`, from an offset to the offset
behind the last column. -/
def scanColumns (sizeMax maximumValueSize : ℕ) (bytes : Bytes) : ℕ → ℕ → Except BudgetHalt ℕ
  | 0, offset => .ok offset
  | columns + 1, offset => do
      let left ← sizeSub bytes.length offset
      if left < 4 then .error (.reported malformed)
      else
        let raw := networkWord bytes offset
        let offset ← sizeAdd sizeMax offset 4
        -- a field length of minus one is a NULL without a value
        if raw = nullLength then scanColumns sizeMax maximumValueSize bytes columns offset
        else
          let left ← sizeSub bytes.length offset
          if negativeLength ≤ raw ∨ left < raw then .error (.reported malformed)
          else if maximumValueSize < raw then
            .error (.reported (valueTooLarge raw maximumValueSize))
          else
            let offset ← sizeAdd sizeMax offset raw
            scanColumns sizeMax maximumValueSize bytes columns offset

/-- A session whose chunk is full starts again with an empty one. -/
def turn (session : BudgetSession) : BudgetSession :=
  if session.resultPolicy.deliveryMode = ResultPolicy.chunked ∧
      session.resultBudgetRows = session.resultPolicy.targetChunkRows then
    { session with resultBudgetBytes := 0, resultBudgetRows := 0 }
  else session

/-- Count a row of the given charge. -/
def counted (session : BudgetSession) (rowCharge : ℕ) : BudgetSession :=
  { session with
    resultBudgetBytes := session.resultBudgetBytes + rowCharge
    resultBudgetRows := (session.resultBudgetRows + 1) % 2 ^ 32 }

/-- Charge a row against the buffer limit. -/
def charge (sizeMax : ℕ) (session : BudgetSession) (rowCharge : ℕ) :
    Except BudgetHalt BudgetSession :=
  let limit := session.resultPolicy.resultBufferLimit
  let tooLarge := BudgetHalt.reported (resultTooLarge rowCharge session.resultBudgetBytes limit)
  if limit < rowCharge then .error tooLarge
  else do
    let left ← sizeSub limit rowCharge
    if left < session.resultBudgetBytes then .error tooLarge
    else
      let _ ← sizeAdd sizeMax session.resultBudgetBytes rowCharge
      .ok (session.counted rowCharge)

/-- `postgamma_postgres_result_budget_check`; `none` is a null data pointer. -/
def resultBudgetCheck (sizeMax : ℕ) (session : BudgetSession) (data : Option Bytes) :
    Except BudgetHalt BudgetSession :=
  if session.resultBudgetActive = false then .ok session
  else
    match data with
    | none => .error (.reported malformed)
    | some bytes =>
        if bytes.length < 2 then .error (.reported malformed)
        else do
          let offset ← scanColumns sizeMax session.resultPolicy.maximumValueSize bytes
            (networkShort bytes 0) 2
          if offset ≠ bytes.length then .error (.reported malformed)
          else
            let most ← sizeSub sizeMax 5
            if most < bytes.length then .error (.reported malformed)
            else
              let rowCharge ← sizeAdd sizeMax bytes.length 5
              session.turn.charge sizeMax rowCharge

end BudgetSession

/-- `PostgammaPrivateLibpqStatus`, as far as the budget check returns it. -/
inductive LibpqStatus where
  | ok
  | invalidArgument
  | protocolError
  deriving DecidableEq

/-- What the budget check reads of a `PGresult`. -/
structure PgResult where
  /-- `PQresultStatus` is `PGRES_TUPLES_CHUNK`. -/
  tuplesChunk : Bool
  /-- `PQntuples`. -/
  ntuples : ℤ
  /-- `PQnfields`. -/
  nfields : ℤ
  /-- `PQgetisnull`. -/
  getisnull : ℕ → ℕ → Bool
  /-- `PQgetlength`. -/
  getlength : ℕ → ℕ → ℤ

namespace PgResult

/-- Why the client's loops stop early: with a status, or because an operation wrapped. -/
abbrev Refusal := Except BudgetHalt (Except LibpqStatus ℕ)

/-- One column of the inner loop. -/
def columnStep (sizeMax : ℕ) (policy : ResultPolicy) (source : PgResult) (row column : ℕ)
    (rowBytes : ℕ) : Refusal :=
  if source.getisnull row column then .ok (.ok rowBytes)
  else do
    let length := source.getlength row column
    if length < 0 ∨ (policy.maximumValueSize : ℤ) < length then .ok (.error .protocolError)
    else
      let left ← sizeSub sizeMax rowBytes
      if left < length.toNat then .ok (.error .protocolError)
      else
        let rowBytes ← sizeAdd sizeMax rowBytes length.toNat
        .ok (.ok rowBytes)

/-- The inner loop over the columns of a row. -/
def columnLoop (sizeMax : ℕ) (policy : ResultPolicy) (source : PgResult) (row : ℕ) :
    List ℕ → ℕ → Refusal
  | [], rowBytes => .ok (.ok rowBytes)
  | column :: columns, rowBytes => do
      match ← columnStep sizeMax policy source row column rowBytes with
      | .ok rowBytes => columnLoop sizeMax policy source row columns rowBytes
      | .error status => .ok (.error status)

/-- One row of the outer loop. -/
def rowStep (sizeMax : ℕ) (policy : ResultPolicy) (source : PgResult) (row resultBytes : ℕ) :
    Refusal := do
  let left ← sizeSub sizeMax 7
  if left / 4 < source.nfields.toNat then .ok (.error .protocolError)
  else
    let lengths ← sizeMul sizeMax source.nfields.toNat 4
    let rowBytes ← sizeAdd sizeMax 7 lengths
    match ← columnLoop sizeMax policy source row (List.range source.nfields.toNat) rowBytes with
    | .error status => .ok (.error status)
    | .ok rowBytes =>
        if policy.resultBufferLimit < rowBytes then .ok (.error .protocolError)
        else
          let left ← sizeSub policy.resultBufferLimit rowBytes
          if left < resultBytes then .ok (.error .protocolError)
          else
            let resultBytes ← sizeAdd sizeMax resultBytes rowBytes
            .ok (.ok resultBytes)

/-- The outer loop over the rows. -/
def rowLoop (sizeMax : ℕ) (policy : ResultPolicy) (source : PgResult) : List ℕ → ℕ → Refusal
  | [], resultBytes => .ok (.ok resultBytes)
  | row :: rows, resultBytes => do
      match ← rowStep sizeMax policy source row resultBytes with
      | .ok resultBytes => rowLoop sizeMax policy source rows resultBytes
      | .error status => .ok (.error status)

/-- `postgamma_private_check_owned_result_budget`; `none` is a null policy. -/
def checkOwnedResultBudget (sizeMax : ℕ) (source : PgResult) (policy : Option ResultPolicy) :
    Except BudgetHalt LibpqStatus :=
  match policy with
  | none => .ok .ok
  | some policy =>
      if ¬ policy.Valid then .ok .invalidArgument
      else if source.ntuples < 0 ∨ source.nfields < 0 then .ok .protocolError
      else if policy.deliveryMode = ResultPolicy.chunked ∧ source.tuplesChunk = true ∧
          (policy.targetChunkRows : ℤ) < source.ntuples then .ok .protocolError
      else do
        match ← rowLoop sizeMax policy source (List.range source.ntuples.toNat) 0 with
        | .ok _ => .ok .ok
        | .error status => .ok status

end PgResult

/-! ## Rows -/

/-- The values of one row; `none` is NULL. -/
abbrev RowValues := List (Option Bytes)

namespace RowValues

/-- Four bytes of a value, most significant first. -/
def wordBytes (value : ℕ) : Bytes :=
  [UInt8.ofNat (value / 2 ^ 24), UInt8.ofNat (value / 2 ^ 16), UInt8.ofNat (value / 2 ^ 8),
    UInt8.ofNat value]

/-- A length-prefixed value; NULL is the length minus one. -/
def encodeValue : Option Bytes → Bytes
  | none => wordBytes BudgetSession.nullLength
  | some value => wordBytes value.length ++ value

/-- The body of a `DataRow` message: a column count and that many values. -/
def encode (values : RowValues) : Bytes :=
  [UInt8.ofNat (values.length / 2 ^ 8), UInt8.ofNat values.length] ++ values.flatMap encodeValue

/-- Bytes that a value occupies behind its length. -/
def valueSize (value : Option Bytes) : ℕ := value.elim 0 List.length

/-- What the wire can carry: at most `65535` columns with `int32_t` lengths. -/
def Encodable (values : RowValues) : Prop :=
  values.length < 2 ^ 16 ∧ ∀ value ∈ values, valueSize value < BudgetSession.negativeLength

instance (values : RowValues) : Decidable values.Encodable := inferInstanceAs (Decidable (_ ∧ _))

/-- Encoded size of a row with its message header. -/
def size (values : RowValues) : ℕ := 7 + 4 * values.length + (values.map valueSize).sum

/-- Every value is at most `limit` bytes. -/
def Within (limit : ℕ) (values : RowValues) : Prop := ∀ value ∈ values, valueSize value ≤ limit

instance (limit : ℕ) (values : RowValues) : Decidable (Within limit values) :=
  inferInstanceAs (Decidable (∀ _ ∈ values, _))

theorem encodeValue_length (value : Option Bytes) :
    (encodeValue value).length = 4 + valueSize value := by
  cases value with
  | none => rfl
  | some value => simp [encodeValue, valueSize, wordBytes, Nat.add_comm 4]

theorem flatMap_encodeValue_length (values : RowValues) :
    (values.flatMap encodeValue).length = 4 * values.length + (values.map valueSize).sum := by
  induction values with
  | nil => rfl
  | cons value values induction =>
      simp only [List.flatMap_cons, List.length_append, encodeValue_length, induction,
        List.length_cons, List.map_cons, List.sum_cons]
      ring

theorem encode_length (values : RowValues) : (encode values).length + 5 = size values := by
  simp only [encode, List.length_append, List.length_cons, List.length_nil,
    flatMap_encodeValue_length, size]
  ring

end RowValues

namespace BudgetSession

open RowValues

theorem byteAt_append (front rest : Bytes) (offset : ℕ) :
    byteAt (front ++ rest) (front.length + offset) = byteAt rest offset := by
  rw [byteAt, byteAt, List.getD_append_right _ _ _ _ (Nat.le_add_right _ _),
    Nat.add_sub_cancel_left]

theorem nullLength_lt : nullLength < 0x100000000 := by decide

theorem negativeLength_le : negativeLength ≤ nullLength := by decide

/-- A word behind a known front. -/
theorem networkWord_append (front rest : Bytes) {value : ℕ} (small : value < 0x100000000) :
    networkWord (front ++ (wordBytes value ++ rest)) front.length = value := by
  have first := byteAt_append front (wordBytes value ++ rest) 0
  rw [Nat.add_zero] at first
  rw [networkWord, first, byteAt_append, byteAt_append, byteAt_append]
  simp only [byteAt, wordBytes, List.cons_append, List.nil_append, List.getD_cons_zero,
    List.getD_cons_succ, UInt8.toNat_ofNat']
  omega

theorem uint8_ofNat_toNat (byte : UInt8) {value : ℕ} (same : value % 2 ^ 8 = byte.toNat) :
    UInt8.ofNat value = byte := by
  apply UInt8.toNat_inj.mp
  simpa using same

theorem wordBytes_networkWord (front rest : Bytes) (a b c d : UInt8) :
    wordBytes (networkWord (front ++ (a :: b :: c :: d :: rest)) front.length) = [a, b, c, d] := by
  have first := byteAt_append front (a :: b :: c :: d :: rest) 0
  rw [Nat.add_zero] at first
  rw [networkWord, first, byteAt_append, byteAt_append, byteAt_append]
  simp only [byteAt, List.getD_cons_zero, List.getD_cons_succ]
  have := a.toNat_lt
  have := b.toNat_lt
  have := c.toNat_lt
  have := d.toNat_lt
  simp only [wordBytes, List.cons.injEq, and_true]
  refine ⟨?_, ?_, ?_, ?_⟩ <;> apply uint8_ofNat_toNat <;> omega

/-- Bytes split at an offset inside them. -/
theorem split_at {bytes : Bytes} {offset : ℕ} (inside : offset ≤ bytes.length) :
    ∃ front rest, bytes = front ++ rest ∧ front.length = offset :=
  ⟨bytes.take offset, bytes.drop offset, (List.take_append_drop _ _).symm,
    List.length_take_of_le inside⟩

section scan

variable {sizeMax : ℕ} (maximumValueSize : ℕ)

/-- One turn of the column loop on a well-formed value. -/
theorem scanColumns_value (value : Option Bytes) (front rest : Bytes) (columns : ℕ)
    (fits : (front ++ (encodeValue value ++ rest)).length ≤ sizeMax)
    (length : valueSize value < BudgetSession.negativeLength) :
    scanColumns sizeMax maximumValueSize (front ++ (encodeValue value ++ rest)) (columns + 1)
        front.length =
      if maximumValueSize < valueSize value then
        .error (.reported (valueTooLarge (valueSize value) maximumValueSize))
      else
        scanColumns sizeMax maximumValueSize (front ++ (encodeValue value ++ rest)) columns
          (front ++ encodeValue value).length := by
  have total : (front ++ (encodeValue value ++ rest)).length =
      front.length + (4 + valueSize value + rest.length) := by
    rw [List.length_append, List.length_append, encodeValue_length]
  have arrived : (front ++ encodeValue value).length = front.length + (4 + valueSize value) := by
    rw [List.length_append, encodeValue_length]
  rw [scanColumns, sizeSub_ok (by omega), ok_bind, if_neg (by omega), sizeAdd_ok (by omega),
    ok_bind, arrived]
  cases value with
  | none =>
      have null : networkWord (front ++ (encodeValue none ++ rest)) front.length = nullLength :=
        networkWord_append front rest nullLength_lt
      rw [if_pos null, if_neg (by simp [valueSize])]
      rfl
  | some value =>
      have size : valueSize (some value) = value.length := rfl
      have below := negativeLength_le
      have representable := nullLength_lt
      rw [size] at length total ⊢
      have word : networkWord (front ++ (encodeValue (some value) ++ rest)) front.length =
          value.length := by
        rw [encodeValue, List.append_assoc]
        exact networkWord_append front (value ++ rest) (by omega)
      rw [word, if_neg (by omega), sizeSub_ok (by omega), ok_bind, if_neg (by omega)]
      split_ifs with large
      · rfl
      · rw [sizeAdd_ok (by omega), ok_bind, Nat.add_assoc]

/-- The column loop on a well-formed sequence of values. -/
theorem scanColumns_encoded (values : RowValues) (front rest : Bytes)
    (fits : (front ++ (values.flatMap encodeValue ++ rest)).length ≤ sizeMax)
    (lengths : ∀ value ∈ values, valueSize value < BudgetSession.negativeLength) :
    (Within maximumValueSize values ∧
        scanColumns sizeMax maximumValueSize (front ++ (values.flatMap encodeValue ++ rest))
          values.length front.length = .ok (front ++ values.flatMap encodeValue).length) ∨
      (¬ Within maximumValueSize values ∧
        ∃ report, scanColumns sizeMax maximumValueSize
          (front ++ (values.flatMap encodeValue ++ rest)) values.length front.length =
            .error (.reported report)) := by
  induction values generalizing front with
  | nil => exact Or.inl ⟨by simp [Within], by simp [scanColumns]⟩
  | cons value values induction =>
      have tail := induction (front ++ encodeValue value)
        (by simpa only [List.flatMap_cons, List.append_assoc] using fits)
        (fun other member => lengths other (List.mem_cons_of_mem _ member))
      simp only [List.flatMap_cons, List.append_assoc] at fits tail ⊢
      rw [List.length_cons, scanColumns_value maximumValueSize value front _ values.length fits
        (lengths value List.mem_cons_self)]
      split_ifs with large
      · right
        exact ⟨fun within => absurd (within value List.mem_cons_self) (by omega), _, rfl⟩
      · rcases tail with ⟨within, scanned⟩ | ⟨beyond, scanned⟩
        · left
          refine ⟨?_, scanned⟩
          intro other member
          rcases List.mem_cons.mp member with rfl | member
          · omega
          · exact within other member
        · right
          exact ⟨fun within => beyond fun other member =>
            within other (List.mem_cons_of_mem _ member), scanned⟩

theorem drop_eq_wordBytes {bytes : Bytes} {offset : ℕ} (room : offset + 4 ≤ bytes.length) :
    bytes.drop offset = wordBytes (networkWord bytes offset) ++ bytes.drop (offset + 4) := by
  obtain ⟨front, rest, rfl, rfl⟩ := split_at (show offset ≤ bytes.length by omega)
  rw [List.length_append] at room
  obtain ⟨a, b, c, d, rest, rfl⟩ : ∃ a b c d tail, rest = a :: b :: c :: d :: tail := by
    rcases rest with _ | ⟨a, _ | ⟨b, _ | ⟨c, _ | ⟨d, tail⟩⟩⟩⟩
    · simp at room
    · simp at room
    · simp at room
    · simp at room
    · exact ⟨a, b, c, d, tail, rfl⟩
  rw [wordBytes_networkWord, List.drop_left, List.drop_append]
  simp

/-- What the column loop has read when it answers; no offset wraps. -/
def ScanYields (bytes : Bytes) (columns offset : ℕ) : Except BudgetHalt ℕ → Prop
  | .ok final => final ≤ bytes.length ∧ ∃ values : RowValues, values.length = columns ∧
      (∀ value ∈ values, valueSize value < BudgetSession.negativeLength) ∧
        bytes.drop offset = values.flatMap encodeValue ++ bytes.drop final
  | .error halt => halt ≠ .wrapped

/-- A value in front of the columns that a shorter loop has read. -/
theorem ScanYields.cons {bytes : Bytes} {columns offset : ℕ} {answer : Except BudgetHalt ℕ}
    (value : Option Bytes) (length : valueSize value < BudgetSession.negativeLength)
    (split : bytes.drop offset =
      encodeValue value ++ bytes.drop (offset + (encodeValue value).length))
    (tail : ScanYields bytes columns (offset + (encodeValue value).length) answer) :
    ScanYields bytes (columns + 1) offset answer := by
  cases answer with
  | error halt => exact tail
  | ok final =>
      obtain ⟨inside, values, count, lengths, rest⟩ := tail
      refine ⟨inside, value :: values, by simp [count], ?_, ?_⟩
      · intro other member
        rcases List.mem_cons.mp member with rfl | member
        · exact length
        · exact lengths other member
      · rw [split, rest, List.flatMap_cons, List.append_assoc]

theorem scanColumns_yields {bytes : Bytes} (fits : bytes.length ≤ sizeMax) (columns : ℕ)
    {offset : ℕ} (inside : offset ≤ bytes.length) :
    ScanYields bytes columns offset
      (scanColumns sizeMax maximumValueSize bytes columns offset) := by
  induction columns generalizing offset with
  | zero => exact ⟨inside, [], rfl, by simp, rfl⟩
  | succ columns induction =>
      rw [scanColumns, sizeSub_ok inside, ok_bind]
      by_cases short : bytes.length - offset < 4
      · rw [if_pos short]
        simp [ScanYields]
      have word := drop_eq_wordBytes (show offset + 4 ≤ bytes.length by omega)
      rw [if_neg short, sizeAdd_ok (by omega), ok_bind]
      by_cases null : networkWord bytes offset = nullLength
      · have behind : offset + (encodeValue none).length = offset + 4 := by
          rw [encodeValue_length, valueSize, Option.elim_none]
        rw [if_pos null]
        refine ScanYields.cons none (by decide) ?_ ?_
        · rw [behind, word, null, encodeValue]
        · rw [behind]
          exact induction (by omega)
      rw [if_neg null, sizeSub_ok (by omega), ok_bind]
      generalize networkWord bytes offset = raw at word null ⊢
      by_cases bad : negativeLength ≤ raw ∨ bytes.length - (offset + 4) < raw
      · rw [if_pos bad]
        simp [ScanYields]
      rw [if_neg bad]
      by_cases large : maximumValueSize < raw
      · rw [if_pos large]
        simp [ScanYields]
      rw [if_neg large, sizeAdd_ok (by omega), ok_bind]
      -- the value is what follows its length
      obtain ⟨value, value_eq⟩ : ∃ value, value = (bytes.drop (offset + 4)).take raw := ⟨_, rfl⟩
      have present : value.length = raw := by
        rw [value_eq, List.length_take, List.length_drop]
        omega
      have size : valueSize (some value) = raw := present
      have encoded : encodeValue (some value) = wordBytes raw ++ value := by
        rw [encodeValue, present]
      have behind : offset + (encodeValue (some value)).length = offset + 4 + raw := by
        rw [encodeValue_length, size, Nat.add_assoc]
      have rejoined : value ++ bytes.drop (offset + 4 + raw) = bytes.drop (offset + 4) := by
        have dropped : bytes.drop (offset + 4 + raw) = (bytes.drop (offset + 4)).drop raw := by
          rw [List.drop_drop]
        rw [value_eq, dropped, List.take_append_drop]
      refine ScanYields.cons (some value) (by omega) ?_ ?_
      · rw [behind, word, encoded, List.append_assoc, rejoined]
      · rw [behind]
        exact induction (by omega)

end scan

section check

variable {sizeMax : ℕ}

@[simp]
theorem turn_resultPolicy (session : BudgetSession) :
    session.turn.resultPolicy = session.resultPolicy := by
  rw [turn]
  split_ifs <;> rfl

@[simp]
theorem turn_resultBudgetActive (session : BudgetSession) :
    session.turn.resultBudgetActive = session.resultBudgetActive := by
  rw [turn]
  split_ifs <;> rfl

/-- A charge fits or is reported; its sum never wraps. -/
theorem charge_eq (session : BudgetSession) (rowCharge : ℕ)
    (addressable : session.resultPolicy.resultBufferLimit ≤ sizeMax) :
    (session.resultBudgetBytes + rowCharge ≤ session.resultPolicy.resultBufferLimit ∧
        session.charge sizeMax rowCharge = .ok (session.counted rowCharge)) ∨
      (session.resultPolicy.resultBufferLimit < session.resultBudgetBytes + rowCharge ∧
        ∃ report, session.charge sizeMax rowCharge = .error (.reported report)) := by
  rw [charge]
  by_cases alone : session.resultPolicy.resultBufferLimit < rowCharge
  · rw [if_pos alone]
    exact Or.inr ⟨by omega, _, rfl⟩
  rw [if_neg alone, sizeSub_ok (by omega), ok_bind]
  by_cases full : session.resultPolicy.resultBufferLimit - rowCharge < session.resultBudgetBytes
  · rw [if_pos full]
    exact Or.inr ⟨by omega, _, rfl⟩
  · rw [if_neg full, sizeAdd_ok (by omega), ok_bind]
    exact Or.inl ⟨by omega, rfl⟩

theorem networkShort_encode {values : RowValues} (columns : values.length < 2 ^ 16) :
    networkShort (encode values) 0 = values.length := by
  simp only [networkShort, byteAt, encode, List.cons_append, List.getD_cons_zero,
    List.getD_cons_succ, UInt8.toNat_ofNat']
  omega

/-- The column loop on the body of a row. -/
theorem scanColumns_encode (maximumValueSize : ℕ) {values : RowValues}
    (lengths : ∀ value ∈ values, valueSize value < negativeLength)
    (present : (encode values).length ≤ sizeMax) :
    (Within maximumValueSize values ∧
        scanColumns sizeMax maximumValueSize (encode values) values.length 2 =
          .ok (encode values).length) ∨
      (¬ Within maximumValueSize values ∧
        ∃ report, scanColumns sizeMax maximumValueSize (encode values) values.length 2 =
          .error (.reported report)) := by
  have scanned := @scanColumns_encoded sizeMax maximumValueSize values
    [UInt8.ofNat (values.length / 2 ^ 8), UInt8.ofNat values.length] []
  rw [List.append_nil] at scanned
  exact scanned present lengths

/-- The server's verdict on an encoded row. -/
theorem resultBudgetCheck_encode {session : BudgetSession} {values : RowValues}
    (active : session.resultBudgetActive = true) (wide : 65535 ≤ sizeMax)
    (addressable : session.resultPolicy.resultBufferLimit ≤ sizeMax)
    (encodable : values.Encodable) (present : (encode values).length ≤ sizeMax)
    (next : BudgetSession) :
    session.resultBudgetCheck sizeMax (some (encode values)) = .ok next ↔
      Within session.resultPolicy.maximumValueSize values ∧
        session.turn.resultBudgetBytes + size values ≤ session.resultPolicy.resultBufferLimit ∧
          next = session.turn.counted (size values) := by
  obtain ⟨columns, lengths⟩ := encodable
  have whole := encode_length values
  have header : 7 ≤ size values := by
    rw [size, Nat.add_assoc]
    exact Nat.le_add_right _ _
  rw [resultBudgetCheck, if_neg (by simp [active]), if_neg (by omega),
    networkShort_encode columns]
  rcases scanColumns_encode session.resultPolicy.maximumValueSize lengths present with
    ⟨within, scanned⟩ | ⟨beyond, report, scanned⟩
  · rw [scanned, ok_bind, if_neg (by simp), sizeSub_ok (by omega), ok_bind]
    by_cases huge : sizeMax - 5 < (encode values).length
    · rw [if_pos huge]
      simp only [reduceCtorEq, false_iff]
      omega
    · rw [if_neg huge, sizeAdd_ok (by omega), ok_bind, whole]
      rcases session.turn.charge_eq (size values) (by simpa using addressable) with
        ⟨fits, charged⟩ | ⟨exceeds, report, charged⟩
      · rw [turn_resultPolicy] at fits
        rw [charged, Except.ok.injEq]
        exact ⟨fun same => ⟨within, fits, same.symm⟩, fun verdict => verdict.2.2.symm⟩
      · rw [turn_resultPolicy] at exceeds
        rw [charged]
        simp only [reduceCtorEq, false_iff]
        omega
  · rw [scanned, error_bind]
    simp [beyond]

/-- A row is accepted only if it is a column count with that many values and nothing behind. -/
theorem encode_of_resultBudgetCheck {session next : BudgetSession} {bytes : Bytes}
    (active : session.resultBudgetActive = true) (present : bytes.length ≤ sizeMax)
    (accepted : session.resultBudgetCheck sizeMax (some bytes) = .ok next) :
    ∃ values : RowValues, values.Encodable ∧ bytes = encode values := by
  rw [resultBudgetCheck, if_neg (by simp [active])] at accepted
  by_cases short : bytes.length < 2
  · rw [if_pos short] at accepted
    simp at accepted
  rw [if_neg short] at accepted
  have scanned := scanColumns_yields session.resultPolicy.maximumValueSize present
    (networkShort bytes 0) (show 2 ≤ bytes.length by omega)
  revert accepted scanned
  generalize scanColumns sizeMax session.resultPolicy.maximumValueSize bytes
    (networkShort bytes 0) 2 = answer
  intro accepted scanned
  cases answer with
  | error halt => simp [error_bind] at accepted
  | ok final =>
      rw [ok_bind] at accepted
      by_cases left : final ≠ bytes.length
      · rw [if_pos left] at accepted
        simp at accepted
      · obtain rfl : final = bytes.length := not_not.mp left
        obtain ⟨-, values, count, lengths, rest⟩ := scanned
        obtain ⟨high, low, tail, rfl⟩ : ∃ high low tail, bytes = high :: low :: tail := by
          rcases bytes with _ | ⟨high, _ | ⟨low, tail⟩⟩
          · simp at short
          · simp at short
          · exact ⟨high, low, tail, rfl⟩
        have highBound := high.toNat_lt
        have lowBound := low.toNat_lt
        simp only [networkShort, byteAt, List.getD_cons_zero, List.getD_cons_succ] at count
        simp only [List.drop_succ_cons, List.drop_zero, List.drop_length, List.append_nil] at rest
        refine ⟨values, ⟨by omega, lengths⟩, ?_⟩
        rw [encode, ← rest, uint8_ofNat_toNat high (by omega), uint8_ofNat_toNat low (by omega)]
        rfl

/-- No offset or charge of the server's check wraps. -/
theorem resultBudgetCheck_not_wrapped {session : BudgetSession} {data : Option Bytes}
    (wide : 65535 ≤ sizeMax)
    (addressable : session.resultPolicy.resultBufferLimit ≤ sizeMax)
    (present : ∀ bytes, data = some bytes → bytes.length ≤ sizeMax) :
    session.resultBudgetCheck sizeMax data ≠ .error .wrapped := by
  by_cases idle : session.resultBudgetActive = false
  · cases data <;> simp [resultBudgetCheck, idle]
  cases data with
  | none => simp [resultBudgetCheck, idle]
  | some bytes =>
      rw [resultBudgetCheck, if_neg idle]
      have fits := present bytes rfl
      by_cases short : bytes.length < 2
      · rw [if_pos short]
        simp
      rw [if_neg short]
      have scanned := scanColumns_yields session.resultPolicy.maximumValueSize fits
        (networkShort bytes 0) (show 2 ≤ bytes.length by omega)
      revert scanned
      generalize scanColumns sizeMax session.resultPolicy.maximumValueSize bytes
        (networkShort bytes 0) 2 = answer
      intro scanned
      cases answer with
      | error halt => simpa [error_bind, ScanYields] using scanned
      | ok final =>
          rw [ok_bind]
          by_cases left : final ≠ bytes.length
          · rw [if_pos left]
            simp
          rw [if_neg left, sizeSub_ok (by omega), ok_bind]
          by_cases huge : sizeMax - 5 < bytes.length
          · rw [if_pos huge]
            simp
          rw [if_neg huge, sizeAdd_ok (by omega), ok_bind]
          rcases session.turn.charge_eq (bytes.length + 5) (by simpa using addressable) with
            ⟨-, charged⟩ | ⟨-, report, charged⟩ <;> simp [charged]

end check

end BudgetSession

namespace PgResult

section client

variable {sizeMax : ℕ} (policy : ResultPolicy) (source : PgResult)

/-- Bytes that a column adds to its row. -/
def width (row column : ℕ) : ℕ :=
  if source.getisnull row column then 0 else (source.getlength row column).toNat

/-- A column whose length the client accepts. -/
def Fits (row column : ℕ) : Prop :=
  source.getisnull row column = true ∨
    (0 ≤ source.getlength row column ∧ source.getlength row column ≤ policy.maximumValueSize)

instance (row column : ℕ) : Decidable (source.Fits policy row column) := by
  unfold Fits
  infer_instance

/-- Bytes that a row is charged. -/
def rowSize (row : ℕ) : ℕ :=
  7 + source.nfields.toNat * 4 + ((List.range source.nfields.toNat).map (source.width row)).sum

/-- Every column of a row is accepted. -/
def RowFits (row : ℕ) : Prop := ∀ column ∈ List.range source.nfields.toNat, source.Fits policy row column

instance (row : ℕ) : Decidable (source.RowFits policy row) := by
  unfold RowFits
  infer_instance

theorem columnStep_eq {row column rowBytes : ℕ} (addressable : rowBytes ≤ sizeMax) :
    columnStep sizeMax policy source row column rowBytes =
      .ok (if source.Fits policy row column ∧ rowBytes + source.width row column ≤ sizeMax then
        .ok (rowBytes + source.width row column) else .error .protocolError) := by
  rw [columnStep]
  by_cases null : source.getisnull row column = true
  · rw [if_pos null, if_pos ⟨Or.inl null, by simpa [width, null] using addressable⟩]
    simp [width, null]
  rw [if_neg null]
  have width_eq : source.width row column = (source.getlength row column).toNat := by
    simp [width, null]
  rw [width_eq]
  by_cases bad : source.getlength row column < 0 ∨
      (policy.maximumValueSize : ℤ) < source.getlength row column
  · rw [if_pos bad, if_neg]
    rintro ⟨fits, -⟩
    rcases fits with fits | fits
    · exact null fits
    · omega
  rw [if_neg bad, sizeSub_ok addressable, ok_bind]
  by_cases full : sizeMax - rowBytes < (source.getlength row column).toNat
  · rw [if_pos full, if_neg (by omega)]
  · rw [if_neg full, sizeAdd_ok (by omega), ok_bind,
      if_pos ⟨Or.inr (by omega), by omega⟩]

theorem columnLoop_eq (row : ℕ) (columns : List ℕ) {rowBytes : ℕ}
    (addressable : rowBytes ≤ sizeMax) :
    columnLoop sizeMax policy source row columns rowBytes =
      .ok (if (∀ column ∈ columns, source.Fits policy row column) ∧
          rowBytes + (columns.map (source.width row)).sum ≤ sizeMax then
        .ok (rowBytes + (columns.map (source.width row)).sum) else .error .protocolError) := by
  induction columns generalizing rowBytes with
  | nil => simp [columnLoop, addressable]
  | cons column columns induction =>
      rw [columnLoop, columnStep_eq policy source addressable, ok_bind]
      by_cases first : source.Fits policy row column ∧
          rowBytes + source.width row column ≤ sizeMax
      · rw [if_pos first]
        dsimp only
        rw [induction first.2]
        simp only [List.mem_cons, forall_eq_or_imp, first.1, true_and, List.map_cons,
          List.sum_cons, Nat.add_assoc]
      · rw [if_neg first]
        dsimp only
        rw [if_neg]
        rintro ⟨fits, room⟩
        rw [List.map_cons, List.sum_cons] at room
        exact first ⟨fits column List.mem_cons_self, by omega⟩

theorem rowStep_eq (row : ℕ) {resultBytes : ℕ} (wide : 65535 ≤ sizeMax)
    (addressable : policy.resultBufferLimit ≤ sizeMax) :
    rowStep sizeMax policy source row resultBytes =
      .ok (if source.RowFits policy row ∧
          resultBytes + source.rowSize row ≤ policy.resultBufferLimit then
        .ok (resultBytes + source.rowSize row) else .error .protocolError) := by
  rw [rowStep, sizeSub_ok (by omega), ok_bind]
  by_cases many : (sizeMax - 7) / 4 < source.nfields.toNat
  · rw [if_pos many, if_neg]
    rintro ⟨-, room⟩
    rw [rowSize] at room
    omega
  rw [if_neg many, sizeMul_ok (by omega), ok_bind, sizeAdd_ok (by omega), ok_bind,
    columnLoop_eq policy source row _ (by omega), ok_bind]
  by_cases columns : (∀ column ∈ List.range source.nfields.toNat, source.Fits policy row column) ∧
      7 + source.nfields.toNat * 4 +
        ((List.range source.nfields.toNat).map (source.width row)).sum ≤ sizeMax
  · rw [if_pos columns]
    dsimp only
    rw [← rowSize] at columns ⊢
    by_cases alone : policy.resultBufferLimit < source.rowSize row
    · rw [if_pos alone, if_neg (by omega)]
    rw [if_neg alone, sizeSub_ok (by omega), ok_bind]
    by_cases full : policy.resultBufferLimit - source.rowSize row < resultBytes
    · rw [if_pos full, if_neg (by omega)]
    · rw [if_neg full, sizeAdd_ok (by omega), ok_bind, if_pos ⟨columns.1, by omega⟩]
  · rw [if_neg columns]
    dsimp only
    rw [if_neg]
    rintro ⟨fits, room⟩
    rw [← rowSize] at columns
    exact columns ⟨fits, by omega⟩

theorem rowLoop_eq (rows : List ℕ) {resultBytes : ℕ} (wide : 65535 ≤ sizeMax)
    (addressable : policy.resultBufferLimit ≤ sizeMax)
    (budgeted : resultBytes ≤ policy.resultBufferLimit) :
    rowLoop sizeMax policy source rows resultBytes =
      .ok (if (∀ row ∈ rows, source.RowFits policy row) ∧
          resultBytes + (rows.map source.rowSize).sum ≤ policy.resultBufferLimit then
        .ok (resultBytes + (rows.map source.rowSize).sum) else .error .protocolError) := by
  induction rows generalizing resultBytes with
  | nil => simp [rowLoop, budgeted]
  | cons row rows induction =>
      rw [rowLoop, rowStep_eq policy source row wide addressable, ok_bind]
      by_cases first : source.RowFits policy row ∧
          resultBytes + source.rowSize row ≤ policy.resultBufferLimit
      · rw [if_pos first]
        dsimp only
        rw [induction first.2]
        simp only [List.mem_cons, forall_eq_or_imp, first.1, true_and, List.map_cons,
          List.sum_cons, Nat.add_assoc]
      · rw [if_neg first]
        dsimp only
        rw [if_neg]
        rintro ⟨fits, room⟩
        rw [List.map_cons, List.sum_cons] at room
        exact first ⟨fits row List.mem_cons_self, by omega⟩

/-- The client's verdict, whatever the result holds; in particular nothing wraps. -/
theorem checkOwnedResultBudget_eq (wide : 65535 ≤ sizeMax)
    (addressable : policy.resultBufferLimit ≤ sizeMax) :
    checkOwnedResultBudget sizeMax source (some policy) =
      .ok (if ¬ policy.Valid then .invalidArgument
        else if source.ntuples < 0 ∨ source.nfields < 0 then .protocolError
        else if policy.deliveryMode = ResultPolicy.chunked ∧ source.tuplesChunk = true ∧
          (policy.targetChunkRows : ℤ) < source.ntuples then .protocolError
        else if (∀ row ∈ List.range source.ntuples.toNat, source.RowFits policy row) ∧
          ((List.range source.ntuples.toNat).map source.rowSize).sum ≤ policy.resultBufferLimit
          then .ok
        else .protocolError) := by
  rw [checkOwnedResultBudget]
  split_ifs with valid negative many fits
  · rfl
  · rfl
  · rw [rowLoop_eq policy source _ wide addressable (Nat.zero_le _), ok_bind, Nat.zero_add,
      if_pos fits]
  · rw [rowLoop_eq policy source _ wide addressable (Nat.zero_le _), ok_bind, Nat.zero_add,
      if_neg fits]
  · rfl

end client

open RowValues

/-- The result that libpq hands out for some rows of a result set. -/
def ofRows (tuplesChunk : Bool) (columns : ℕ) (rows : List RowValues) : PgResult :=
  { tuplesChunk := tuplesChunk
    ntuples := rows.length
    nfields := columns
    getisnull := fun row column => ((rows.getD row []).getD column none).isNone
    getlength := fun row column => valueSize ((rows.getD row []).getD column none) }

theorem width_ofRows (tuplesChunk : Bool) (columns : ℕ) (rows : List RowValues)
    (row column : ℕ) :
    (ofRows tuplesChunk columns rows).width row column =
      valueSize ((rows.getD row []).getD column none) := by
  have read (value : Option Bytes) :
      (if value.isNone = true then 0 else valueSize value) = valueSize value := by
    cases value <;> simp [valueSize]
  exact read _

theorem map_getD_range {α : Type} (values : List α) (default : α) :
    (List.range values.length).map (fun index => values.getD index default) = values := by
  apply List.ext_getElem
  · simp
  · intro index inside _
    have below : index < values.length := by simpa using inside
    simp [below]

theorem rowSize_ofRows (tuplesChunk : Bool) {columns : ℕ} {rows : List RowValues}
    (rectangular : ∀ row ∈ rows, row.length = columns) {row : ℕ} (inside : row < rows.length) :
    (ofRows tuplesChunk columns rows).rowSize row = size (rows.getD row []) := by
  have count : (rows.getD row []).length = columns := by
    rw [List.getD_eq_getElem _ _ inside]
    exact rectangular _ (List.getElem_mem inside)
  have widths : (List.range columns).map ((ofRows tuplesChunk columns rows).width row) =
      (rows.getD row []).map valueSize := by
    have indexed := congrArg (List.map valueSize) (map_getD_range (rows.getD row []) none)
    rw [List.map_map, count] at indexed
    rw [← indexed]
    apply List.map_congr_left
    intro column _
    exact width_ofRows tuplesChunk columns rows row column
  have fields : (ofRows tuplesChunk columns rows).nfields.toNat = columns := by
    simp [ofRows]
  rw [rowSize, fields, widths, size, count, Nat.mul_comm]

theorem rowFits_ofRows (policy : ResultPolicy) (tuplesChunk : Bool) {columns : ℕ}
    {rows : List RowValues} (rectangular : ∀ row ∈ rows, row.length = columns) {row : ℕ}
    (inside : row < rows.length) :
    (ofRows tuplesChunk columns rows).RowFits policy row ↔
      Within policy.maximumValueSize (rows.getD row []) := by
  have count : (rows.getD row []).length = columns := by
    rw [List.getD_eq_getElem _ _ inside]
    exact rectangular _ (List.getElem_mem inside)
  have fits (column : ℕ) : (ofRows tuplesChunk columns rows).Fits policy row column ↔
      valueSize ((rows.getD row []).getD column none) ≤ policy.maximumValueSize := by
    simp only [Fits, ofRows]
    cases (rows.getD row []).getD column none <;> simp [valueSize]
  have fields : (ofRows tuplesChunk columns rows).nfields.toNat = columns := by
    simp [ofRows]
  simp only [RowFits, fields, List.mem_range, fits]
  constructor
  · intro within value member
    obtain ⟨column, below, rfl⟩ := List.mem_iff_getElem.mp member
    have bounded := within column (by omega)
    rwa [List.getD_eq_getElem _ _ below] at bounded
  · intro within column below
    rw [List.getD_eq_getElem _ _ (by omega : column < (rows.getD row []).length)]
    exact within _ (List.getElem_mem _)

/-- The client's verdict on some rows of a result set. -/
theorem checkOwnedResultBudget_ofRows {sizeMax : ℕ} {policy : ResultPolicy}
    (valid : policy.Valid) (wide : 65535 ≤ sizeMax)
    (addressable : policy.resultBufferLimit ≤ sizeMax) (tuplesChunk : Bool) {columns : ℕ}
    {rows : List RowValues} (rectangular : ∀ row ∈ rows, row.length = columns)
    (chunk : policy.deliveryMode = ResultPolicy.chunked → rows.length ≤ policy.targetChunkRows) :
    checkOwnedResultBudget sizeMax (ofRows tuplesChunk columns rows) (some policy) = .ok .ok ↔
      (∀ row ∈ rows, Within policy.maximumValueSize row) ∧
        (rows.map size).sum ≤ policy.resultBufferLimit := by
  have tuples : (ofRows tuplesChunk columns rows).ntuples.toNat = rows.length := by
    simp [ofRows]
  have sizes : (List.range rows.length).map (ofRows tuplesChunk columns rows).rowSize =
      rows.map size := by
    have indexed := congrArg (List.map size) (map_getD_range rows [])
    rw [List.map_map] at indexed
    rw [← indexed]
    apply List.map_congr_left
    intro row inside
    exact rowSize_ofRows tuplesChunk rectangular (List.mem_range.mp inside)
  have fits : (∀ row ∈ List.range rows.length,
      (ofRows tuplesChunk columns rows).RowFits policy row) ↔
        ∀ row ∈ rows, Within policy.maximumValueSize row := by
    constructor
    · intro all row member
      obtain ⟨index, below, rfl⟩ := List.mem_iff_getElem.mp member
      have within := (rowFits_ofRows policy tuplesChunk rectangular below).mp
        (all index (List.mem_range.mpr below))
      rwa [List.getD_eq_getElem _ _ below] at within
    · intro all index inside
      have below := List.mem_range.mp inside
      rw [rowFits_ofRows policy tuplesChunk rectangular below,
        List.getD_eq_getElem _ _ below]
      exact all _ (List.getElem_mem _)
  rw [checkOwnedResultBudget_eq policy _ wide addressable, if_neg (not_not.mpr valid),
    if_neg (by simp [ofRows]), if_neg (by
      rintro ⟨mode, -, many⟩
      have few := chunk mode
      simp only [ofRows] at many
      omega), tuples, sizes, ← fits]
  split_ifs with verdict
  · exact ⟨fun _ => verdict, fun _ => rfl⟩
  · constructor
    · intro accepted
      simp at accepted
    · intro holds
      exact absurd holds verdict

end PgResult

/-! ## Agreement -/

namespace BudgetSession

open RowValues

/-- The server checks the encoded rows of a result set in order. -/
def checkRows (sizeMax : ℕ) : BudgetSession → List RowValues → Except BudgetHalt BudgetSession
  | session, [] => .ok session
  | session, row :: rows => do
      let session ← session.resultBudgetCheck sizeMax (some (encode row))
      checkRows sizeMax session rows

/-- Rows that the server can be handed. -/
def Presentable (sizeMax : ℕ) (rows : List RowValues) : Prop :=
  ∀ row ∈ rows, row.Encodable ∧ (encode row).length ≤ sizeMax

/-- Group number `index` of a sequence that is cut every `count` elements. -/
def group {α : Type} (count index : ℕ) (rows : List α) : List α :=
  (rows.drop (index * count)).take count

theorem checkRows_cons {sizeMax : ℕ} {session : BudgetSession} {row : RowValues}
    (active : session.resultBudgetActive = true) (wide : 65535 ≤ sizeMax)
    (addressable : session.resultPolicy.resultBufferLimit ≤ sizeMax)
    (encodable : row.Encodable) (present : (encode row).length ≤ sizeMax)
    (rows : List RowValues) :
    (∃ final, session.checkRows sizeMax (row :: rows) = .ok final) ↔
      Within session.resultPolicy.maximumValueSize row ∧
        session.turn.resultBudgetBytes + size row ≤ session.resultPolicy.resultBufferLimit ∧
          ∃ final, (session.turn.counted (size row)).checkRows sizeMax rows = .ok final := by
  have verdict := resultBudgetCheck_encode active wide addressable encodable present
  rw [checkRows]
  cases checked : session.resultBudgetCheck sizeMax (some (encode row)) with
  | error halt =>
      rw [error_bind]
      constructor
      · rintro ⟨final, impossible⟩
        simp at impossible
      · rintro ⟨within, room, -⟩
        have accepted := (verdict _).mpr ⟨within, room, rfl⟩
        simp [checked] at accepted
  | ok next =>
      obtain ⟨within, room, rfl⟩ := (verdict next).mp checked
      rw [ok_bind]
      exact ⟨fun accepted => ⟨within, room, accepted⟩, fun accepted => accepted.2.2⟩

theorem counted_resultPolicy (session : BudgetSession) (rowCharge : ℕ) :
    (session.counted rowCharge).resultPolicy = session.resultPolicy := rfl

/-- Without chunks the whole sequence is charged to one budget. -/
theorem checkRows_materialized {sizeMax : ℕ} {session : BudgetSession} {rows : List RowValues}
    (active : session.resultBudgetActive = true) (wide : 65535 ≤ sizeMax)
    (mode : session.resultPolicy.deliveryMode ≠ ResultPolicy.chunked)
    (addressable : session.resultPolicy.resultBufferLimit ≤ sizeMax)
    (budgeted : session.resultBudgetBytes ≤ session.resultPolicy.resultBufferLimit)
    (presentable : Presentable sizeMax rows) :
    (∃ final, session.checkRows sizeMax rows = .ok final) ↔
      (∀ row ∈ rows, Within session.resultPolicy.maximumValueSize row) ∧
        session.resultBudgetBytes + (rows.map size).sum ≤
          session.resultPolicy.resultBufferLimit := by
  induction rows generalizing session with
  | nil => simp [checkRows, budgeted]
  | cons row rows induction =>
      obtain ⟨encodable, present⟩ := presentable row List.mem_cons_self
      have turned : session.turn = session := by
        rw [turn, if_neg fun full => mode full.1]
      rw [checkRows_cons active wide addressable encodable present, turned]
      have later : Presentable sizeMax rows := fun other member =>
        presentable other (List.mem_cons_of_mem _ member)
      rw [List.map_cons, List.sum_cons, ← Nat.add_assoc, List.forall_mem_cons]
      constructor
      · rintro ⟨within, room, accepted⟩
        have tail := (@induction (session.counted (size row)) active mode addressable room
          later).mp accepted
        exact ⟨⟨within, tail.1⟩, tail.2⟩
      · rintro ⟨⟨within, withins⟩, room⟩
        have first : session.resultBudgetBytes + size row ≤
            session.resultPolicy.resultBufferLimit := by omega
        exact ⟨within, first, (@induction (session.counted (size row)) active mode addressable
          first later).mpr ⟨withins, room⟩⟩

theorem group_zero_cons {α : Type} {count : ℕ} (positive : 0 < count) (row : α) (rows : List α) :
    group count 0 (row :: rows) = row :: rows.take (count - 1) := by
  obtain ⟨before, rfl⟩ := Nat.exists_eq_succ_of_ne_zero positive.ne'
  simp [group]

theorem group_succ_cons {α : Type} {count : ℕ} (positive : 0 < count) (index : ℕ) (row : α)
    (rows : List α) :
    group count (index + 1) (row :: rows) = group count index (rows.drop (count - 1)) := by
  obtain ⟨before, rfl⟩ := Nat.exists_eq_succ_of_ne_zero positive.ne'
  have behind : (index + 1) * (before + 1) = (before + index * (before + 1)) + 1 := by ring
  rw [group, group, Nat.succ_eq_add_one, behind, List.drop_succ_cons, Nat.add_sub_cancel,
    List.drop_drop]

/-- With chunks every chunk has a budget of its own; the first one is already begun. -/
theorem checkRows_chunked {sizeMax : ℕ} {session : BudgetSession} {rows : List RowValues}
    (active : session.resultBudgetActive = true) (wide : 65535 ≤ sizeMax)
    (mode : session.resultPolicy.deliveryMode = ResultPolicy.chunked)
    (positive : 0 < session.resultPolicy.targetChunkRows)
    (small : session.resultPolicy.targetChunkRows < 2 ^ 32 - 1)
    (addressable : session.resultPolicy.resultBufferLimit ≤ sizeMax)
    (budgeted : session.resultBudgetBytes ≤ session.resultPolicy.resultBufferLimit)
    (begun : session.resultBudgetRows ≤ session.resultPolicy.targetChunkRows)
    (presentable : Presentable sizeMax rows) :
    (∃ final, session.checkRows sizeMax rows = .ok final) ↔
      (∀ row ∈ rows, Within session.resultPolicy.maximumValueSize row) ∧
        session.resultBudgetBytes +
            ((rows.take (session.resultPolicy.targetChunkRows -
              session.resultBudgetRows)).map size).sum ≤
          session.resultPolicy.resultBufferLimit ∧
        ∀ index, ((group session.resultPolicy.targetChunkRows index
            (rows.drop (session.resultPolicy.targetChunkRows -
              session.resultBudgetRows))).map size).sum ≤
          session.resultPolicy.resultBufferLimit := by
  induction rows generalizing session with
  | nil => simp [checkRows, budgeted, group]
  | cons row rows induction =>
      obtain ⟨encodable, present⟩ := presentable row List.mem_cons_self
      have later : Presentable sizeMax rows := fun other member =>
        presentable other (List.mem_cons_of_mem _ member)
      rw [checkRows_cons active wide addressable encodable present, List.forall_mem_cons]
      -- the row is charged to a chunk with room for a row, the begun one or a new one
      have step (fresh : BudgetSession) (turned : session.turn = fresh)
          (room : fresh.resultBudgetRows < session.resultPolicy.targetChunkRows)
          (fits : fresh.resultBudgetBytes + size row ≤ session.resultPolicy.resultBufferLimit) :
          (∃ final, (fresh.counted (size row)).checkRows sizeMax rows = .ok final) ↔
            (∀ row ∈ rows, Within session.resultPolicy.maximumValueSize row) ∧
              fresh.resultBudgetBytes + size row +
                  ((rows.take (session.resultPolicy.targetChunkRows -
                    (fresh.resultBudgetRows + 1))).map size).sum ≤
                session.resultPolicy.resultBufferLimit ∧
              ∀ index, ((group session.resultPolicy.targetChunkRows index
                  (rows.drop (session.resultPolicy.targetChunkRows -
                    (fresh.resultBudgetRows + 1)))).map size).sum ≤
                session.resultPolicy.resultBufferLimit := by
        have policy : (fresh.counted (size row)).resultPolicy = session.resultPolicy := by
          rw [counted_resultPolicy, ← turned, turn_resultPolicy]
        have counter : (fresh.counted (size row)).resultBudgetRows =
            fresh.resultBudgetRows + 1 := Nat.mod_eq_of_lt (by omega)
        have started : (fresh.counted (size row)).resultBudgetActive = true := by
          rw [← active, ← turn_resultBudgetActive session, turned]
          rfl
        have tail := @induction (fresh.counted (size row)) started
        rw [policy, counter] at tail
        exact tail mode positive small addressable fits room later
      by_cases full : session.resultBudgetRows = session.resultPolicy.targetChunkRows
      · have turned : session.turn =
            { session with resultBudgetBytes := 0, resultBudgetRows := 0 } := by
          rw [turn, if_pos ⟨mode, full⟩]
        rw [turned, full, Nat.sub_self, List.take_zero, List.drop_zero]
        dsimp only at *
        constructor
        · rintro ⟨within, room, accepted⟩
          obtain ⟨withins, first, others⟩ := (step _ turned positive room).mp accepted
          refine ⟨⟨within, withins⟩, by simpa using budgeted, ?_⟩
          intro index
          cases index with
          | zero =>
              rw [group_zero_cons positive, List.map_cons, List.sum_cons]
              simpa using first
          | succ index =>
              rw [group_succ_cons positive]
              exact others index
        · rintro ⟨⟨within, withins⟩, -, groups⟩
          have first := groups 0
          rw [group_zero_cons positive, List.map_cons, List.sum_cons] at first
          have room : 0 + size row ≤ session.resultPolicy.resultBufferLimit := by omega
          refine ⟨within, room, (step _ turned positive room).mpr ⟨withins, ?_, ?_⟩⟩
          · simpa using first
          · intro index
            have other := groups (index + 1)
            rwa [group_succ_cons positive] at other
      · have turned : session.turn = session := by
          rw [turn, if_neg fun reached => full reached.2]
        have below : session.resultBudgetRows < session.resultPolicy.targetChunkRows := by omega
        have left : session.resultPolicy.targetChunkRows - session.resultBudgetRows =
            session.resultPolicy.targetChunkRows - (session.resultBudgetRows + 1) + 1 := by omega
        rw [turned, left, List.take_succ_cons, List.drop_succ_cons, List.map_cons, List.sum_cons,
          ← Nat.add_assoc]
        constructor
        · rintro ⟨within, room, accepted⟩
          obtain ⟨withins, first, others⟩ := (step _ turned below room).mp accepted
          exact ⟨⟨within, withins⟩, first, others⟩
        · rintro ⟨⟨within, withins⟩, first, others⟩
          have room : session.resultBudgetBytes + size row ≤
              session.resultPolicy.resultBufferLimit := by omega
          exact ⟨within, room, (step _ turned below room).mpr ⟨withins, first, others⟩⟩

/-- The results that a sequence of rows is delivered in. -/
def groups (policy : ResultPolicy) (rows : List RowValues) : List (List RowValues) :=
  if policy.deliveryMode = ResultPolicy.chunked then
    (List.range ((rows.length + policy.targetChunkRows - 1) / policy.targetChunkRows)).map
      fun index => group policy.targetChunkRows index rows
  else [rows]

/-- Beyond the last group there are no rows. -/
theorem group_eq_nil {α : Type} {count index : ℕ} (positive : 0 < count) {rows : List α}
    (beyond : (rows.length + count - 1) / count ≤ index) : group count index rows = [] := by
  have covered : rows.length ≤ index * count := by
    have last := Nat.lt_mul_of_div_lt (Nat.lt_succ_of_le beyond) positive
    rw [Nat.succ_eq_add_one, Nat.add_mul] at last
    omega
  rw [group, List.drop_eq_nil_of_le covered, List.take_nil]

theorem group_subset {α : Type} {count index : ℕ} {rows : List α} {row : α}
    (member : row ∈ group count index rows) : row ∈ rows :=
  List.mem_of_mem_drop (List.mem_of_mem_take member)

/-- Every row of a cut sequence is in one of its groups. -/
theorem mem_group {α : Type} {count : ℕ} (positive : 0 < count) {rows : List α} {row : α}
    (member : row ∈ rows) : ∃ index, row ∈ group count index rows := by
  obtain ⟨place, below, rfl⟩ := List.mem_iff_getElem.mp member
  refine ⟨place / count, List.mem_iff_getElem.mpr ⟨place % count, ?_, ?_⟩⟩
  · have split := Nat.div_add_mod place count
    rw [Nat.mul_comm] at split
    rw [group, List.length_take, List.length_drop]
    exact lt_min (Nat.mod_lt _ positive) (by omega)
  · simp only [group, List.getElem_take, List.getElem_drop]
    congr 1
    rw [Nat.mul_comm]
    exact Nat.div_add_mod place count

/-- The client accepts every group when each row and each group's sum is within its limit. -/
theorem groups_accepted_iff {sizeMax : ℕ} {policy : ResultPolicy} (valid : policy.Valid)
    (wide : 65535 ≤ sizeMax) (addressable : policy.resultBufferLimit ≤ sizeMax)
    (chunked : policy.deliveryMode = ResultPolicy.chunked) {columns : ℕ} {rows : List RowValues}
    (rectangular : ∀ row ∈ rows, row.length = columns) :
    (∀ part ∈ groups policy rows, ∀ tuplesChunk,
        PgResult.checkOwnedResultBudget sizeMax (PgResult.ofRows tuplesChunk columns part)
          (some policy) = .ok .ok) ↔
      (∀ row ∈ rows, Within policy.maximumValueSize row) ∧
        ∀ index, ((group policy.targetChunkRows index rows).map size).sum ≤
          policy.resultBufferLimit := by
  have positive : 0 < policy.targetChunkRows := by
    simp only [ResultPolicy.Valid, ResultPolicy.materialized, ResultPolicy.chunked] at valid chunked
    omega
  have verdict (index : ℕ) (tuplesChunk : Bool) :=
    PgResult.checkOwnedResultBudget_ofRows valid wide addressable tuplesChunk
      (fun row member => rectangular row (group_subset member))
      (fun _ => List.length_take_le policy.targetChunkRows
        (rows.drop (index * policy.targetChunkRows)))
  simp only [groups, if_pos chunked, List.mem_map, List.mem_range, forall_exists_index, and_imp,
    forall_apply_eq_imp_iff₂]
  constructor
  · intro accepted
    have each (index : ℕ) : (∀ row ∈ group policy.targetChunkRows index rows,
        Within policy.maximumValueSize row) ∧
          ((group policy.targetChunkRows index rows).map size).sum ≤ policy.resultBufferLimit := by
      by_cases inside : index < (rows.length + policy.targetChunkRows - 1) / policy.targetChunkRows
      · exact (verdict index true).mp (accepted index inside true)
      · rw [group_eq_nil positive (Nat.le_of_not_lt inside)]
        simp
    refine ⟨?_, fun index => (each index).2⟩
    intro row member
    obtain ⟨index, inside⟩ := mem_group positive member
    exact (each index).1 row inside
  · rintro ⟨within, sums⟩ index - tuplesChunk
    exact (verdict index tuplesChunk).mpr
      ⟨fun row member => within row (group_subset member), sums index⟩

/-- The server lets a sequence of rows through exactly when the client accepts every result it is
delivered in, a byte string passes the server only as an encoded row, and no size computation of
either side wraps. -/
theorem budgets_agree {sizeMax : ℕ} {policy : ResultPolicy} (wide : 65535 ≤ sizeMax)
    (valid : policy.Valid) (requested : policy.requestGeneration ≠ 0)
    (addressable : policy.resultBufferLimit ≤ sizeMax) :
    ∃ session, resultBudgetBegin (some (.ok policy)) = .ok session ∧
      (∀ columns rows, (∀ row ∈ rows, row.length = columns) → Presentable sizeMax rows →
        ((∃ final, session.checkRows sizeMax rows = .ok final) ↔
          ∀ part ∈ groups policy rows, ∀ tuplesChunk,
            PgResult.checkOwnedResultBudget sizeMax (PgResult.ofRows tuplesChunk columns part)
              (some policy) = .ok .ok)) ∧
      (∀ (reached next : BudgetSession) (bytes : Bytes),
        reached.resultBudgetActive = true → bytes.length ≤ sizeMax →
        reached.resultBudgetCheck sizeMax (some bytes) = .ok next →
          ∃ values : RowValues, values.Encodable ∧ bytes = encode values) ∧
      (∀ (reached : BudgetSession) (data : Option Bytes), reached.resultPolicy = policy →
        (∀ bytes, data = some bytes → bytes.length ≤ sizeMax) →
          reached.resultBudgetCheck sizeMax data ≠ .error .wrapped) ∧
      ∀ source, PgResult.checkOwnedResultBudget sizeMax source (some policy) ≠ .error .wrapped := by
  refine ⟨{ reset with resultPolicy := policy, resultBudgetActive := true }, ?_, ?_, ?_, ?_, ?_⟩
  · rw [resultBudgetBegin, if_neg requested, if_neg valid.not_refused]
  · intro columns rows rectangular presentable
    by_cases chunked : policy.deliveryMode = ResultPolicy.chunked
    · have bounds : 0 < policy.targetChunkRows ∧ policy.targetChunkRows < 2 ^ 32 - 1 := by
        simp only [ResultPolicy.Valid, ResultPolicy.materialized, ResultPolicy.chunked]
          at valid chunked
        omega
      rw [groups_accepted_iff valid wide addressable chunked rectangular,
        checkRows_chunked rfl wide chunked bounds.1 bounds.2 addressable (Nat.zero_le _)
          (Nat.zero_le _) presentable]
      -- the first chunk of a fresh session is the first group
      simp only [reset, Nat.sub_zero, Nat.zero_add]
      refine and_congr_right fun _ => ?_
      constructor
      · rintro ⟨first, others⟩ index
        cases index with
        | zero => simpa [group] using first
        | succ index =>
            have other := others index
            rw [group, List.drop_drop] at other
            rwa [group, Nat.succ_mul, Nat.add_comm]
      · intro all
        refine ⟨by simpa [group] using all 0, fun index => ?_⟩
        have other := all (index + 1)
        rw [group, Nat.succ_mul, Nat.add_comm] at other
        rwa [group, List.drop_drop]
    · rw [checkRows_materialized rfl wide chunked addressable (Nat.zero_le _) presentable]
      have verdict (tuplesChunk : Bool) :=
        PgResult.checkOwnedResultBudget_ofRows valid wide addressable tuplesChunk rectangular
          (fun mode => absurd mode chunked)
      simp only [groups, if_neg chunked, List.mem_singleton, forall_eq, verdict, reset,
        Nat.zero_add, forall_const]
  · intro reached next bytes active present accepted
    exact encode_of_resultBudgetCheck active present accepted
  · rintro reached data rfl present
    exact resultBudgetCheck_not_wrapped wide addressable present
  · intro source
    rw [PgResult.checkOwnedResultBudget_eq policy source wide addressable]
    simp

/-- Chunks of two rows under a buffer limit of sixty-four bytes. -/
def pairs : ResultPolicy :=
  { requestGeneration := 1, deliveryMode := 1, targetChunkRows := 2, resultBufferLimit := 64
    maximumValueSize := 16 }

/-- Three rows of sixty-five bytes together: the largest value, a NULL and the largest value. -/
def threeRows : List RowValues :=
  [[some (List.replicate 16 7)], [none], [some (List.replicate 16 7)]]

/-- The third row begins a chunk, so that the server accepts all of them and the client both
groups. -/
theorem budgets_agree_pairs :
    ∃ session, resultBudgetBegin (some (.ok pairs)) = .ok session ∧
      (∃ final, session.checkRows 65535 threeRows = .ok final) ∧
      (∀ part ∈ groups pairs threeRows, ∀ tuplesChunk, PgResult.checkOwnedResultBudget 65535
        (PgResult.ofRows tuplesChunk 1 part) (some pairs) = .ok .ok) ∧
      ∀ source, PgResult.checkOwnedResultBudget 65535 source (some pairs) ≠ .error .wrapped := by
  have valid : pairs.Valid := by decide
  obtain ⟨session, begun, agree, -, -, client⟩ :=
    budgets_agree (le_refl 65535) valid (by decide) (by decide)
  have same : session = { reset with resultPolicy := pairs, resultBudgetActive := true } :=
    (Except.ok.inj begun).symm
  have presentable : Presentable 65535 threeRows := by
    intro row member
    simp only [threeRows, List.mem_cons, List.not_mem_nil, or_false] at member
    obtain rfl | rfl | rfl := member <;> decide
  have wire {row : RowValues} (member : row ∈ threeRows) := presentable row member
  have server : ∃ final, session.checkRows 65535 threeRows = .ok final := by
    subst same
    refine (checkRows_cons rfl le_rfl (by decide) (wire (by decide)).1 (wire (by decide)).2 _).2
      ⟨by decide, by decide, ?_⟩
    refine (checkRows_cons rfl le_rfl (by decide) (wire (by decide)).1 (wire (by decide)).2 _).2
      ⟨by decide, by decide, ?_⟩
    refine (checkRows_cons rfl le_rfl (by decide) (wire (by decide)).1 (wire (by decide)).2 _).2
      ⟨by decide, by decide, ?_⟩
    exact ⟨_, rfl⟩
  exact ⟨session, begun, server,
    (agree 1 threeRows (by decide) presentable).1 server, client⟩

end BudgetSession

end Postgamma.Runtime
