import Mathlib

/-!
# The terminator of a COPY IN

A COPY IN transfer as `postgamma_copy.c` drives it through the private libpq functions of
`libpq_memory_adapter.c`.  The handle has one I/O owner, so that its calls come one behind another.
What libpq and the transport answer is part of a call; the frames that libpq took for sending are
kept in their order.
-/

namespace Postgamma.Embedded

/-- `PostgammaPrivateLibpqStatus`, as far as a COPY IN meets it. -/
inductive PrivateStatus where
  | transportError
  | protocolError
  | upstreamError
  | copyTerminated
  | contractViolation
  deriving DecidableEq

/-- `PostgammaPrivateCopyProgress`. -/
inductive CopyProgress where
  | progress
  | again
  | ended
  deriving DecidableEq

/-- `PostgammaPrivateLibpqCopyPhase`. -/
inductive CopyPhase where
  | none
  | active
  | ended
  deriving DecidableEq

/-- `PostgammaPublicCopyState`. -/
inductive CopyState where
  | active
  | finishing
  | aborted
  | ended
  deriving DecidableEq

/-- The end of a COPY IN: `CopyDone`, or `CopyFail` with its text. -/
inductive Terminator where
  | copyDone
  | copyFail (text : List UInt8)
  deriving DecidableEq

/-- A frame that libpq took for sending. -/
inductive CopyFrame where
  | data (bytes : List UInt8)
  | terminator (terminator : Terminator)
  deriving DecidableEq

/-- The COPY part of a `PostgammaPrivateLibpqOperation`, with the frames of its transfer. -/
structure CopyOperation where
  phase : CopyPhase
  finishSent : Bool
  remoteTerminated : Bool
  syncPending : Bool
  frames : List CopyFrame
  deriving DecidableEq

/-- The result of `PQflush`. -/
inductive Flush where
  | failed
  | flushed
  | blocked
  deriving DecidableEq

/-- The result of `PQputCopyData` and `PQputCopyEnd`. -/
inductive Put where
  | failed
  | full
  | queued
  deriving DecidableEq

/-- What `postgamma_private_copy_input_pump_bound` meets. -/
structure PumpOutcome where
  /-- `PQconsumeInput` succeeds. -/
  consumes : Bool
  /-- An `ErrorResponse` is at the head of the input. -/
  errorResponse : Bool
  flush : Flush
  /-- `postgamma_private_copy_sync_bound` succeeds. -/
  syncs : Bool
  /-- The closing `Sync` is still pending behind it. -/
  syncPending : Bool
  deriving DecidableEq

/-- What `postgamma_private_libpq_copy_write` meets. -/
structure WriteOutcome where
  binds : Bool
  pump : PumpOutcome
  put : Put
  flush : Flush
  deriving DecidableEq

/-- What `postgamma_private_libpq_copy_finish` meets. -/
structure FinishOutcome where
  binds : Bool
  pump : PumpOutcome
  put : Put
  /-- The query is not a simple one, so that the portal is closed too. -/
  extended : Bool
  /-- The messages that close the portal are queued. -/
  closes : Bool
  flush : Flush
  deriving DecidableEq

namespace CopyOperation

/-- The operation of a transfer that has just begun. -/
def start : CopyOperation :=
  { phase := .active, finishSent := false, remoteTerminated := false, syncPending := false
    frames := [] }

/-- `postgamma_private_copy_input_pump_bound`: the operation and the flush status. -/
def inputPump (operation : CopyOperation) (outcome : PumpOutcome) (allowRemoteTermination : Bool) :
    CopyOperation × Except PrivateStatus Flush :=
  if outcome.consumes = false then (operation, .error .upstreamError)
  else
    let operation :=
      { operation with
        remoteTerminated := operation.remoteTerminated || outcome.errorResponse }
    if outcome.flush = .failed then (operation, .error .upstreamError)
    else if operation.syncPending = true ∧ outcome.syncs = false then
      (operation, .error .protocolError)
    else
      let operation :=
        { operation with syncPending := operation.syncPending && outcome.syncPending }
      if operation.remoteTerminated = true ∧ allowRemoteTermination = false then
        (operation, .error .copyTerminated)
      else (operation, .ok outcome.flush)

/-- The part of `postgamma_private_libpq_copy_write` that queues the data. -/
def putData (operation : CopyOperation) (limit : ℕ) (data : List UInt8) (outcome : WriteOutcome) :
    CopyOperation × ℕ × Except PrivateStatus CopyProgress :=
  if data = [] then (operation, 0, .ok .progress)
  else
    match outcome.put with
    | .failed => (operation, 0, .error .upstreamError)
    | .full => (operation, 0, .ok .again)
    | .queued =>
        let chunk := data.take limit
        ({ operation with frames := operation.frames ++ [.data chunk] }, chunk.length,
          if outcome.flush = .failed then .error .upstreamError else .ok .progress)

/-- `postgamma_private_libpq_copy_write`: the operation, the consumed bytes and the progress; the
limit is the queue capacity or `INT_MAX`. -/
def write (operation : CopyOperation) (limit : ℕ) (data : List UInt8) (outcome : WriteOutcome) :
    CopyOperation × ℕ × Except PrivateStatus CopyProgress :=
  if operation.phase ≠ .active ∨ operation.finishSent = true then
    (operation, 0, .error .contractViolation)
  else if outcome.binds = false then (operation, 0, .error .transportError)
  else
    match operation.inputPump outcome.pump false with
    | (operation, .error status) => (operation, 0, .error status)
    | (operation, .ok .blocked) => (operation, 0, .ok .again)
    | (operation, .ok _) => operation.putData limit data outcome

/-- The terminator of a finish message; an empty message is a null pointer. -/
def terminatorOf (message : List UInt8) : Terminator :=
  if message = [] then .copyDone else .copyFail message

/-- The part of `postgamma_private_libpq_copy_finish` that queues the terminator. -/
def putEnd (operation : CopyOperation) (message : List UInt8) (outcome : FinishOutcome) :
    CopyOperation × Option PrivateStatus :=
  if operation.finishSent = true then (operation, none)
  else if outcome.put ≠ .queued then (operation, some .upstreamError)
  else
    let operation :=
      { operation with
        finishSent := true
        frames := operation.frames ++ [.terminator (terminatorOf message)] }
    if outcome.extended = false then (operation, none)
    else if outcome.closes = false then (operation, some .upstreamError)
    else ({ operation with syncPending := true }, none)

/-- The flush behind the terminator, unless it could not be queued. -/
def flushEnd (operation : CopyOperation) (failure : Option PrivateStatus)
    (outcome : FinishOutcome) : CopyOperation × Except PrivateStatus CopyProgress :=
  match failure, outcome.flush with
  | some status, _ => (operation, .error status)
  | none, .failed => (operation, .error .upstreamError)
  | none, .flushed => ({ operation with phase := .ended }, .ok .ended)
  | none, .blocked => (operation, .ok .again)

/-- `postgamma_private_libpq_copy_finish`. -/
def finish (operation : CopyOperation) (message : List UInt8) (outcome : FinishOutcome) :
    CopyOperation × Except PrivateStatus CopyProgress :=
  match operation.phase with
  | .none => (operation, .error .contractViolation)
  | .ended => (operation, .ok .ended)
  | .active =>
      if outcome.binds = false then (operation, .error .transportError)
      else
        match operation.inputPump outcome.pump true with
        | (operation, .error status) => (operation, .error status)
        | (operation, .ok .blocked) => (operation, .ok .again)
        | (operation, .ok _) =>
            let (operation, failure) := operation.putEnd message outcome
            operation.flushEnd failure outcome

/-- `postgamma_private_libpq_copy_release`; `none` is a contract violation. -/
def release (operation : CopyOperation) : Option CopyOperation :=
  if operation.phase = .ended then
    some { operation with phase := .none, finishSent := false, remoteTerminated := false }
  else none

end CopyOperation

/-- A message argument: a null pointer with a size, or a text. -/
inductive MessageArgument where
  | null (size : ℕ)
  | text (bytes : List UInt8)
  deriving DecidableEq

def MessageArgument.bytes : MessageArgument → Option (List UInt8)
  | .null size => if size = 0 then some [] else none
  | .text bytes => if 0 ∈ bytes then none else some bytes

/-- `pgm_copy` of a COPY IN, with its operation. -/
structure CopyIn where
  state : CopyState
  /-- `finish_message` and its size, when `finish_message_set`. -/
  finishMessage : Option (List UInt8)
  ioEnded : Bool
  released : Bool
  /-- The handle was closed and freed. -/
  freed : Bool
  operation : CopyOperation
  deriving DecidableEq

/-- What a call of the COPY interface returns. -/
inductive CopyAnswer where
  /-- `PGM_STATUS_OK` with the bytes that were consumed and the progress. -/
  | ok (consumed : ℕ) (moved : CopyProgress)
  /-- The call was refused, for its arguments, the state or lack of memory. -/
  | refused
  | failed (consumed : ℕ) (status : PrivateStatus)
  | timedOut
  deriving DecidableEq

def CopyAnswer.accepted : CopyAnswer → Bool
  | .refused => false
  | _ => true

/-- A turn of the loop of `pgm_copy_close`. -/
structure CloseTurn where
  expired : Bool
  finish : FinishOutcome
  waits : Bool
  deriving DecidableEq

/-- A call on a COPY handle with all that it meets outside; `memory` is the outcome of `malloc`. -/
inductive CopyCall where
  | write (data : List UInt8) (outcome : WriteOutcome)
  | finish (message : MessageArgument) (memory : Bool) (outcome : FinishOutcome)
  | abort (message : MessageArgument) (memory : Bool) (outcome : FinishOutcome)
  /-- `pgm_copy_close` with the turns of its loop; the deadline passes behind the last of them. -/
  | close (timely : Bool) (memory : Bool) (turns : List CloseTurn)
  /-- `postgamma_public_copy_close_step`; the request may be released in later steps. -/
  | closeStep (memory : Bool) (outcome : FinishOutcome) (requestReleased : Bool)
  deriving DecidableEq

namespace CopyIn

/-- The handle that `pgm_result_take_copy` makes. -/
def start : CopyIn :=
  { state := .active, finishMessage := none, ioEnded := false, released := false, freed := false
    operation := .start }

/-- `COPY aborted by host`. -/
def abortMessage : List UInt8 := "COPY aborted by host".toUTF8.data.toList

/-- `COPY closed before completion`. -/
def closeMessage : List UInt8 := "COPY closed before completion".toUTF8.data.toList

/-- `set_finish_message`; `none` is a refusal. -/
def setFinishMessage (copy : CopyIn) (message : MessageArgument) (memory : Bool) : Option CopyIn :=
  match message.bytes with
  | none => none
  | some bytes =>
      match copy.finishMessage with
      | some fixed => if fixed = bytes then some copy else none
      | none =>
          if bytes ≠ [] ∧ memory = false then none
          else some { copy with finishMessage := some bytes }

/-- `copy->finish_message` as `postgamma_private_libpq_copy_finish` receives it. -/
def message (copy : CopyIn) : List UInt8 := copy.finishMessage.getD []

/-- `pgm_copy_write`. -/
def write (copy : CopyIn) (limit : ℕ) (data : List UInt8) (outcome : WriteOutcome) :
    CopyIn × CopyAnswer :=
  if copy.state ≠ .active then (copy, .refused)
  else
    match copy.operation.write limit data outcome with
    | (operation, consumed, .ok moved) =>
        ({ copy with operation := operation }, .ok consumed moved)
    | (operation, consumed, .error status) =>
        ({ copy with operation := operation }, .failed consumed status)

/-- `pgm_copy_finish`. -/
def finish (copy : CopyIn) (message : MessageArgument) (memory : Bool) (outcome : FinishOutcome) :
    CopyIn × CopyAnswer :=
  if copy.state ≠ .active ∧ copy.state ≠ .finishing then (copy, .refused)
  else
    match copy.setFinishMessage message memory with
    | none => (copy, .refused)
    | some copy =>
        let copy := { copy with state := .finishing }
        match copy.operation.finish copy.message outcome with
        | (operation, .error status) => ({ copy with operation := operation }, .failed 0 status)
        | (operation, .ok .ended) =>
            ({ copy with operation := operation, state := .ended, ioEnded := true },
              .ok 0 .ended)
        | (operation, .ok moved) => ({ copy with operation := operation }, .ok 0 moved)

/-- The message of an abort: the default one for a null pointer without a size. -/
def abortArgument : MessageArgument → MessageArgument
  | .null 0 => .text abortMessage
  | message => message

/-- `pgm_copy_abort` of a COPY IN. -/
def abort (copy : CopyIn) (message : MessageArgument) (memory : Bool) (outcome : FinishOutcome) :
    CopyIn × CopyAnswer :=
  if copy.state = .aborted ∨ copy.state = .ended then (copy, .ok 0 .again)
  else
    match copy.setFinishMessage (abortArgument message) memory with
    | none => (copy, .refused)
    | some copy =>
        let copy := { copy with state := .aborted }
        match copy.operation.finish copy.message outcome with
        | (operation, .error status) => ({ copy with operation := operation }, .failed 0 status)
        | (operation, .ok .ended) =>
            ({ copy with operation := operation, ioEnded := true }, .ok 0 .again)
        | (operation, .ok _) => ({ copy with operation := operation }, .ok 0 .again)

/-- The message of a close, which an active handle still has to fix. -/
def closing (copy : CopyIn) (memory : Bool) : Option CopyIn :=
  if copy.ioEnded = false ∧ copy.state = .active then
    (copy.setFinishMessage (.text closeMessage) memory).map fun copy =>
      { copy with state := .aborted }
  else some copy

/-- The loop of `pgm_copy_close` on a COPY IN. -/
def closeLoop (copy : CopyIn) : List CloseTurn → CopyIn × Option CopyAnswer
  | [] => (copy, if copy.ioEnded = true then none else some .timedOut)
  | turn :: turns =>
      if copy.ioEnded = true then (copy, none)
      else if turn.expired = true then (copy, some .timedOut)
      else
        match copy.operation.finish copy.message turn.finish with
        | (operation, .error status) =>
            ({ copy with operation := operation }, some (.failed 0 status))
        | (operation, .ok .ended) => ({ copy with operation := operation, ioEnded := true }, none)
        | (operation, .ok .again) =>
            let copy := { copy with operation := operation }
            if turn.waits = true then closeLoop copy turns
            else (copy, some (.failed 0 .transportError))
        | (operation, .ok .progress) => closeLoop { copy with operation := operation } turns

/-- `pgm_copy_close` of a COPY IN. -/
def close (copy : CopyIn) (timely memory : Bool) (turns : List CloseTurn) : CopyIn × CopyAnswer :=
  if timely = false then (copy, .refused)
  else
    match copy.closing memory with
    | none => (copy, .refused)
    | some copy =>
        match copy.closeLoop turns with
        | (copy, some answer) => (copy, answer)
        | (copy, none) =>
            match copy.operation.release with
            | none => (copy, .failed 0 .contractViolation)
            | some operation => ({ copy with operation := operation, freed := true }, .ok 0 .ended)

/-- The end of `postgamma_public_copy_close_step`, behind the release of the transfer. -/
def closeRest (copy : CopyIn) (requestReleased : Bool) : CopyIn × CopyAnswer :=
  if requestReleased = true then ({ copy with freed := true }, .ok 0 .ended)
  else (copy, .ok 0 .again)

/-- The terminator of a close step, unless the transfer has ended. -/
def closeFinish (copy : CopyIn) (outcome : FinishOutcome) :
    CopyOperation × Except PrivateStatus CopyProgress :=
  if copy.ioEnded = true then (copy.operation, .ok .ended)
  else copy.operation.finish copy.message outcome

/-- `postgamma_public_copy_close_step` of a COPY IN. -/
def closeStep (copy : CopyIn) (memory : Bool) (outcome : FinishOutcome) (requestReleased : Bool) :
    CopyIn × CopyAnswer :=
  if copy.released = true then copy.closeRest requestReleased
  else
    match copy.closing memory with
    | none => (copy, .refused)
    | some copy =>
        match copy.closeFinish outcome with
        | (operation, .error status) => ({ copy with operation := operation }, .failed 0 status)
        | (operation, .ok .ended) =>
            match operation.release with
            | none =>
                ({ copy with operation := operation, ioEnded := true },
                  .failed 0 .contractViolation)
            | some operation =>
                { copy with
                  operation := operation
                  ioEnded := true
                  released := true
                  state := .ended }.closeRest requestReleased
        | (operation, .ok _) => ({ copy with operation := operation }, .ok 0 .again)

/-- A call; a handle that was freed is refused by its magic. -/
def call (copy : CopyIn) (limit : ℕ) (request : CopyCall) : CopyIn × CopyAnswer :=
  if copy.freed = true then (copy, .refused)
  else
    match request with
    | .write data outcome => copy.write limit data outcome
    | .finish message memory outcome => copy.finish message memory outcome
    | .abort message memory outcome => copy.abort message memory outcome
    | .close timely memory turns => copy.close timely memory turns
    | .closeStep memory outcome requestReleased => copy.closeStep memory outcome requestReleased

/-- A sequence of calls, with the answers. -/
def calls (limit : ℕ) : CopyIn → List CopyCall → CopyIn × List (CopyCall × CopyAnswer)
  | copy, [] => (copy, [])
  | copy, request :: rest =>
      let (next, answer) := copy.call limit request
      let (last, answers) := calls limit next rest
      (last, (request, answer) :: answers)

end CopyIn

/-- The data among some frames. -/
def dataOf (frames : List CopyFrame) : List (List UInt8) :=
  frames.filterMap fun
    | .data bytes => some bytes
    | .terminator _ => none

/-- The terminators among some frames. -/
def terminatorsOf (frames : List CopyFrame) : List Terminator :=
  frames.filterMap fun
    | .data _ => none
    | .terminator terminator => some terminator

namespace CopyOperation

/-- Data only, or all the data and then the terminator of the message. -/
def Carries (operation : CopyOperation) (message : Option (List UInt8)) : Prop :=
  (terminatorsOf operation.frames = [] ∧ operation.finishSent = false ∧
      operation.phase = .active) ∨
    ∃ text, message = some text ∧ terminatorsOf operation.frames = [terminatorOf text] ∧
      (operation.phase = .active → operation.finishSent = true)

theorem inputPump_frame (operation : CopyOperation) (outcome : PumpOutcome) (allow : Bool) :
    (operation.inputPump outcome allow).1.phase = operation.phase ∧
      (operation.inputPump outcome allow).1.finishSent = operation.finishSent ∧
      (operation.inputPump outcome allow).1.frames = operation.frames := by
  unfold inputPump
  dsimp only
  split_ifs <;> exact ⟨rfl, rfl, rfl⟩

variable {message : Option (List UInt8)} {operation : CopyOperation}

theorem Carries.pump (carries : operation.Carries message) (outcome : PumpOutcome) (allow : Bool) :
    (operation.inputPump outcome allow).1.Carries message := by
  obtain ⟨phase, sent, frames⟩ := operation.inputPump_frame outcome allow
  rwa [Carries, phase, sent, frames]

theorem Carries.putData (carries : operation.Carries message) (limit : ℕ) (data : List UInt8)
    (outcome : WriteOutcome) : (operation.putData limit data outcome).1.Carries message := by
  unfold CopyOperation.putData
  by_cases nothing : data = []
  · rw [if_pos nothing]
    exact carries
  · rw [if_neg nothing]
    cases outcome.put with
    | failed => exact carries
    | full => exact carries
    | queued =>
        refine carries.imp (fun only => ?_) fun ⟨text, same, ends, sent⟩ => ?_
        · exact ⟨by simpa [terminatorsOf] using only.1, only.2⟩
        · exact ⟨text, same, by simpa [terminatorsOf] using ends, sent⟩

theorem Carries.write (carries : operation.Carries message) (limit : ℕ) (data : List UInt8)
    (outcome : WriteOutcome) : (operation.write limit data outcome).1.Carries message := by
  have pumped := carries.pump outcome.pump false
  unfold CopyOperation.write
  by_cases refused : operation.phase ≠ .active ∨ operation.finishSent = true
  · rw [if_pos refused]
    exact carries
  by_cases unbound : outcome.binds = false
  · rw [if_neg refused, if_pos unbound]
    exact carries
  rw [if_neg refused, if_neg unbound]
  generalize operation.inputPump outcome.pump false = result at pumped ⊢
  match result with
  | (_, .error _) => exact pumped
  | (_, .ok .blocked) => exact pumped
  | (_, .ok .failed) => exact pumped.putData limit data outcome
  | (_, .ok .flushed) => exact pumped.putData limit data outcome

/-- The terminator is put behind the data once. -/
theorem Carries.putEnd {text : List UInt8}
    (carries : operation.Carries (some text)) (active : operation.phase = .active)
    (outcome : FinishOutcome) :
    (operation.putEnd text outcome).1.Carries (some text) ∧
      dataOf (operation.putEnd text outcome).1.frames = dataOf operation.frames ∧
      ((operation.putEnd text outcome).2 = none →
        (operation.putEnd text outcome).1.finishSent = true) := by
  have ended (sent : ¬operation.finishSent = true) :
      terminatorsOf (operation.frames ++ [.terminator (terminatorOf text)]) =
        [terminatorOf text] := by
    obtain only | ⟨_, _, _, already⟩ := carries
    · simpa [terminatorsOf] using only.1
    · exact absurd (already active) sent
  have kept : dataOf (operation.frames ++ [.terminator (terminatorOf text)]) =
      dataOf operation.frames := by simp [dataOf]
  unfold CopyOperation.putEnd
  dsimp only
  split_ifs with sent full simple unclosed
  · exact ⟨carries, rfl, fun _ => sent⟩
  · exact ⟨carries, rfl, nofun⟩
  · exact ⟨.inr ⟨text, rfl, ended sent, fun _ => rfl⟩, kept, fun _ => rfl⟩
  · exact ⟨.inr ⟨text, rfl, ended sent, fun _ => rfl⟩, kept, nofun⟩
  · exact ⟨.inr ⟨text, rfl, ended sent, fun _ => rfl⟩, kept, fun _ => rfl⟩

theorem Carries.flushEnd (carries : operation.Carries message) {failure : Option PrivateStatus}
    (sent : failure = none → operation.finishSent = true) (outcome : FinishOutcome) :
    (operation.flushEnd failure outcome).1.Carries message ∧
      (operation.flushEnd failure outcome).1.frames = operation.frames ∧
      ((operation.flushEnd failure outcome).2 = .ok .ended →
        (operation.flushEnd failure outcome).1.phase ≠ .active) := by
  unfold CopyOperation.flushEnd
  cases failure with
  | some status => exact ⟨carries, rfl, nofun⟩
  | none =>
      cases outcome.flush with
      | failed => exact ⟨carries, rfl, nofun⟩
      | flushed =>
          obtain only | ⟨text, same, ends, _⟩ := carries
          · exact absurd (sent rfl) (by rw [only.2.1]; nofun)
          · exact ⟨.inr ⟨text, same, ends, nofun⟩, rfl, fun _ => nofun⟩
      | blocked => exact ⟨carries, rfl, nofun⟩

/-- `finish` sends no data, and the terminator of its message at most; with the end that it reports
the transfer is not active any more. -/
theorem Carries.finish {operation : CopyOperation} {text : List UInt8}
    (carries : operation.Carries (some text)) (outcome : FinishOutcome) :
    (operation.finish text outcome).1.Carries (some text) ∧
      dataOf (operation.finish text outcome).1.frames = dataOf operation.frames ∧
      ((operation.finish text outcome).2 = .ok .ended →
        (operation.finish text outcome).1.phase ≠ .active) := by
  unfold CopyOperation.finish
  cases phase : operation.phase with
  | none => exact ⟨carries, rfl, nofun⟩
  | ended => exact ⟨carries, rfl, fun _ => by rw [phase]; nofun⟩
  | active =>
      dsimp only
      by_cases unbound : outcome.binds = false
      · rw [if_pos unbound]
        exact ⟨carries, rfl, nofun⟩
      rw [if_neg unbound]
      have pumped := carries.pump outcome.pump true
      obtain ⟨stays, -, frames⟩ := operation.inputPump_frame outcome.pump true
      generalize operation.inputPump outcome.pump true = result at pumped stays frames ⊢
      obtain ⟨next, flushed⟩ := result
      dsimp only at pumped stays frames
      obtain ⟨put, same, sent⟩ := pumped.putEnd (stays.trans phase) outcome
      rw [← frames]
      have ended := put.flushEnd sent outcome
      match flushed with
      | .error _ => exact ⟨pumped, rfl, nofun⟩
      | .ok .blocked => exact ⟨pumped, rfl, nofun⟩
      | .ok .failed => exact ⟨ended.1, (congrArg dataOf ended.2.1).trans same, ended.2.2⟩
      | .ok .flushed => exact ⟨ended.1, (congrArg dataOf ended.2.1).trans same, ended.2.2⟩

/-- A transfer that is not active is left alone. -/
theorem finish_stays (past : operation.phase ≠ .active)
    (text : List UInt8) (outcome : FinishOutcome) :
    (operation.finish text outcome).1 = operation := by
  unfold finish
  cases phase : operation.phase with
  | none => rfl
  | ended => rfl
  | active => exact absurd phase past

/-- What a write consumes is queued, and it never reports the end of the transfer. -/
theorem write_data (operation : CopyOperation) (limit : ℕ) (data : List UInt8)
    (outcome : WriteOutcome) :
    (dataOf (operation.write limit data outcome).1.frames).flatten =
        (dataOf operation.frames).flatten ++
          data.take (operation.write limit data outcome).2.1 ∧
      (operation.write limit data outcome).2.2 ≠ .ok .ended := by
  have put (next : CopyOperation) :
      (dataOf (next.putData limit data outcome).1.frames).flatten =
          (dataOf next.frames).flatten ++ data.take (next.putData limit data outcome).2.1 ∧
        (next.putData limit data outcome).2.2 ≠ .ok .ended := by
    unfold putData
    by_cases nothing : data = []
    · simp [if_pos nothing]
    · rw [if_neg nothing]
      cases outcome.put with
      | failed => simp
      | full => simp
      | queued =>
          have cut : data.take (data.take limit).length = data.take limit := by
            rw [List.length_take, ← List.take_eq_take_min]
          simp only [cut]
          refine ⟨by simp [dataOf], ?_⟩
          split_ifs <;> nofun
  unfold write
  by_cases refused : operation.phase ≠ .active ∨ operation.finishSent = true
  · simp [if_pos refused]
  by_cases unbound : outcome.binds = false
  · simp [if_neg refused, if_pos unbound]
  rw [if_neg refused, if_neg unbound]
  obtain ⟨-, -, frames⟩ := operation.inputPump_frame outcome.pump false
  generalize operation.inputPump outcome.pump false = result at frames ⊢
  obtain ⟨next, flushed⟩ := result
  dsimp only at frames
  rw [← frames]
  match flushed with
  | .error _ => simp
  | .ok .blocked => simp
  | .ok .failed => exact put next
  | .ok .flushed => exact put next

theorem Carries.release {operation next : CopyOperation}
    (carries : operation.Carries message) (released : operation.release = some next) :
    next.Carries message ∧ next.frames = operation.frames ∧ next.phase ≠ .active := by
  unfold CopyOperation.release at released
  split_ifs at released with ended
  obtain rfl := Option.some.inj released
  obtain only | ⟨text, same, ends, _⟩ := carries
  · exact absurd only.2.2 (by rw [ended]; nofun)
  · exact ⟨.inr ⟨text, same, ends, nofun⟩, rfl, nofun⟩

/-- Before the terminator any message may still be fixed. -/
theorem Carries.fix {text : List UInt8}
    (carries : operation.Carries message) (allowed : message = none ∨ message = some text) :
    operation.Carries (some text) := by
  obtain only | ⟨other, same, ends⟩ := carries
  · exact .inl only
  · obtain absent | present := allowed
    · exact absurd (absent.symm.trans same) nofun
    · exact .inr ⟨other, present ▸ same, ends⟩

end CopyOperation

namespace CopyIn

/-- The message that a call fixes when it is the first. -/
def messageOf : CopyCall → Option (List UInt8)
  | .write .. => none
  | .finish argument .. => argument.bytes
  | .abort argument .. => (abortArgument argument).bytes
  | .close .. => some closeMessage
  | .closeStep .. => some closeMessage

/-- The data that a write has taken for sending. -/
def acceptedBytes : CopyCall × CopyAnswer → List UInt8
  | (.write data _, .ok consumed _) => data.take consumed
  | (.write data _, .failed consumed _) => data.take consumed
  | _ => []

/-- What holds of a handle between its calls. -/
structure Sound (copy : CopyIn) : Prop where
  decided : copy.state = .active ↔ copy.finishMessage = none
  carries : copy.operation.Carries copy.finishMessage
  past : copy.ioEnded = true ∨ copy.released = true ∨ copy.freed = true →
    copy.operation.phase ≠ .active

/-- The handle has its message and has queued no data since. -/
structure Fixes (copy after : CopyIn) (text : List UInt8) : Prop where
  sound : after.Sound
  message : after.finishMessage = some text
  data : dataOf after.operation.frames = dataOf copy.operation.frames
  past : copy.operation.phase ≠ .active → after.operation.phase ≠ .active

/-- A message that is fixed stays so, and one that is not becomes the one of an accepted call. -/
structure Follows (copy : CopyIn) (request : CopyCall) (after : CopyIn) (answer : CopyAnswer) :
    Prop where
  sound : after.Sound
  keeps : ∀ text, copy.finishMessage = some text → after.finishMessage = some text ∧
    dataOf after.operation.frames = dataOf copy.operation.frames
  decides : copy.finishMessage = none →
    after.finishMessage = bif answer.accepted then messageOf request else none
  taken : (dataOf after.operation.frames).flatten =
    (dataOf copy.operation.frames).flatten ++ acceptedBytes (request, answer)
  past : copy.operation.phase ≠ .active → after.operation.phase ≠ .active
  ends : ∀ consumed, answer = .ok consumed .ended → after.operation.phase ≠ .active

variable {copy after : CopyIn} {text : List UInt8} {request : CopyCall} {answer : CopyAnswer}

theorem Sound.unchanged (sound : copy.Sound) (request : CopyCall) :
    copy.Follows request copy .refused := by
  refine ⟨sound, fun _ same => ⟨same, rfl⟩, id, ?_, id, nofun⟩
  cases request <;> exact (List.append_nil _).symm

/-- Behind the end of a transfer its message is fixed. -/
theorem Sound.ended (sound : copy.Sound) (past : copy.operation.phase ≠ .active) :
    ∃ text, copy.finishMessage = some text ∧
      terminatorsOf copy.operation.frames = [CopyOperation.terminatorOf text] := by
  obtain only | ⟨text, same, ends, -⟩ := sound.carries
  · exact absurd only.2.2 past
  · exact ⟨text, same, ends⟩

theorem Fixes.follows (fixes : copy.Fixes after text)
    (allowed : copy.finishMessage = some text ∨
      copy.finishMessage = none ∧ messageOf request = some text)
    (accepted : answer.accepted = true) (quiet : acceptedBytes (request, answer) = [])
    (ends : ∀ consumed, answer = .ok consumed .ended → after.operation.phase ≠ .active) :
    copy.Follows request after answer := by
  refine ⟨fixes.sound, fun other same => ⟨?_, fixes.data⟩, fun absent => ?_, ?_, fixes.past, ends⟩
  · obtain present | ⟨absent, -⟩ := allowed
    · rw [fixes.message, ← present, same]
    · exact absurd (absent.symm.trans same) nofun
  · obtain present | ⟨-, own⟩ := allowed
    · exact absurd (absent.symm.trans present) nofun
    · rw [fixes.message, accepted, own]
      rfl
  · rw [fixes.data, quiet, List.append_nil]

theorem setFinishMessage_some {argument : MessageArgument} {memory : Bool}
    (set : copy.setFinishMessage argument memory = some after) :
    ∃ text, argument.bytes = some text ∧ after = { copy with finishMessage := some text } ∧
      (copy.finishMessage = none ∨ copy.finishMessage = some text) := by
  unfold setFinishMessage at set
  cases bytes : argument.bytes with
  | none => simp [bytes] at set
  | some text =>
      rw [bytes] at set
      dsimp only at set
      refine ⟨text, rfl, ?_⟩
      cases fixed : copy.finishMessage with
      | none =>
          rw [fixed] at set
          dsimp only at set
          split_ifs at set
          exact ⟨(Option.some.inj set).symm, .inl rfl⟩
      | some other =>
          rw [fixed] at set
          dsimp only at set
          split_ifs at set with same
          subst same
          refine ⟨?_, .inr rfl⟩
          rw [← Option.some.inj set, ← fixed]

/-- A terminator of the message that is fixed, whatever else the call records. -/
theorem Sound.finished (sound : copy.Sound)
    (allowed : copy.finishMessage = none ∨ copy.finishMessage = some text)
    (outcome : FinishOutcome) (after : CopyIn)
    (operation : after.operation = (copy.operation.finish text outcome).1)
    (message : after.finishMessage = some text) (state : after.state ≠ .active)
    (flags : after.ioEnded = true ∨ after.released = true ∨ after.freed = true →
      (copy.operation.finish text outcome).2 = .ok .ended ∨ copy.operation.phase ≠ .active) :
    copy.Fixes after text := by
  obtain ⟨keeps, data, ends⟩ := (sound.carries.fix allowed).finish outcome
  have stays (past : copy.operation.phase ≠ .active) : after.operation.phase ≠ .active := by
    rwa [operation, CopyOperation.finish_stays past]
  refine ⟨⟨?_, ?_, fun flag => ?_⟩, message, by rw [operation, data], stays⟩
  · rw [message]
    exact ⟨fun active => absurd active state, nofun⟩
  · rw [operation, message]
    exact keeps
  · obtain last | past := flags flag
    · rw [operation]
      exact ends last
    · exact stays past

theorem write_follows (sound : copy.Sound) (limit : ℕ) (data : List UInt8)
    (outcome : WriteOutcome) :
    copy.Follows (.write data outcome) (copy.write limit data outcome).1
      (copy.write limit data outcome).2 := by
  unfold write
  by_cases stopped : copy.state ≠ .active
  · rw [if_pos stopped]
    exact sound.unchanged _
  · rw [if_neg stopped]
    have absent := sound.decided.1 (not_not.1 stopped)
    have active : copy.operation.phase = .active := by
      by_contra past
      obtain ⟨text, fixed, -⟩ := sound.ended past
      exact absurd (absent.symm.trans fixed) nofun
    have carries := sound.carries.write limit data outcome
    obtain ⟨bytes, moving⟩ := copy.operation.write_data limit data outcome
    generalize copy.operation.write limit data outcome = result at carries bytes moving ⊢
    obtain ⟨next, consumed, status⟩ := result
    have kept : Sound { copy with operation := next } :=
      ⟨sound.decided, carries, fun flag => absurd active (sound.past flag)⟩
    have fresh (text : List UInt8) (same : copy.finishMessage = some text) : False :=
      absurd (absent.symm.trans same) nofun
    cases status with
    | error status =>
        exact ⟨kept, fun text same => (fresh text same).elim, id, bytes, (absurd active ·), nofun⟩
    | ok moved =>
        refine ⟨kept, fun text same => (fresh text same).elim, id, bytes, (absurd active ·), ?_⟩
        rintro _ ended
        exact absurd (congrArg Except.ok (CopyAnswer.ok.inj ended).2) moving

theorem finish_follows (sound : copy.Sound) (argument : MessageArgument) (memory : Bool)
    (outcome : FinishOutcome) :
    copy.Follows (.finish argument memory outcome) (copy.finish argument memory outcome).1
      (copy.finish argument memory outcome).2 := by
  unfold finish
  by_cases stopped : copy.state ≠ .active ∧ copy.state ≠ .finishing
  · rw [if_pos stopped]
    exact sound.unchanged _
  · rw [if_neg stopped]
    cases set : copy.setFinishMessage argument memory with
    | none => exact sound.unchanged _
    | some next =>
        obtain ⟨text, bytes, rfl, allowed⟩ := setFinishMessage_some set
        have asked := allowed.symm.imp_right fun absent => And.intro absent bytes
        dsimp only
        simp only [message, Option.getD_some]
        have finished := sound.finished allowed outcome
        have ends := ((sound.carries.fix allowed).finish outcome).2.2
        have past := sound.past
        generalize copy.operation.finish text outcome = result at finished ends ⊢
        match result with
        | (_, .error _) =>
            exact Fixes.follows (finished _ rfl rfl nofun fun flag => .inr (past flag)) asked
              rfl rfl nofun
        | (_, .ok .ended) =>
            exact Fixes.follows (finished _ rfl rfl nofun fun _ => .inl rfl) asked
              rfl rfl fun _ _ => ends rfl
        | (_, .ok .again) =>
            exact Fixes.follows (finished _ rfl rfl nofun fun flag => .inr (past flag)) asked
              rfl rfl nofun
        | (_, .ok .progress) =>
            exact Fixes.follows (finished _ rfl rfl nofun fun flag => .inr (past flag)) asked
              rfl rfl nofun

theorem Sound.fixed (sound : copy.Sound) (stopped : copy.state ≠ .active) :
    copy.finishMessage ≠ none := fun absent => stopped (sound.decided.2 absent)

theorem abort_follows (sound : copy.Sound) (argument : MessageArgument) (memory : Bool)
    (outcome : FinishOutcome) :
    copy.Follows (.abort argument memory outcome) (copy.abort argument memory outcome).1
      (copy.abort argument memory outcome).2 := by
  unfold abort
  by_cases stopped : copy.state = .aborted ∨ copy.state = .ended
  · rw [if_pos stopped]
    have fixed := sound.fixed (by rintro active; rw [active] at stopped; simp at stopped)
    exact ⟨sound, fun _ same => ⟨same, rfl⟩, fun absent => absurd absent fixed,
      (List.append_nil _).symm, id, nofun⟩
  · rw [if_neg stopped]
    cases set : copy.setFinishMessage (abortArgument argument) memory with
    | none => exact sound.unchanged _
    | some next =>
        obtain ⟨text, bytes, rfl, allowed⟩ := setFinishMessage_some set
        have asked := allowed.symm.imp_right fun absent => And.intro absent bytes
        simp only [message, Option.getD_some]
        have finished := sound.finished allowed outcome
        have ends := ((sound.carries.fix allowed).finish outcome).2.2
        have past := sound.past
        generalize copy.operation.finish text outcome = result at finished ends ⊢
        match result with
        | (_, .error _) =>
            exact Fixes.follows (finished _ rfl rfl nofun fun flag => .inr (past flag)) asked
              rfl rfl nofun
        | (_, .ok .ended) =>
            exact Fixes.follows (finished _ rfl rfl nofun fun _ => .inl rfl) asked
              rfl rfl fun _ _ => ends rfl
        | (_, .ok .again) =>
            exact Fixes.follows (finished _ rfl rfl nofun fun flag => .inr (past flag)) asked
              rfl rfl nofun
        | (_, .ok .progress) =>
            exact Fixes.follows (finished _ rfl rfl nofun fun flag => .inr (past flag)) asked
              rfl rfl nofun

/-- Behind the first part of a close a message is fixed. -/
theorem closing_some (sound : copy.Sound) {memory : Bool}
    (closed : copy.closing memory = some after) :
    ∃ text, copy.Fixes after text ∧ after.state ≠ .active ∧
      (copy.finishMessage = some text ∨
        copy.finishMessage = none ∧ some closeMessage = some text) := by
  unfold closing at closed
  split_ifs at closed with active
  · obtain ⟨next, set, rfl⟩ := Option.map_eq_some_iff.1 closed
    obtain ⟨text, bytes, rfl, allowed⟩ := setFinishMessage_some set
    obtain rfl : closeMessage = text := by
      rw [MessageArgument.bytes] at bytes
      split_ifs at bytes
      exact Option.some.inj bytes
    have absent := sound.decided.1 active.2
    refine ⟨_, ⟨⟨⟨nofun, nofun⟩, sound.carries.fix allowed, sound.past⟩, rfl, rfl, id⟩, nofun,
      .inr ⟨absent, rfl⟩⟩
  · obtain rfl := Option.some.inj closed
    have fixed : copy.finishMessage ≠ none := by
      by_cases ended : copy.ioEnded = true
      · obtain ⟨text, same, -⟩ := sound.ended (sound.past (.inl ended))
        exact same ▸ nofun
      · exact sound.fixed fun state => active ⟨Bool.eq_false_iff.2 ended, state⟩
    obtain ⟨text, same⟩ := Option.ne_none_iff_exists'.1 fixed
    exact ⟨text, ⟨sound, same, rfl, id⟩, fun state => fixed (sound.decided.1 state), .inl same⟩

theorem Fixes.trans {last : CopyIn} (first : copy.Fixes after text)
    (second : after.Fixes last text) : copy.Fixes last text :=
  ⟨second.sound, second.message, second.data.trans first.data, second.past ∘ first.past⟩

theorem closeLoop_fixes (sound : copy.Sound) (fixed : copy.finishMessage = some text)
    (stopped : copy.state ≠ .active) (turns : List CloseTurn) :
    copy.Fixes (copy.closeLoop turns).1 text := by
  induction turns generalizing copy with
  | nil => exact ⟨sound, fixed, rfl, id⟩
  | cons turn turns induction =>
      unfold closeLoop
      by_cases ended : copy.ioEnded = true
      · rw [if_pos ended]
        exact ⟨sound, fixed, rfl, id⟩
      by_cases expired : turn.expired = true
      · rw [if_neg ended, if_pos expired]
        exact ⟨sound, fixed, rfl, id⟩
      rw [if_neg ended, if_neg expired]
      have own : copy.message = text := by rw [message, fixed, Option.getD_some]
      have finished := sound.finished (.inr fixed) turn.finish
      have past := sound.past
      rw [own]
      generalize copy.operation.finish text turn.finish = result at finished ⊢
      match result with
      | (_, .error _) => exact finished _ rfl fixed stopped fun flag => .inr (past flag)
      | (_, .ok .ended) => exact finished _ rfl fixed stopped fun _ => .inl rfl
      | (operation, .ok .again) =>
          have next := finished { copy with operation := operation } rfl fixed stopped
            fun flag => .inr (past flag)
          dsimp only
          split_ifs with waits
          · exact next.trans (induction next.sound fixed stopped)
          · exact next
      | (operation, .ok .progress) =>
          have next := finished { copy with operation := operation } rfl fixed stopped
            fun flag => .inr (past flag)
          exact next.trans (induction next.sound fixed stopped)

variable {copy : CopyIn}

theorem closeLoop_answer {turns : List CloseTurn}
    (stopped : (copy.closeLoop turns).2 = some answer) :
    answer = .timedOut ∨ ∃ status, answer = .failed 0 status := by
  induction turns generalizing copy with
  | nil =>
      rw [closeLoop] at stopped
      split_ifs at stopped
      exact .inl (Option.some.inj stopped).symm
  | cons turn turns induction =>
      rw [closeLoop] at stopped
      by_cases ended : copy.ioEnded = true
      · rw [if_pos ended] at stopped
        cases stopped
      by_cases expired : turn.expired = true
      · rw [if_neg ended, if_pos expired] at stopped
        exact .inl (Option.some.inj stopped).symm
      rw [if_neg ended, if_neg expired] at stopped
      generalize copy.operation.finish copy.message turn.finish = result at stopped
      match result with
      | (_, .error status) => exact .inr ⟨status, (Option.some.inj stopped).symm⟩
      | (_, .ok .ended) => cases stopped
      | (_, .ok .progress) => exact induction stopped
      | (_, .ok .again) =>
          dsimp only at stopped
          by_cases waits : turn.waits = true
          · rw [if_pos waits] at stopped
            exact induction stopped
          · rw [if_neg waits] at stopped
            exact .inr ⟨_, (Option.some.inj stopped).symm⟩

theorem Sound.release (sound : copy.Sound) (fixed : copy.finishMessage = some text)
    {operation : CopyOperation} (released : copy.operation.release = some operation)
    (after : CopyIn) (same : after.operation = operation)
    (message : after.finishMessage = some text) (state : after.state ≠ .active) :
    copy.Fixes after text := by
  obtain ⟨carries, frames, past⟩ := sound.carries.release released
  refine ⟨⟨?_, ?_, fun _ => same ▸ past⟩, message, by rw [same, frames], fun _ => same ▸ past⟩
  · rw [message]
    exact ⟨fun active => absurd active state, nofun⟩
  · rw [same, message, ← fixed]
    exact carries

theorem close_follows (sound : copy.Sound) (timely memory : Bool) (turns : List CloseTurn) :
    copy.Follows (.close timely memory turns) (copy.close timely memory turns).1
      (copy.close timely memory turns).2 := by
  unfold close
  by_cases late : timely = false
  · rw [if_pos late]
    exact sound.unchanged _
  rw [if_neg late]
  cases closed : copy.closing memory with
  | none => exact sound.unchanged _
  | some next =>
      obtain ⟨text, fixes, stopped, allowed⟩ := closing_some sound closed
      have looped := closeLoop_fixes fixes.sound fixes.message stopped turns
      have answered (answer : CopyAnswer) (stopped : (next.closeLoop turns).2 = some answer) :=
        closeLoop_answer stopped
      dsimp only
      generalize next.closeLoop turns = result at looped answered ⊢
      obtain ⟨last, answer⟩ := result
      have kept := fixes.trans looped
      cases answer with
      | some answer =>
          obtain rfl | ⟨status, rfl⟩ := answered answer rfl
          · exact kept.follows allowed rfl rfl nofun
          · exact kept.follows allowed rfl rfl nofun
      | none =>
          dsimp only
          cases released : last.operation.release with
          | none => exact kept.follows allowed rfl rfl nofun
          | some operation =>
              have freed := looped.sound.release looped.message released
                { last with operation := operation, freed := true } rfl looped.message
                fun active => absurd (looped.sound.decided.1 active)
                  (by rw [looped.message]; nofun)
              exact (kept.trans freed).follows allowed rfl rfl fun _ _ =>
                (looped.sound.carries.release released).2.2

theorem closeRest_follows (fixes : copy.Fixes after text) (released : after.released = true)
    (allowed : copy.finishMessage = some text ∨
      copy.finishMessage = none ∧ some closeMessage = some text)
    (memory : Bool) (outcome : FinishOutcome) (requestReleased : Bool) :
    copy.Follows (.closeStep memory outcome requestReleased) (after.closeRest requestReleased).1
      (after.closeRest requestReleased).2 := by
  have past := fixes.sound.past (.inr (.inl released))
  unfold closeRest
  split_ifs
  · have freed : copy.Fixes { after with freed := true } text :=
      ⟨⟨fixes.sound.decided, fixes.sound.carries, fun _ => past⟩, fixes.message, fixes.data,
        fixes.past⟩
    exact freed.follows allowed rfl rfl fun _ _ => past
  · exact fixes.follows allowed rfl rfl fun _ _ => past

theorem Sound.closeFinish (sound : copy.Sound) (fixed : copy.finishMessage = some text)
    (outcome : FinishOutcome) (after : CopyIn)
    (operation : after.operation = (copy.closeFinish outcome).1)
    (message : after.finishMessage = some text) (state : after.state ≠ .active)
    (flags : after.ioEnded = true ∨ after.released = true ∨ after.freed = true →
      (copy.closeFinish outcome).2 = .ok .ended ∨ copy.operation.phase ≠ .active) :
    copy.Fixes after text := by
  unfold CopyIn.closeFinish at operation flags
  split_ifs at operation flags with ended
  · have past := sound.past (.inl ended)
    refine ⟨⟨?_, ?_, fun _ => operation ▸ past⟩, message, by rw [operation],
      fun _ => operation ▸ past⟩
    · rw [message]
      exact ⟨fun active => absurd active state, nofun⟩
    · rw [operation, message, ← fixed]
      exact sound.carries
  · rw [CopyIn.message, fixed, Option.getD_some] at operation flags
    exact sound.finished (.inr fixed) outcome after operation message state flags

theorem closeStep_follows (sound : copy.Sound) (memory : Bool) (outcome : FinishOutcome)
    (requestReleased : Bool) :
    copy.Follows (.closeStep memory outcome requestReleased)
      (copy.closeStep memory outcome requestReleased).1
      (copy.closeStep memory outcome requestReleased).2 := by
  unfold closeStep
  by_cases released : copy.released = true
  · rw [if_pos released]
    obtain ⟨text, fixed, -⟩ := sound.ended (sound.past (.inr (.inl released)))
    exact closeRest_follows ⟨sound, fixed, rfl, id⟩ released (.inl fixed) ..
  rw [if_neg released]
  cases closed : copy.closing memory with
  | none => exact sound.unchanged _
  | some next =>
      obtain ⟨text, fixes, stopped, allowed⟩ := closing_some sound closed
      have finished := fixes.sound.closeFinish fixes.message outcome
      have past := fixes.sound.past
      dsimp only
      generalize next.closeFinish outcome = result at finished ⊢
      have kept := fixes.trans
        (finished { next with operation := result.1 } rfl fixes.message stopped
          fun flag => .inr (past flag))
      match result with
      | (_, .error _) => exact kept.follows allowed rfl rfl nofun
      | (_, .ok .again) => exact kept.follows allowed rfl rfl nofun
      | (_, .ok .progress) => exact kept.follows allowed rfl rfl nofun
      | (operation, .ok .ended) =>
          have last := finished { next with operation := operation, ioEnded := true } rfl
            fixes.message stopped fun _ => .inl rfl
          dsimp only
          cases done : operation.release with
          | none => exact (fixes.trans last).follows allowed rfl rfl nofun
          | some free =>
              have freed := last.sound.release last.message done
                { next with
                  operation := free, ioEnded := true, released := true, state := .ended }
                rfl fixes.message nofun
              exact closeRest_follows ((fixes.trans last).trans freed) rfl allowed ..

theorem call_follows (sound : copy.Sound) (limit : ℕ) (request : CopyCall) :
    copy.Follows request (copy.call limit request).1 (copy.call limit request).2 := by
  unfold call
  by_cases freed : copy.freed = true
  · rw [if_pos freed]
    exact sound.unchanged request
  rw [if_neg freed]
  cases request with
  | write data outcome => exact write_follows sound limit data outcome
  | finish argument memory outcome => exact finish_follows sound argument memory outcome
  | abort argument memory outcome => exact abort_follows sound argument memory outcome
  | close timely memory turns => exact close_follows sound timely memory turns
  | closeStep memory outcome released => exact closeStep_follows sound memory outcome released

theorem start_sound : start.Sound :=
  ⟨⟨fun _ => rfl, fun _ => rfl⟩, .inl ⟨rfl, rfl, rfl⟩, by simp [start]⟩

theorem calls_sound (sound : copy.Sound) (limit : ℕ) (requests : List CopyCall) :
    (calls limit copy requests).1.Sound := by
  induction requests generalizing copy with
  | nil => exact sound
  | cons request rest induction => exact induction (call_follows sound limit request).sound

/-- Once the message is fixed, the calls behind keep it and queue no data. -/
theorem calls_fixed (sound : copy.Sound)
    (fixed : copy.finishMessage = some text) (limit : ℕ) (requests : List CopyCall) :
    (calls limit copy requests).1.finishMessage = some text ∧
      dataOf (calls limit copy requests).1.operation.frames = dataOf copy.operation.frames := by
  induction requests generalizing copy with
  | nil => exact ⟨fixed, rfl⟩
  | cons request rest induction =>
      have follows := call_follows sound limit request
      obtain ⟨same, data⟩ := follows.keeps text fixed
      obtain ⟨last, kept⟩ := induction follows.sound same
      exact ⟨last, kept.trans data⟩

/-- The queued data are what the writes have taken. -/
theorem calls_data (sound : copy.Sound) (limit : ℕ) (requests : List CopyCall) :
    (dataOf (calls limit copy requests).1.operation.frames).flatten =
      (dataOf copy.operation.frames).flatten ++
        (calls limit copy requests).2.flatMap acceptedBytes := by
  induction requests generalizing copy with
  | nil => exact (List.append_nil _).symm
  | cons request rest induction =>
      have follows := call_follows sound limit request
      rw [calls]
      dsimp only
      rw [induction follows.sound, follows.taken, List.flatMap_cons, List.append_assoc]

theorem calls_stay_past (sound : copy.Sound)
    (past : copy.operation.phase ≠ .active) (limit : ℕ) (requests : List CopyCall) :
    (calls limit copy requests).1.operation.phase ≠ .active := by
  induction requests generalizing copy with
  | nil => exact past
  | cons request rest induction =>
      have follows := call_follows sound limit request
      exact induction follows.sound (follows.past past)

/-- Behind an answer that reports the end of the transfer, it has ended. -/
theorem calls_past (sound : copy.Sound) {limit : ℕ} {requests : List CopyCall}
    {consumed : ℕ}
    (ended : (request, .ok consumed .ended) ∈ (calls limit copy requests).2) :
    (calls limit copy requests).1.operation.phase ≠ .active := by
  induction requests generalizing copy with
  | nil => cases ended
  | cons first rest induction =>
      have follows := call_follows sound limit first
      obtain here | later := List.mem_cons.1 ended
      · have own := (Prod.mk.inj here).2.symm
        exact calls_stay_past follows.sound (follows.ends consumed own) limit rest
      · exact induction follows.sound later

theorem calls_append (limit : ℕ) (copy : CopyIn) (earlier later : List CopyCall) :
    (calls limit copy (earlier ++ later)).1 =
      (calls limit (calls limit copy earlier).1 later).1 := by
  induction earlier generalizing copy with
  | nil => rfl
  | cons request rest induction => exact induction _

end CopyIn

namespace CopyCall

/-- The terminator that a call asks for: an abort never asks for `CopyDone`, whatever its text. -/
def terminator : CopyCall → Option Terminator
  | .write .. => none
  | .finish argument .. => argument.bytes.map CopyOperation.terminatorOf
  | .abort argument .. => (CopyIn.abortArgument argument).bytes.map .copyFail
  | .close .. => some (.copyFail CopyIn.closeMessage)
  | .closeStep .. => some (.copyFail CopyIn.closeMessage)

def emptyAbort : CopyCall → Bool
  | .abort (.text []) .. => true
  | _ => false

/-- Every other call asks for the terminator of its message. -/
theorem terminator_of_message {request : CopyCall} (worded : request.emptyAbort = false) :
    (CopyIn.messageOf request).map CopyOperation.terminatorOf = request.terminator := by
  cases request with
  | write data outcome => rfl
  | finish argument memory outcome => rfl
  | abort argument memory outcome =>
      cases argument with
      | null size =>
          cases size with
          | zero => rfl
          | succ size => rfl
      | text bytes =>
          cases bytes with
          | nil => cases worded
          | cons byte rest =>
              rw [CopyIn.messageOf, terminator, CopyIn.abortArgument, MessageArgument.bytes]
              · split_ifs <;> rfl
              · nofun
  | close timely memory turns => rfl
  | closeStep memory outcome released => rfl

end CopyCall

/-- The terminator of the first call that is accepted. -/
def decision (answers : List (CopyCall × CopyAnswer)) : Option Terminator :=
  answers.findSome? fun (request, answer) => bif answer.accepted then request.terminator else none

namespace CopyIn

/-- No abort of a handle that is still active has an empty text. -/
def Worded (limit : ℕ) : CopyIn → List CopyCall → Prop
  | _, [] => True
  | copy, request :: rest =>
      (request.emptyAbort = true → copy.state ≠ .active) ∧
        Worded limit (copy.call limit request).1 rest

/-- The run sends what its first accepted call has asked for, once, behind the data of the writes;
behind that call it takes no data. -/
structure Terminates (limit : ℕ) (requests : List CopyCall) : Prop where
  decided : ∀ terminator, .terminator terminator ∈ (calls limit start requests).1.operation.frames →
    decision (calls limit start requests).2 = some terminator
  once : (terminatorsOf (calls limit start requests).1.operation.frames).length ≤ 1
  sent : ∀ request consumed, (request, .ok consumed .ended) ∈ (calls limit start requests).2 →
    ∃ terminator, decision (calls limit start requests).2 = some terminator ∧
      terminatorsOf (calls limit start requests).1.operation.frames = [terminator]
  fixed : ∀ earlier later, requests = earlier ++ later → ∀ terminator,
    decision (calls limit start earlier).2 = some terminator →
      decision (calls limit start requests).2 = some terminator ∧
      dataOf (calls limit start requests).1.operation.frames =
        dataOf (calls limit start earlier).1.operation.frames
  data : (dataOf (calls limit start requests).1.operation.frames).flatten =
    (calls limit start requests).2.flatMap acceptedBytes

variable {copy : CopyIn}

theorem call_terminator (sound : copy.Sound) (absent : copy.finishMessage = none)
    (limit : ℕ) {request : CopyCall} (worded : request.emptyAbort = false) :
    (bif (copy.call limit request).2.accepted then request.terminator else none) =
      (copy.call limit request).1.finishMessage.map CopyOperation.terminatorOf := by
  rw [(call_follows sound limit request).decides absent, ← CopyCall.terminator_of_message worded]
  cases (copy.call limit request).2.accepted <;> rfl

/-- The terminator that is fixed is the one that was asked for. -/
theorem calls_decision (sound : copy.Sound) (absent : copy.finishMessage = none)
    (limit : ℕ) {requests : List CopyCall} (worded : Worded limit copy requests) :
    (calls limit copy requests).1.finishMessage.map CopyOperation.terminatorOf =
      decision (calls limit copy requests).2 := by
  induction requests generalizing copy with
  | nil => rw [calls, absent]; rfl
  | cons request rest induction =>
      obtain ⟨own, others⟩ := worded
      have follows := call_follows sound limit request
      have texted : request.emptyAbort = false :=
        Bool.eq_false_iff.2 fun empty => own empty (sound.decided.2 absent)
      rw [calls]
      dsimp only [decision]
      rw [List.findSome?_cons, call_terminator sound absent limit texted]
      cases message : (copy.call limit request).1.finishMessage with
      | none => exact induction follows.sound message others
      | some text =>
          rw [(calls_fixed follows.sound message limit rest).1]
          rfl

theorem worded_of_fixed (sound : copy.Sound) {text : List UInt8}
    (fixed : copy.finishMessage = some text) (limit : ℕ) (requests : List CopyCall) :
    Worded limit copy requests := by
  induction requests generalizing copy with
  | nil => trivial
  | cons request rest induction =>
      have follows := call_follows sound limit request
      exact ⟨fun _ active => absurd ((sound.decided.1 active).symm.trans fixed) nofun,
        induction follows.sound (follows.keeps text fixed).1⟩

/-- An abort of an active handle with an empty text is accepted. -/
theorem call_emptyAbort (sound : copy.Sound) (absent : copy.finishMessage = none)
    (limit : ℕ) {request : CopyCall} (empty : request.emptyAbort = true) :
    (copy.call limit request).2.accepted = true ∧ request.terminator = some (.copyFail []) ∧
      messageOf request = some [] := by
  have active := sound.decided.2 absent
  have live : copy.freed = false := by
    refine Bool.eq_false_iff.2 fun freed => ?_
    obtain ⟨text, fixed, -⟩ := sound.ended (sound.past (.inr (.inr freed)))
    exact absurd (absent.symm.trans fixed) nofun
  unfold CopyCall.emptyAbort at empty
  split at empty
  · rename_i memory outcome
    refine ⟨?_, rfl, rfl⟩
    rw [call, live, abort, active]
    have set : copy.setFinishMessage (abortArgument (.text [])) memory =
        some { copy with finishMessage := some [] } := by
      rw [setFinishMessage, absent]
      rfl
    rw [set]
    dsimp only
    generalize copy.operation.finish _ outcome = result
    match result with
    | (_, .error _) => rfl
    | (_, .ok .ended) => rfl
    | (_, .ok .again) => rfl
    | (_, .ok .progress) => rfl
  · cases empty

/-- An abort with an empty text asks for `CopyFail` and fixes `CopyDone`. -/
theorem calls_misworded (sound : copy.Sound) (absent : copy.finishMessage = none)
    (limit : ℕ) {requests : List CopyCall} (misworded : ¬Worded limit copy requests) :
    decision (calls limit copy requests).2 = some (.copyFail []) ∧
      (calls limit copy requests).1.finishMessage = some [] := by
  induction requests generalizing copy with
  | nil => exact absurd trivial misworded
  | cons request rest induction =>
      have follows := call_follows sound limit request
      rw [calls]
      dsimp only [decision]
      rw [List.findSome?_cons]
      cases empty : request.emptyAbort with
      | true =>
          obtain ⟨accepted, asked, fixed⟩ := call_emptyAbort sound absent limit empty
          have decides := follows.decides absent
          rw [accepted, fixed] at decides
          rw [accepted, asked]
          exact ⟨rfl, (calls_fixed follows.sound decides limit rest).1⟩
      | false =>
          rw [call_terminator sound absent limit empty]
          have others : ¬Worded limit (copy.call limit request).1 rest := fun worded =>
            misworded ⟨fun filled => absurd (filled.symm.trans empty) nofun, worded⟩
          cases message : (copy.call limit request).1.finishMessage with
          | none => exact induction follows.sound message others
          | some text => exact absurd (worded_of_fixed follows.sound message limit rest) others

theorem worded_left {limit : ℕ} {earlier later : List CopyCall}
    (worded : Worded limit copy (earlier ++ later)) : Worded limit copy earlier := by
  induction earlier generalizing copy with
  | nil => trivial
  | cons request rest induction => exact ⟨worded.1, induction worded.2⟩

/-- A run in which no abort decides with an empty text sends the terminator that was asked for;
behind such an abort every terminator that is sent is a `CopyDone` in the place of a `CopyFail`. -/
theorem copy_terminator (limit : ℕ) (requests : List CopyCall) :
    (Worded limit start requests → Terminates limit requests) ∧
      (¬Worded limit start requests →
        decision (calls limit start requests).2 = some (.copyFail []) ∧
        ∀ terminator, .terminator terminator ∈ (calls limit start requests).1.operation.frames →
          terminator = .copyDone) := by
  have sound := calls_sound start_sound limit requests
  refine ⟨fun worded => ?_, fun misworded => ?_⟩
  · have decided := calls_decision start_sound rfl limit worded
    refine ⟨fun terminator member => ?_, ?_, fun request consumed ended => ?_, ?_, ?_⟩
    · have listed : terminator ∈
          terminatorsOf (calls limit start requests).1.operation.frames :=
        List.mem_filterMap.2 ⟨_, member, rfl⟩
      rw [← decided]
      obtain only | ⟨text, message, ends, -⟩ := sound.carries
      · rw [only.1] at listed
        cases listed
      · rw [ends, List.mem_singleton] at listed
        rw [message, listed]
        rfl
    · obtain only | ⟨text, -, ends, -⟩ := sound.carries
      · rw [only.1]
        exact Nat.zero_le _
      · rw [ends]
        exact le_rfl
    · obtain ⟨text, message, ends⟩ := sound.ended (calls_past start_sound ended)
      exact ⟨_, by rw [← decided, message]; rfl, ends⟩
    · rintro earlier later rfl terminator chosen
      have middle := calls_sound start_sound limit earlier
      rw [← calls_decision start_sound rfl limit (worded_left worded)] at chosen
      rw [← decided]
      obtain ⟨text, fixed, rfl⟩ := Option.map_eq_some_iff.1 chosen
      obtain ⟨last, data⟩ := calls_fixed middle fixed limit later
      rw [calls_append, last]
      exact ⟨rfl, data⟩
    · exact calls_data start_sound limit requests
  · obtain ⟨asked, fixed⟩ := calls_misworded start_sound rfl limit misworded
    refine ⟨asked, fun terminator member => ?_⟩
    have listed : terminator ∈ terminatorsOf (calls limit start requests).1.operation.frames :=
      List.mem_filterMap.2 ⟨_, member, rfl⟩
    obtain only | ⟨text, message, ends, -⟩ := sound.carries
    · rw [only.1] at listed
      cases listed
    · obtain rfl := Option.some.inj (fixed.symm.trans message)
      rw [ends, List.mem_singleton] at listed
      exact listed

/-- Calls that meet no failure, up to the last flush. -/
def smooth (flush : Flush) : FinishOutcome :=
  { binds := true
    pump :=
      { consumes := true, errorResponse := false, flush := .flushed, syncs := true
        syncPending := false }
    put := .queued, extended := false, closes := true, flush := flush }

/-- A write of some data that meets no failure. -/
def smoothWrite (data : List UInt8) : CopyCall :=
  .write data
    { binds := true, pump := (smooth .flushed).pump, put := .queued, flush := .flushed }

/-- An abort that would block, a write and a finish behind it, and the close that ends the
transfer. -/
def abortedRun : List CopyCall :=
  [smoothWrite [104, 105], .abort (.text [110, 111]) true (smooth .blocked), smoothWrite [33],
    .finish (.null 0) true (smooth .flushed),
    .close true true [{ expired := false, finish := smooth .flushed, waits := true }]]

theorem copy_terminator_aborted : Worded 65536 start abortedRun ∧
    terminatorsOf (calls 65536 start abortedRun).1.operation.frames = [.copyFail [110, 111]] ∧
    (dataOf (calls 65536 start abortedRun).1.operation.frames).flatten = [104, 105] := by
  have worded : Worded 65536 start abortedRun :=
    ⟨by decide, by decide, by decide, by decide, by decide, trivial⟩
  have terminates := (copy_terminator 65536 abortedRun).1 worded
  have decided : decision (calls 65536 start abortedRun).2 = some (.copyFail [110, 111]) := by
    decide
  obtain ⟨terminator, chosen, sent⟩ := terminates.sent
    (.close true true [{ expired := false, finish := smooth .flushed, waits := true }]) 0
    (by decide)
  obtain rfl := Option.some.inj (decided.symm.trans chosen)
  exact ⟨worded, sent, terminates.data.trans (by decide)⟩

/-- An abort with an empty text completes the import. -/
theorem empty_abort_commits :
    ¬Terminates 65536 [smoothWrite [104], .abort (.text []) true (smooth .flushed)] := by
  intro terminates
  have decided := terminates.decided .copyDone (by decide)
  revert decided
  decide

end CopyIn

end Postgamma.Embedded
