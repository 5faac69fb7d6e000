import Mathlib
import Postgamma.Library.Program

/-!
# Objects of the public interface

Connections, statements, requests, results and COPY objects of `postgamma.c`, `postgamma_protocol.c`
and `postgamma_copy.c`, with the request counters of the instance.  A call of the interface is one
step.  What the private protocol library answers, whether memory is there and when a deadline passes
is given with the call: a loop that waits runs over a list of answers and ends in a timeout behind
the last one.

A request and its result lease are allocated together and share their number.  The ledger lists the
requests that were added to a terminal counter.
-/

namespace Postgamma.Embedded

/-- `PostgammaPublicRequestMode`. -/
inductive RequestMode where
  | extended
  | script
  | prepared
  | prepare
  | statementClose
  deriving DecidableEq

/-- `pgm_request_state`. -/
inductive RequestState where
  | pending
  | running
  | completed
  | canceled
  | failed
  deriving DecidableEq

def RequestState.terminal : RequestState → Bool
  | .pending => false
  | .running => false
  | _ => true

/-- The values of `pgm_status` that an operation ends with. -/
inductive OperationStatus where
  | ok
  | canceled
  | postgresError
  | internalError
  | outOfMemory
  | connectionFailed
  | timeout
  | invalidArgument
  | inputError
  deriving DecidableEq

/-- `pgm_result_status`, as far as the calls look at it. -/
inductive ResultKind where
  | plain
  | chunk
  | copyIn
  | copyOut
  | error
  deriving DecidableEq

/-- A result that starts a COPY. -/
def ResultKind.copies : ResultKind → Bool
  | .copyIn => true
  | .copyOut => true
  | _ => false

/-- What `postgamma_private_libpq_operation_progress` answers, with what follows from it. -/
inductive ProgressAnswer where
  | again
  /-- An error without completion. -/
  | refused
  /-- A result is ready; `canceled` says that its code is `57014`, `memory` that it can be wrapped. -/
  | result (kind : ResultKind) (canceled memory : Bool)
  /-- The operation is complete; `described` says that a description can be taken. -/
  | complete (status : OperationStatus) (described : Bool)
  deriving DecidableEq

/-- What `progress_unclaimed_copy` finds. -/
inductive UnclaimedCopy where
  | none
  | handled
  | failed
  deriving DecidableEq

/-- What the private library answers while a request is destroyed. -/
structure DestroyAnswers where
  sent : Bool
  cancel : List ProgressAnswer
  retire : List (UnclaimedCopy × ProgressAnswer)

/-- `pgm_connection`. -/
structure PublicConnection where
  closing : Bool
  failed : Bool
  activeRequest : Option ℕ
  statementCount : ℕ

/-- `pgm_statement`. -/
structure PublicStatement where
  connection : ℕ
  activeRequest : Option ℕ
  described : Bool
  remoteClosed : Bool

/-- `pgm_request`; `result` is a result that is not yet handed out. -/
structure PublicRequest where
  connection : ℕ
  statement : Option ℕ
  mode : RequestMode
  chunked : Bool
  state : RequestState
  operationStatus : OperationStatus
  result : Option ResultKind
  activeCopy : Option ℕ
  cancelRequested : Bool
  sawPostgresError : Bool
  sawCancelError : Bool
  terminalAccounted : Bool
  freePending : Bool

/-- `PostgammaPublicResultLease`. -/
structure ResultLease where
  references : ℕ
  outstanding : Bool
  owner : Option ℕ

/-- A `pgm_result` that was handed out. -/
structure PublicResult where
  kind : ResultKind
  lease : ℕ

/-- `pgm_copy`. -/
structure PublicCopy where
  request : ℕ
  lease : Option ℕ
  ioEnded : Bool
  released : Bool

/-- The objects of an instance. -/
structure Api where
  requestCount : ℕ
  activeCount : ℕ
  completedCount : ℕ
  canceledCount : ℕ
  failedCount : ℕ
  connectionCount : ℕ
  connections : ℕ → Option PublicConnection
  statements : ℕ → Option PublicStatement
  requests : ℕ → Option PublicRequest
  leases : ℕ → Option ResultLease
  results : ℕ → Option PublicResult
  copies : ℕ → Option PublicCopy
  next : ℕ
  started : List ℕ
  /-- The requests that were added to a terminal counter, with the state at that moment. -/
  ledger : List (ℕ × RequestState)
  freed : List ℕ

namespace Api

/-- An instance without objects. -/
def empty : Api :=
  { requestCount := 0, activeCount := 0, completedCount := 0, canceledCount := 0, failedCount := 0
    connectionCount := 0, connections := fun _ => none, statements := fun _ => none
    requests := fun _ => none, leases := fun _ => none, results := fun _ => none
    copies := fun _ => none, next := 0, started := [], ledger := [], freed := [] }

def editConnection (api : Api) (address : ℕ) (edit : PublicConnection → PublicConnection) : Api :=
  { api with
    connections := Function.update api.connections address ((api.connections address).map edit) }

def editStatement (api : Api) (address : ℕ) (edit : PublicStatement → PublicStatement) : Api :=
  { api with
    statements := Function.update api.statements address ((api.statements address).map edit) }

def editRequest (api : Api) (address : ℕ) (edit : PublicRequest → PublicRequest) : Api :=
  { api with requests := Function.update api.requests address ((api.requests address).map edit) }

def editCopy (api : Api) (address : ℕ) (edit : PublicCopy → PublicCopy) : Api :=
  { api with copies := Function.update api.copies address ((api.copies address).map edit) }

/-- `request_is_active`. -/
def isActive (api : Api) (address : ℕ) : Bool :=
  match api.requests address with
  | none => false
  | some request => !request.state.terminal

/-- `request->cancel_requested`. -/
def isCancelRequested (api : Api) (address : ℕ) : Bool :=
  match api.requests address with
  | none => false
  | some request => request.cancelRequested

/-- `request->result != NULL`. -/
def hasResult (api : Api) (address : ℕ) : Bool :=
  match api.requests address with
  | none => false
  | some request => request.result.isSome

/-- `result_lease_release`. -/
def leaseRelease (api : Api) (address : ℕ) : Api :=
  match api.leases address with
  | none => api
  | some lease =>
      if lease.references = 1 then
        { api with
          leases := Function.update api.leases address none
          freed := address :: api.freed }
      else
        { api with
          leases := Function.update api.leases address
            (some { lease with references := lease.references - 1 }) }

/-- The outstanding object of a lease goes. -/
def settleLease (api : Api) (address : ℕ) : Api :=
  { api with
    leases := Function.update api.leases address
      ((api.leases address).map fun lease => { lease with outstanding := false }) }

/-- The request of a lease goes. -/
def disown (api : Api) (address : ℕ) : Api :=
  { api with
    leases := Function.update api.leases address
      ((api.leases address).map fun lease => { lease with owner := none }) }

/-- `result_attach_lease` for a new result of a request; the result is handed out. -/
def attachLease (api : Api) (address : ℕ) (kind : ResultKind) : Option Api :=
  match api.leases address with
  | none => none
  | some lease =>
      if lease.outstanding = true then none
      else
        some { api with
          leases := Function.update api.leases address
            (some { lease with outstanding := true, references := lease.references + 1 })
          results := Function.update api.results api.next (some { kind := kind, lease := address })
          next := api.next + 1 }

/-- `pgm_result_free`. -/
def resultFree (api : Api) (address : ℕ) : Api :=
  match api.results address with
  | none => api
  | some result =>
      { (api.settleLease result.lease).leaseRelease result.lease with
        results := Function.update api.results address none }

/-- `request_account_terminal`. -/
def accountTerminal (api : Api) (address : ℕ) : Api :=
  match api.requests address with
  | none => api
  | some request =>
      if request.terminalAccounted = true ∨ request.state.terminal = false then api
      else
        { api with
          requests :=
            Function.update api.requests address (some { request with terminalAccounted := true })
          activeCount := api.activeCount - 1
          completedCount :=
            if request.state = .completed then api.completedCount + 1 else api.completedCount
          canceledCount :=
            if request.state = .canceled then api.canceledCount + 1 else api.canceledCount
          failedCount := if request.state = .failed then api.failedCount + 1 else api.failedCount
          ledger := (address, request.state) :: api.ledger }

/-- The request ends with a state and a status. -/
def settle (api : Api) (address : ℕ) (state : RequestState) (status : OperationStatus) : Api :=
  (api.editRequest address fun request =>
    { request with state := state, operationStatus := status }).accountTerminal address

def abortActiveRequest (api : Api) (address : ℕ) : Api :=
  match api.requests address with
  | none => api
  | some request =>
      api.editConnection request.connection fun connection => { connection with failed := true }

/-- The status of a complete operation before its description is taken. -/
def completeStatus (request : PublicRequest) (status : OperationStatus) : OperationStatus :=
  if status = .ok then
    if request.sawCancelError = true ∨ request.cancelRequested = true then .canceled
    else if request.sawPostgresError = true then .postgresError
    else .ok
  else status

/-- The state that a complete operation leaves behind. -/
def completeState (request : PublicRequest) (status : OperationStatus) : RequestState :=
  if status = .ok then .completed
  else if status = .canceled ∨ request.cancelRequested = true then .canceled
  else .failed

/-- The statement of a request, if it has one, is written. -/
def editOwnStatement (api : Api) (request : PublicRequest)
    (edit : PublicStatement → PublicStatement) : Api :=
  match request.statement with
  | none => api
  | some address => api.editStatement address edit

/-- The end of `progress_request_locked` behind a complete operation. -/
def complete (api : Api) (address : ℕ) (request : PublicRequest) (status : OperationStatus)
    (described : Bool) : Api :=
  let status := completeStatus request status
  let prepares := status = .ok ∧ request.mode = .prepare
  let api :=
    if prepares then
      api.editOwnStatement request fun statement => { statement with described := described }
    else api
  let status := if prepares ∧ described = false then .internalError else status
  let api :=
    if status = .ok ∧ request.mode = .statementClose then
      api.editOwnStatement request fun statement => { statement with remoteClosed := true }
    else api
  api.settle address (completeState request status) status

/-- A result becomes the result of a request. -/
def receive (kind : ResultKind) (canceled : Bool) (request : PublicRequest) : PublicRequest :=
  if kind = .error then
    { request with result := some kind, sawCancelError := canceled, sawPostgresError := !canceled }
  else { request with result := some kind }

/-- A request is running. -/
def run (request : PublicRequest) : PublicRequest := { request with state := .running }

/-- `progress_request_locked`, and whether its status is good. -/
def progress (api : Api) (address : ℕ) (answer : ProgressAnswer) : Api × Bool :=
  match api.requests address with
  | none => (api, false)
  | some request =>
      if request.state.terminal = true then (api, true)
      else if request.result.isSome = true then (api, true)
      else
        let api := api.editRequest address run
        if request.activeCopy.isSome = true then (api, answer ≠ .refused)
        else
          match answer with
          | .again => (api, true)
          | .refused => (api, false)
          | .result kind canceled memory =>
              if memory = false then
                ((api.settle address .failed .outOfMemory).abortActiveRequest address, true)
              else (api.editRequest address (receive kind canceled), true)
          | .complete status described => (api.complete address request status described, true)

/-- The result of a request is taken out or put back. -/
def setResult (api : Api) (address : ℕ) (result : Option ResultKind) : Api :=
  api.editRequest address fun request => { request with result := result }

/-- What is collected goes back if the request has no other result. -/
def putBack (api : Api) (address : ℕ) (collected : Option ResultKind) : Api :=
  if api.hasResult address = true ∨ collected = none then api
  else api.setResult address collected

/-- The end of `pgm_request_wait` behind its loop. -/
def waitFinish (api : Api) (address : ℕ) (wanted : Bool) (collected : Option ResultKind) : Api :=
  match api.requests address, collected with
  | some request, some kind =>
      if request.operationStatus = .ok then
        if wanted = true then
          match api.attachLease address kind with
          | some after => after
          | none => api.setResult address (some kind)
        else api.setResult address (some kind)
      else api
  | _, _ => api

/-- The loop of `pgm_request_wait`. -/
def waitLoop (api : Api) (address : ℕ) (wanted : Bool) :
    List ProgressAnswer → Option ResultKind → Api
  | [], collected => api.putBack address collected
  | answer :: rest, collected =>
      let (api, fine) := api.progress address answer
      if fine = false then api.putBack address collected
      else
        match api.requests address with
        | none => api
        | some request =>
            match request.result with
            | some kind =>
                if kind.copies = true ∨ kind = .chunk then api
                else if collected.isSome = true then
                  (api.settle address .failed .internalError).abortActiveRequest address
                else
                  let api := api.setResult address none
                  if request.state.terminal = true then api.waitFinish address wanted (some kind)
                  else api.waitLoop address wanted rest (some kind)
            | none =>
                if request.state.terminal = true then api.waitFinish address wanted collected
                else api.waitLoop address wanted rest collected

/-- `lease->outstanding`. -/
def isOutstanding (api : Api) (address : ℕ) : Bool :=
  match api.leases address with
  | none => false
  | some lease => lease.outstanding

/-- `pgm_request_wait`; `wanted` says that the caller takes the result. -/
def requestWait (api : Api) (address : ℕ) (wanted : Bool) (answers : List ProgressAnswer) : Api :=
  match api.requests address with
  | none => api
  | some request =>
      if request.mode = .script ∨ request.chunked = true ∨ api.isOutstanding address = true then api
      else api.waitLoop address wanted answers none

/-- `transfer_ready_result_locked`. -/
def transferResult (api : Api) (address : ℕ) (kind : ResultKind) : Api :=
  match api.attachLease address kind with
  | some after => after.setResult address none
  | none => api

/-- The loop of `pgm_request_next_result`. -/
def nextLoop (api : Api) (address : ℕ) : List ProgressAnswer → Api
  | [] => api
  | answer :: rest =>
      let (api, fine) := api.progress address answer
      if fine = false then api
      else
        match api.requests address with
        | none => api
        | some request =>
            match request.result with
            | some kind => api.transferResult address kind
            | none => if request.state.terminal = true then api else api.nextLoop address rest

/-- `pgm_request_next_result`. -/
def requestNextResult (api : Api) (address : ℕ) (answers : List ProgressAnswer) : Api :=
  if api.isOutstanding address = true then api else api.nextLoop address answers

/-- The loop of `pgm_request_cancel`. -/
def cancelLoop (api : Api) (address : ℕ) : List ProgressAnswer → Api
  | [] => api
  | answer :: rest =>
      let (api, fine) := api.progress address answer
      if fine = false ∨ api.isActive address = false ∨ api.hasResult address = true then api
      else api.cancelLoop address rest

def requestCancelMark (request : PublicRequest) : PublicRequest :=
  { request with cancelRequested := true }

/-- `pgm_request_cancel`; `sent` says that the cancellation could be dispatched. -/
def requestCancel (api : Api) (address : ℕ) (sent : Bool) (answers : List ProgressAnswer) : Api :=
  match api.requests address with
  | none => api
  | some request =>
      if request.state.terminal = true then api
      else
        let api := api.editRequest address requestCancelMark
        if sent = false ∨ request.activeCopy.isSome = true then api
        else api.cancelLoop address answers

/-- A round of `retire_active_request`, and whether the loop goes on. -/
def retireRound (api : Api) (address : ℕ) (copy : UnclaimedCopy) (answer : ProgressAnswer) :
    Api × Bool :=
  let discarded := api.hasResult address
  let api := api.setResult address none
  match copy with
  | .failed => (api, false)
  | .handled => (api, api.isActive address)
  | .none =>
      let (api, fine) := api.progress address answer
      let api := if discarded = false then api.setResult address none else api
      (api, fine && api.isActive address)

/-- `retire_active_request`. -/
def retire (api : Api) (address : ℕ) : List (UnclaimedCopy × ProgressAnswer) → Api
  | [] => api
  | (copy, answer) :: rest =>
      let (api, again) := api.retireRound address copy answer
      if again = true then api.retire address rest else api

def clearConnection (address : ℕ) (connection : PublicConnection) : PublicConnection :=
  if connection.activeRequest = some address then { connection with activeRequest := none }
  else connection

def clearStatement (address : ℕ) (statement : PublicStatement) : PublicStatement :=
  if statement.activeRequest = some address then { statement with activeRequest := none }
  else statement

/-- The pointers of a connection and a statement to a request are cleared. -/
def detach (api : Api) (address : ℕ) (request : PublicRequest) : Api :=
  (api.editConnection request.connection (clearConnection address)).editOwnStatement request
    (clearStatement address)

/-- The end of `request_destroy`. -/
def removeRequest (api : Api) (address : ℕ) : Api :=
  match api.requests address with
  | none => api
  | some request =>
      let api := (api.detach address request).disown address
      { api.leaseRelease address with
        requests := Function.update api.requests address none }

/-- The part of `request_destroy` that ends the request. -/
def endRequest (api : Api) (address : ℕ) (answers : DestroyAnswers) : Api :=
  if api.isActive address = false then api
  else
    let api :=
      if api.isCancelRequested address = true then api
      else api.requestCancel address answers.sent answers.cancel
    let api := api.retire address answers.retire
    if api.isActive address = false then api
    else (api.abortActiveRequest address).settle address .failed .connectionFailed

def requestDestroy (api : Api) (address : ℕ) (answers : DestroyAnswers) : Api :=
  (api.endRequest address answers).removeRequest address

/-- The request is given back while its COPY object is alive. -/
def giveBack (request : PublicRequest) : PublicRequest :=
  { request with freePending := true, cancelRequested := true }

/-- `pgm_request_free`. -/
def requestFree (api : Api) (address : ℕ) (answers : DestroyAnswers) : Api :=
  match api.requests address with
  | none => api
  | some request =>
      if request.activeCopy.isSome = true then
        api.editRequest address giveBack
      else api.requestDestroy address answers

def submitCancel (api : Api) (address : ℕ) (request : PublicRequest) (submitted : Bool) : Api :=
  if submitted = true ∧ request.state.terminal = false then
    api.editRequest address requestCancelMark
  else api

/-- `postgamma_public_request_cancel_step`; `submitted` says that a cancellation is submitted,
`dispatched` that it has arrived. -/
def cancelStep (api : Api) (address : ℕ) (submitted dispatched : Bool) (answer : ProgressAnswer) :
    Api :=
  match api.requests address with
  | none => api
  | some request =>
      let api := api.submitCancel address request submitted
      if dispatched = false ∨ request.activeCopy.isSome = true then api
      else (api.progress address answer).1

/-- `postgamma_public_request_release_step`, and whether the request is gone. -/
def releaseStep (api : Api) (address : ℕ) (submitted dispatched : Bool) (copy : UnclaimedCopy)
    (answer : ProgressAnswer) : Api × Bool :=
  match api.requests address with
  | none => (api, false)
  | some request =>
      if request.activeCopy.isSome = true then (api, false)
      else
        let api := (api.submitCancel address request submitted).setResult address none
        match copy with
        | .failed => (api, false)
        | .handled =>
            if api.isActive address = false ∧ dispatched = true then
              (api.removeRequest address, true)
            else (api, false)
        | .none =>
            let (api, fine) := api.progress address answer
            if fine = true ∧ api.isActive address = false ∧ dispatched = true then
              (api.removeRequest address, true)
            else (api, false)

/-- A statement argument that fits the mode of a request. -/
def statementFits (api : Api) (connection : ℕ) (mode : RequestMode) : Option ℕ → Bool
  | none => mode = .extended || mode = .script
  | some address =>
      match api.statements address with
      | none => false
      | some statement =>
          (mode = .prepared || mode = .prepare || mode = .statementClose) &&
            statement.connection = connection && statement.activeRequest = none

/-- A request becomes the active one of its connection. -/
def claimConnection (address : ℕ) (connection : PublicConnection) : PublicConnection :=
  { connection with activeRequest := some address }

/-- A request becomes the active one of its statement. -/
def claimStatement (address : ℕ) (statement : PublicStatement) : PublicStatement :=
  { statement with activeRequest := some address }

/-- `request_start`; `possible` says that memory is there and the private library starts the
operation. -/
def requestStart (api : Api) (connection : ℕ) (mode : RequestMode) (statement : Option ℕ)
    (chunked possible : Bool) : Option Api :=
  match api.connections connection with
  | none => none
  | some record =>
      if record.failed = true ∨ record.closing = true ∨ record.activeRequest.isSome = true ∨
          api.statementFits connection mode statement = false ∨ possible = false then none
      else
        let request : PublicRequest :=
          { connection := connection, statement := statement, mode := mode, chunked := chunked
            state := .pending, operationStatus := .internalError, result := none
            activeCopy := none, cancelRequested := false, sawPostgresError := false
            sawCancelError := false, terminalAccounted := false, freePending := false }
        let address := api.next
        let api := (api.editConnection connection (claimConnection address)).editOwnStatement request
          (claimStatement address)
        some { api with
          requests := Function.update api.requests address (some request)
          leases := Function.update api.leases address
            (some { references := 1, outstanding := false, owner := some address })
          next := address + 1
          requestCount := api.requestCount + 1
          activeCount := api.activeCount + 1
          started := address :: api.started }

/-- The active COPY object of a request is set. -/
def setCopy (copy : Option ℕ) (request : PublicRequest) : PublicRequest :=
  { request with activeCopy := copy }

/-- `pgm_result_take_copy`; `possible` says that memory is there and the directions agree. -/
def takeCopy (api : Api) (address : ℕ) (possible : Bool) : Api :=
  match api.results address with
  | none => api
  | some result =>
      if result.kind.copies = false then api
      else
        match (api.leases result.lease).bind ResultLease.owner with
        | none => api
        | some owner =>
            match api.requests owner with
            | none => api
            | some request =>
                if request.activeCopy.isSome = true ∨ request.freePending = true ∨
                    api.isOutstanding result.lease = false ∨ possible = false then api
                else
                  let copy : PublicCopy :=
                    { request := owner, lease := some result.lease, ioEnded := false
                      released := false }
                  { api.editRequest owner (setCopy (some api.next)) with
                    copies := Function.update api.copies api.next (some copy)
                    results := Function.update api.results address none
                    next := api.next + 1 }

/-- The COPY object holds nothing any more. -/
def closeCopy (copy : PublicCopy) : PublicCopy :=
  { copy with lease := none, released := true, ioEnded := true }

/-- The COPY object gives back its request and its lease. -/
def releaseCopy (api : Api) (address : ℕ) (copy : PublicCopy) : Api :=
  let api := api.editRequest copy.request (setCopy none)
  let api :=
    match copy.lease with
    | none => api
    | some lease => (api.settleLease lease).leaseRelease lease
  api.editCopy address closeCopy

/-- The COPY object is freed. -/
def removeCopy (api : Api) (address : ℕ) : Api :=
  { api with copies := Function.update api.copies address none }

/-- `freePending` of the request of a COPY object. -/
def isFreePending (api : Api) (address : ℕ) : Bool :=
  match api.requests address with
  | none => false
  | some request => request.freePending

/-- `pgm_copy_close`; `drained` says that the transfer could be ended in time. -/
def copyClose (api : Api) (address : ℕ) (drained : Bool) (answers : DestroyAnswers) : Api :=
  match api.copies address with
  | none => api
  | some copy =>
      match api.requests copy.request with
      | none => api
      | some request =>
          if drained = false ∨ request.activeCopy ≠ some address then api
          else
            let api := (api.releaseCopy address copy).removeCopy address
            if request.freePending = true then api.requestDestroy copy.request answers else api

/-- `postgamma_public_copy_close_step`. -/
def copyCloseStep (api : Api) (address : ℕ) (drained submitted dispatched : Bool)
    (unclaimed : UnclaimedCopy) (answer : ProgressAnswer) : Api :=
  match api.copies address with
  | none => api
  | some copy =>
      if copy.released = false ∧ drained = false then api
      else
        let api := if copy.released = true then api else api.releaseCopy address copy
        if api.isFreePending copy.request = true then
          let (api, gone) := api.releaseStep copy.request submitted dispatched unclaimed answer
          if gone = true then api.removeCopy address else api
        else api.removeCopy address

/-! ## Connections and statements -/

/-- `postgamma_public_connection_begin`, when nothing fails. -/
def connectionOpen (api : Api) : Api :=
  { api with
    connections := Function.update api.connections api.next
      (some { closing := false, failed := false, activeRequest := none, statementCount := 0 })
    connectionCount := api.connectionCount + 1
    next := api.next + 1 }

/-- `pgm_connection_close`; `released` says that the backend is released in time. -/
def connectionClose (api : Api) (address : ℕ) (released : Bool) : Api :=
  match api.connections address with
  | none => api
  | some connection =>
      if connection.closing = true ∨ connection.activeRequest.isSome = true ∨
          connection.statementCount ≠ 0 then api
      else if released = false then api
      else
        { api with
          connections := Function.update api.connections address none
          connectionCount := api.connectionCount - 1 }

/-- A connection has one statement more. -/
def countStatement (record : PublicConnection) : PublicConnection :=
  { record with statementCount := record.statementCount + 1 }

/-- A connection has one statement less. -/
def uncountStatement (record : PublicConnection) : PublicConnection :=
  { record with statementCount := record.statementCount - 1 }

/-- A statement is added to its connection. -/
def addStatement (api : Api) (connection : ℕ) (described : Bool) : Api :=
  let address := api.next
  { api.editConnection connection countStatement with
    statements := Function.update api.statements address
      (some { connection := connection, activeRequest := none, described := described
              remoteClosed := false })
    next := address + 1 }

/-- `pgm_statement_prepare`. -/
def statementPrepare (api : Api) (connection : ℕ) (possible : Bool) : Api :=
  match api.connections connection with
  | none => api
  | some record =>
      if record.closing = true ∨ record.failed = true ∨ record.activeRequest.isSome = true ∨
          possible = false then api
      else api.addStatement connection true

/-- `postgamma_public_statement_prepare_async`; the statement goes again if the request cannot be
started. -/
def statementPrepareAsync (api : Api) (connection : ℕ) (possible : Bool) : Api :=
  match (api.addStatement connection false).requestStart connection .prepare (some api.next) false
      possible with
  | none => api
  | some after => after

/-- `postgamma_public_statement_close_async`. -/
def statementCloseAsync (api : Api) (address : ℕ) (possible : Bool) : Api :=
  match api.statements address with
  | none => api
  | some statement =>
      if statement.remoteClosed = true then api
      else
        (api.requestStart statement.connection .statementClose (some address) false
          possible).getD api

/-- `pgm_statement_execute_async`. -/
def statementExecuteAsync (api : Api) (address : ℕ) (chunked possible : Bool) : Api :=
  match api.statements address with
  | none => api
  | some statement =>
      if statement.described = false ∨ statement.remoteClosed = true then api
      else
        (api.requestStart statement.connection .prepared (some address) chunked possible).getD api

/-- `pgm_statement_close`; `closed` says that the server closes the statement. -/
def statementClose (api : Api) (address : ℕ) (closed : Bool) : Api :=
  match api.statements address with
  | none => api
  | some statement =>
      match api.connections statement.connection with
      | none => api
      | some connection =>
          if statement.activeRequest.isSome = true ∨ connection.activeRequest.isSome = true then api
          else if connection.failed = false ∧ statement.remoteClosed = false ∧ closed = false then
            api
          else if connection.statementCount = 0 then api
          else
            { api.editConnection statement.connection uncountStatement with
              statements := Function.update api.statements address none }

end Api

/-- The calls of the interface. -/
inductive ApiCall where
  | connectionOpen
  | connectionClose (connection : ℕ) (released : Bool)
  | statementPrepare (connection : ℕ) (possible : Bool)
  | statementPrepareAsync (connection : ℕ) (possible : Bool)
  | statementClose (statement : ℕ) (closed : Bool)
  | statementCloseAsync (statement : ℕ) (possible : Bool)
  | statementExecuteAsync (statement : ℕ) (chunked possible : Bool)
  /-- `pgm_execute_async` and the script calls. -/
  | execute (connection : ℕ) (script chunked possible : Bool)
  /-- `pgm_request_progress`, also by the event pump. -/
  | progress (request : ℕ) (answer : ProgressAnswer)
  | wait (request : ℕ) (wanted : Bool) (answers : List ProgressAnswer)
  | nextResult (request : ℕ) (answers : List ProgressAnswer)
  | cancel (request : ℕ) (sent : Bool) (answers : List ProgressAnswer)
  | cancelStep (request : ℕ) (submitted dispatched : Bool) (answer : ProgressAnswer)
  | releaseStep (request : ℕ) (submitted dispatched : Bool) (copy : UnclaimedCopy)
      (answer : ProgressAnswer)
  | free (request : ℕ) (answers : DestroyAnswers)
  | resultFree (result : ℕ)
  | takeCopy (result : ℕ) (possible : Bool)
  /-- `pgm_copy_write`, `pgm_copy_finish`, `pgm_copy_read` and `pgm_copy_abort`. -/
  | copyIo (copy : ℕ) (ended : Bool)
  | copyClose (copy : ℕ) (drained : Bool) (answers : DestroyAnswers)
  | copyCloseStep (copy : ℕ) (drained submitted dispatched : Bool) (unclaimed : UnclaimedCopy)
      (answer : ProgressAnswer)

namespace Api

/-- The caller holds the request and has not given it back. -/
def holds (api : Api) (address : ℕ) : Bool :=
  match api.requests address with
  | none => false
  | some request => !request.freePending

/-- The state behind a call. -/
def apply (api : Api) : ApiCall → Api
  | .connectionOpen => api.connectionOpen
  | .connectionClose connection released => api.connectionClose connection released
  | .statementPrepare connection possible => api.statementPrepare connection possible
  | .statementPrepareAsync connection possible => api.statementPrepareAsync connection possible
  | .statementClose statement closed => api.statementClose statement closed
  | .statementCloseAsync statement possible => api.statementCloseAsync statement possible
  | .statementExecuteAsync statement chunked possible =>
      api.statementExecuteAsync statement chunked possible
  | .execute connection script chunked possible =>
      (api.requestStart connection (if script = true then .script else .extended) none chunked
        possible).getD api
  | .progress request answer => (api.progress request answer).1
  | .wait request wanted answers => api.requestWait request wanted answers
  | .nextResult request answers => api.requestNextResult request answers
  | .cancel request sent answers => api.requestCancel request sent answers
  | .cancelStep request submitted dispatched answer =>
      api.cancelStep request submitted dispatched answer
  | .releaseStep request submitted dispatched copy answer =>
      (api.releaseStep request submitted dispatched copy answer).1
  | .free request answers => api.requestFree request answers
  | .resultFree result => api.resultFree result
  | .takeCopy result possible => api.takeCopy result possible
  | .copyIo copy ended => api.editCopy copy fun copy => { copy with ioEnded := ended }
  | .copyClose copy drained answers => api.copyClose copy drained answers
  | .copyCloseStep copy drained submitted dispatched unclaimed answer =>
      api.copyCloseStep copy drained submitted dispatched unclaimed answer

/-- The request that a call is made on. -/
def requestOf : ApiCall → Option ℕ
  | .progress request _ => some request
  | .wait request _ _ => some request
  | .nextResult request _ => some request
  | .cancel request _ _ => some request
  | .cancelStep request _ _ _ => some request
  | .releaseStep request _ _ _ _ => some request
  | .free request _ => some request
  | _ => none

/-- One call; a request that was given back is not used any more. -/
def step (api : Api) (call : ApiCall) : Except Empty (Option Api) :=
  match requestOf call with
  | none => .ok (some (api.apply call))
  | some request => if api.holds request = true then .ok (some (api.apply call)) else .ok none

/-- The objects behind some calls. -/
def Reached (api : Api) : Prop :=
  ∃ calls, runs step empty calls = some api

end Api

end Postgamma.Embedded
