import Mathlib
import Postgamma.Library.Program

/-!
# The request gate of a Python connection

`Request`, `RowStream`, `CopyIn` and `CopyOut` of `_stream.py` and the methods of `Connection` that
use the request gate. What the native layer, the clock, the event handlers and the streams of the
application answer is an oracle: each answer depends on how many answers were given before. The
loops are given a number of rounds, and a call that waits for the gate for ever ends as blocked.
-/

namespace Postgamma
namespace Python
namespace RequestGate

/-- Why a call does not return. -/
inductive Raised
  | native
  | interface
  | programming
  | timeout
  /-- A refused argument, or an error of the application or of an event handler. -/
  | application
  /-- `release` of a lock that is not held. -/
  | unheld
  /-- The call waits for the gate for ever. -/
  | blocked
  /-- A loop was cut off. -/
  | running
  deriving DecidableEq

/-- The call has not ended. -/
def Raised.halts : Raised → Bool
  | .blocked => true
  | .running => true
  | _ => false

/-- The state of an input or an output of the native layer. -/
inductive IoState
  | progress
  | again
  | ended
  deriving DecidableEq

/-- What `request_next` delivers. -/
inductive Delivery
  | again
  | ended
  /-- A result, which is a chunk of rows or has rows, or neither. -/
  | result (rows : Bool)
  | copy (input : Bool)
  deriving DecidableEq

/-- What surrounds the connection: the answers of the native layer, of the clock and of the
application, by the number of earlier answers. -/
structure Environment where
  /-- A native call without an answer, or `select`. -/
  succeeds : ℕ → Bool
  requestClose : ℕ → Bool
  copyClose : ℕ → Bool
  next : ℕ → Option Delivery
  copyFinish : ℕ → Option IoState
  copyWrite : ℕ → Option (ℤ × IoState)
  copyRead : ℕ → Option (ℕ × IoState)
  /-- The transaction status is idle. -/
  idle : ℕ → Bool
  /-- `dispatch_events` with its handlers. -/
  dispatch : ℕ → Bool
  /-- The deadline of the request has passed. -/
  expired : ℕ → Bool
  /-- The length of what `source.read` gives. -/
  source : ℕ → Option ℕ
  /-- What `target.write` gives. -/
  target : ℕ → Option (Option ℤ)

/-- `Request`. -/
structure RequestState where
  handle : Bool
  closed : Bool
  ownsGate : Bool
  copyRef : Option ℕ
  deriving DecidableEq

/-- `CopyIn` or `CopyOut`. -/
structure CopyState where
  handle : Bool
  closed : Bool
  /-- It is a `CopyIn`. -/
  input : Bool
  ioEnded : Bool
  deriving DecidableEq

/-- A connection with its latest request. -/
structure Session where
  /-- How often the gate was acquired. -/
  acquired : ℕ
  /-- How often the gate was released. -/
  released : ℕ
  request : RequestState
  /-- The COPYs of the request. -/
  copies : List CopyState
  /-- `_closed` of the row stream. -/
  streamClosed : Bool
  /-- The iterator of the chunks of the row stream has ended. -/
  chunksEnded : Bool
  /-- How many answers were given. -/
  calls : ℕ
  deriving DecidableEq

/-- The gate is locked. -/
def Session.held (session : Session) : Bool := session.released < session.acquired

def Session.copy (session : Session) (index : ℕ) : CopyState :=
  session.copies.getD index { handle := false, closed := true, input := false, ioEnded := true }

/-- The state behind a change of a COPY. -/
def Session.setCopy (session : Session) (index : ℕ) (change : CopyState → CopyState) : Session :=
  { session with copies := session.copies.modify index change }

/-- The state behind an answer. -/
def Session.asked (session : Session) : Session := { session with calls := session.calls + 1 }

def Session.requestClosed (session : Session) : Session :=
  { session with
    request := { session.request with handle := false, closed := true, ownsGate := false } }

def Session.copyClosed (session : Session) (index : ℕ) : Session :=
  session.setCopy index fun copy => { copy with handle := false, closed := true }

/-- The state behind a request that was made. -/
def Session.made (session : Session) : Session :=
  { session with
    request := { handle := true, closed := false, ownsGate := true, copyRef := none }
    copies := []
    streamClosed := false
    chunksEnded := false }

/-- The state behind a new COPY. -/
def Session.attached (session : Session) (input : Bool) : Session :=
  { session with
    copies := session.copies ++
      [{ handle := true, closed := false, input := input, ioEnded := false }]
    request := { session.request with copyRef := some session.copies.length } }

/-- An answer. -/
def ask {α : Type} (answer : ℕ → α) : Program Raised Session α := do
  let session ← get
  set session.asked
  return answer session.calls

/-- A call that only succeeds or fails. -/
def call (answer : ℕ → Bool) (raised : Raised) : Program Raised Session Unit := do
  if ← ask answer then return () else throw raised

/-- A check in front of a call. -/
def require (condition : Bool) (raised : Raised) : Program Raised Session Unit :=
  if condition then return () else throw raised

/-- `_cleanup_preserving` behind an error. -/
def preserving (cleanup : Program Raised Session Unit) : Program Raised Session Unit :=
  tryCatch cleanup fun raised => if raised.halts then throw raised else return ()

/-- `except BaseException: _cleanup_preserving(cleanup); raise`. -/
def guarded {α : Type} (body : Program Raised Session α) (cleanup : Program Raised Session Unit) :
    Program Raised Session α :=
  tryCatch body fun raised =>
    if raised.halts then throw raised
    else do
      preserving cleanup
      throw raised

/-- `finally: _cleanup_preserving(cleanup)`. -/
def finallyDo {α : Type} (body : Program Raised Session α)
    (cleanup : Program Raised Session Unit) : Program Raised Session α := do
  let value ← guarded body cleanup
  cleanup
  return value

/-- `_request_gate.acquire()`. -/
def acquire : Program Raised Session Unit := do
  let session ← get
  if session.held then throw .blocked
  else set { session with acquired := session.acquired + 1 }

/-- `_request_gate.release()`. -/
def release : Program Raised Session Unit := do
  let session ← get
  if session.held then set { session with released := session.released + 1 }
  else throw .unheld

section Environment

variable (environment : Environment)

def dispatchEvents : Program Raised Session Unit := call environment.dispatch .application

/-- The last part of `Request.close`. The native layer refuses to close a request with an open
COPY. -/
def retire : Program Raised Session Unit := do
  let session ← get
  if session.request.handle then do
    require (session.copies.all fun copy => copy.closed) .native
    call environment.requestClose .native
  let session ← get
  modify Session.requestClosed
  if session.request.ownsGate then release

def releaseCopy (index : ℕ) : Program Raised Session Unit := do
  let session ← get
  require (!(session.copy index).closed && (session.copy index).handle) .interface
  call environment.copyClose .native
  modify fun session => session.copyClosed index

mutual

/-- `Request.close`. -/
def closeRequest : ℕ → Program Raised Session Unit
  | 0 => throw .running
  | depth + 1 => do
      let session ← get
      if session.request.closed then return ()
      else
        match session.request.copyRef with
        | none => retire environment
        | some index =>
            if (session.copy index).closed then retire environment
            else do
              closeCopy depth index
              let session ← get
              if session.request.closed then return () else retire environment

/-- `_CopyBase.close`. -/
def closeCopy : ℕ → ℕ → Program Raised Session Unit
  | 0, _ => throw .running
  | depth + 1, index => do
      let session ← get
      if (session.copy index).closed then
        if session.request.closed then return () else closeRequest depth
      else finallyDo (releaseCopy environment index) (closeRequest depth)

end

/-- `Request.close`, where the calls nest at most three deep. -/
def requestClose : Program Raised Session Unit := closeRequest environment 3

/-- `_CopyBase.close`, where the calls nest at most four deep. -/
def copyClose (index : ℕ) : Program Raised Session Unit := closeCopy environment 4 index

/-- `Request.__init__`.  A timeout that is refused raises in front of the request, which then owns
nothing. -/
def init (timed : Bool) : Program Raised Session Unit := do
  require timed .application
  modify Session.made
  tryCatch
    (do
      call environment.succeeds .native
      call environment.succeeds .native)
    fun raised => do
      preserving (call environment.requestClose .native)
      modify Session.requestClosed
      release
      throw raised

/-- `Request.start` and `Request.from_statement`; of the arguments only the timeout is checked
behind the gate. -/
def start (timed encoded : Bool) : Program Raised Session Unit := do
  require encoded .application
  acquire
  tryCatch (call environment.succeeds .native) fun raised => do
    release
    throw raised
  init environment timed

def requireOpen : Program Raised Session Unit := do
  let session ← get
  require (!session.request.closed && session.request.handle) .interface

def cancel : Program Raised Session Unit := do
  let session ← get
  if session.request.closed || !session.request.handle then return ()
  else call environment.succeeds .native

def timedOut : Program Raised Session Unit := do
  preserving (cancel environment)
  preserving (requestClose environment)
  throw .timeout

/-- `request_next`. The native layer has no further result while a COPY is open. -/
def requestNext : Program Raised Session Delivery := do
  let session ← get
  require (session.copies.all fun copy => copy.closed) .native
  match ← ask environment.next with
  | none => throw .native
  | some delivery => return delivery

/-- The loop of `_take`. -/
def takeLoop (block : Bool) : ℕ → Program Raised Session Delivery
  | 0 => throw .running
  | rounds + 1 => do
      let late ← ask environment.expired
      if block && late then timedOut environment
      let delivery ← guarded (requestNext environment) (requestClose environment)
      guarded (dispatchEvents environment) (requestClose environment)
      if delivery = .again ∧ block then takeLoop block rounds else return delivery

def take (block : Bool) (rounds : ℕ) : Program Raised Session Delivery := do
  requireOpen
  takeLoop environment block rounds

/-- A `Result` or a COPY. -/
inductive Item
  | result (rows : Bool)
  | copy (index : ℕ)
  deriving DecidableEq

/-- A new COPY. -/
def attach (input : Bool) : Program Raised Session Item := do
  let session ← get
  modify fun session => session.attached input
  return .copy session.copies.length

def convert : Delivery → Program Raised Session (Option Item)
  | .result rows => return some (.result rows)
  | .copy input => some <$> attach input
  | _ => throw .interface

def nextResult (rounds : ℕ) : Program Raised Session (Option Item) := do
  match ← take environment true rounds with
  | .ended => do
      requestClose environment
      return none
  | delivery => convert delivery

def tryNext (rounds : ℕ) : Program Raised Session (Option Item) := do
  match ← take environment false rounds with
  | .ended => do
      requestClose environment
      return none
  | .again => return none
  | delivery => convert delivery

/-- `list(results())`, with the number of results. -/
def results : ℕ → Program Raised Session ℕ
  | 0 => throw .running
  | rounds + 1 => do
      match ← nextResult environment rounds with
      | none => return 0
      | some (.copy index) => do
          copyClose environment index
          throw .programming
      | some (.result _) => return (← results rounds) + 1

/-- `state`. -/
def poll : Program Raised Session Unit := do
  requireOpen
  call environment.succeeds .native

def progress : Program Raised Session Unit := do
  requireOpen
  call environment.succeeds .native
  dispatchEvents environment

/-- `RowStream.close`. -/
def closeStream : Program Raised Session Unit := do
  let session ← get
  if session.streamClosed then return ()
  else do
    requestClose environment
    modify fun session => { session with streamClosed := true, chunksEnded := true }

/-- The loop of `chunks` up to the next chunk. -/
def chunkLoop : ℕ → Program Raised Session Unit
  | 0 => throw .running
  | rounds + 1 => do
      match ← nextResult environment rounds with
      | none => modify fun session => { session with streamClosed := true, chunksEnded := true }
      | some (.copy index) => do
          copyClose environment index
          throw .programming
      | some (.result rows) => if rows then return () else chunkLoop rounds

/-- One step of the iterator of the chunks; an iterator that has ended or raised stays ended. -/
def fetch (rounds : ℕ) : Program Raised Session Unit := do
  let session ← get
  if session.chunksEnded then return ()
  else
    guarded (chunkLoop environment rounds) do
      modify fun session => { session with chunksEnded := true }
      closeStream environment

/-- `_CopyBase._require_open`. -/
def requireOpenCopy (index : ℕ) : Program Raised Session Unit := do
  let session ← get
  require (!(session.copy index).closed && (session.copy index).handle) .interface

def progressWait : Program Raised Session Unit := do
  progress environment
  if ← ask environment.expired then timedOut environment
  call environment.succeeds .application

def finishRequest (rounds : ℕ) : Program Raised Session Unit := do
  let count ← results environment rounds
  requestClose environment
  require (count = 1) .interface

/-- The end of the input or the output of a COPY. -/
def endIo (index : ℕ) (rounds : ℕ) : Program Raised Session Unit := do
  modify fun session => session.setCopy index fun copy => { copy with ioEnded := true }
  releaseCopy environment index
  finishRequest environment rounds

def abort (index : ℕ) : Program Raised Session Unit := do
  let session ← get
  if (session.copy index).closed then return ()
  else
    finallyDo
      (do
        call environment.succeeds .native
        releaseCopy environment index)
      (requestClose environment)

/-- The loop of `write`. -/
def writeLoop : ℕ → ℕ → Program Raised Session Unit
  | 0, _ => throw .running
  | rounds + 1, left =>
      if left = 0 then return ()
      else do
        match ← ask environment.copyWrite with
        | none => throw .native
        | some (consumed, state) => do
            require (0 ≤ consumed ∧ consumed ≤ left) .interface
            match state with
            | .again => do
                require (consumed = 0) .interface
                progressWait environment
                writeLoop rounds left
            | .progress => do
                require (consumed ≠ 0) .interface
                writeLoop rounds (left - consumed.toNat)
            | .ended => throw .interface

def write (index length rounds : ℕ) : Program Raised Session Unit := do
  requireOpenCopy index
  writeLoop environment rounds length

/-- The loop of `finish`. -/
def finishLoop : ℕ → Program Raised Session Unit
  | 0 => throw .running
  | rounds + 1 => do
      match ← ask environment.copyFinish with
      | none => throw .native
      | some .ended => return ()
      | some .progress => throw .interface
      | some .again => do
          progressWait environment
          finishLoop rounds

def finish (index rounds : ℕ) : Program Raised Session Unit := do
  requireOpenCopy index
  finishLoop environment rounds
  endIo environment index rounds

/-- `copy_from`, which only a `CopyIn` has. -/
def copyFromLoop (index : ℕ) : ℕ → Program Raised Session Unit
  | 0 => throw .running
  | rounds + 1 => do
      match ← ask environment.source with
      | none => throw .application
      | some 0 => finish environment index rounds
      | some length => do
          write environment index length rounds
          copyFromLoop index rounds

/-- The loop of `read`, with the length of what it returns. -/
def readLoop (index : ℕ) : ℕ → Program Raised Session ℕ
  | 0 => throw .running
  | rounds + 1 => do
      match ← ask environment.copyRead with
      | none => throw .native
      | some (length, state) =>
          if length ≠ 0 then do
            require (state = .progress) .interface
            return length
          else
            match state with
            | .ended => do
                endIo environment index rounds
                return 0
            | .progress => throw .interface
            | .again => do
                progressWait environment
                readLoop index rounds

def read (index rounds : ℕ) : Program Raised Session ℕ := do
  requireOpenCopy index
  let session ← get
  if (session.copy index).ioEnded then do
    releaseCopy environment index
    finishRequest environment rounds
    return 0
  else readLoop environment index rounds

/-- The loop over what is left of a chunk in `copy_to`. -/
def drain : ℕ → ℕ → Program Raised Session Unit
  | 0, _ => throw .running
  | rounds + 1, left =>
      if left = 0 then return ()
      else do
        match ← ask environment.target with
        | none => throw .application
        | some none => return ()
        | some (some consumed) => do
            require (0 < consumed) .application
            drain rounds (left - consumed.toNat)

/-- `copy_to`, which only a `CopyOut` has. -/
def copyToLoop (index : ℕ) : ℕ → Program Raised Session Unit
  | 0 => throw .running
  | rounds + 1 => do
      let length ← read environment index rounds
      if length = 0 then return ()
      else do
        drain environment rounds length
        copyToLoop index rounds

/-- `_CopyBase.__exit__`. -/
def exitCopy (index : ℕ) (normal : Bool) (rounds : ℕ) : Program Raised Session Unit := do
  let session ← get
  if normal ∧ (session.copy index).input ∧ ¬(session.copy index).ioEnded then
    finish environment index rounds
  else copyClose environment index

/-- The arguments of a call, as far as they decide what it does. -/
structure Arguments where
  /-- The timeout, and what else is checked first, is accepted. -/
  timeout : Bool
  /-- A transaction may have to be started. -/
  begins : Bool
  /-- The parameters and limits are accepted. -/
  encoded : Bool

/-- `with self._request_gate:`. -/
def withGate (body : Program Raised Session Unit) : Program Raised Session Unit := do
  acquire
  tryCatch body fun raised => do
    release
    throw raised
  release

def nativeExecute (encoded : Bool) : Program Raised Session Unit := do
  require encoded .application
  withGate (call environment.succeeds .native)

/-- `_begin_transaction_if_needed`. -/
def beginIfNeeded (begins : Bool) : Program Raised Session Unit := do
  if begins then do
    call environment.succeeds .native
    if ← ask environment.idle then nativeExecute environment true

def execute (arguments : Arguments) : Program Raised Session Unit := do
  require arguments.timeout .application
  beginIfNeeded environment arguments.begins
  nativeExecute environment arguments.encoded

def executeScript (arguments : Arguments) (rounds : ℕ) : Program Raised Session Unit := do
  require arguments.timeout .application
  start environment true true
  let _ ← finallyDo (results environment rounds) (requestClose environment)

def prepare : Program Raised Session Unit := withGate (call environment.succeeds .native)

/-- `commit` and `rollback`. -/
def complete (allowed : Bool) : Program Raised Session Unit := do
  require allowed .programming
  call environment.succeeds .native
  if ← ask environment.idle then return () else nativeExecute environment true

/-- `stream` of a connection or of a statement, up to its row stream. -/
def stream (arguments : Arguments) : Program Raised Session Unit := do
  require arguments.timeout .application
  beginIfNeeded environment arguments.begins
  start environment true arguments.encoded

/-- `PreparedStatement.execute`. -/
def executeStatement (arguments : Arguments) (rounds : ℕ) : Program Raised Session Unit := do
  stream environment arguments
  let count ← finallyDo (results environment rounds) (requestClose environment)
  require (count = 1) .interface

def startCopy (rounds : ℕ) : Program Raised Session ℕ := do
  start environment true true
  match ← guarded (nextResult environment rounds) (requestClose environment) with
  | some (.copy index) => return index
  | _ => do
      requestClose environment
      throw .programming

def copy (arguments : Arguments) (rounds : ℕ) : Program Raised Session ℕ := do
  require arguments.timeout .application
  beginIfNeeded environment arguments.begins
  startCopy environment rounds

def copyFrom (arguments : Arguments) (rounds : ℕ) : Program Raised Session Unit := do
  let index ← copy environment arguments rounds
  finallyDo
    (do
      let session ← get
      require (session.copy index).input .application
      require arguments.encoded .application
      copyFromLoop environment index rounds)
    (copyClose environment index)

def copyTo (arguments : Arguments) (rounds : ℕ) : Program Raised Session Unit := do
  let index ← copy environment arguments rounds
  finallyDo
    (do
      let session ← get
      require (!(session.copy index).input) .application
      require arguments.encoded .application
      copyToLoop environment index rounds)
    (copyClose environment index)

/-! ## Runs -/

/-- A call of the application outside a block. -/
inductive Call
  | execute (arguments : Arguments)
  | executeScript (arguments : Arguments)
  | prepare
  | executeStatement (arguments : Arguments)
  | copyFrom (arguments : Arguments)
  | copyTo (arguments : Arguments)
  /-- `commit` or `rollback`. -/
  | complete (allowed : Bool)

def Call.program (rounds : ℕ) : Call → Program Raised Session Unit
  | .execute arguments => RequestGate.execute environment arguments
  | .executeScript arguments => RequestGate.executeScript environment arguments rounds
  | .prepare => RequestGate.prepare environment
  | .executeStatement arguments => RequestGate.executeStatement environment arguments rounds
  | .copyFrom arguments => RequestGate.copyFrom environment arguments rounds
  | .copyTo arguments => RequestGate.copyTo environment arguments rounds
  | .complete allowed => RequestGate.complete environment allowed

/-- What a block is about. -/
inductive Block
  | request
  | stream
  | copy (index : ℕ)

/-- The expression of a block. -/
inductive Opening
  /-- `Request.start` or `Request.from_statement`. -/
  | request (timed encoded : Bool)
  /-- `RowStream.start`. -/
  | rows (timed encoded : Bool)
  /-- `stream` of the connection or of a statement. -/
  | stream (arguments : Arguments)
  | copy (arguments : Arguments)

/-- The program of the expression of a block. -/
def Opening.program (rounds : ℕ) : Opening → Program Raised Session Block
  | .request timed encoded => do
      start environment timed encoded
      return .request
  | .rows timed encoded => do
      start environment timed encoded
      return .stream
  | .stream arguments => do
      RequestGate.stream environment arguments
      return .stream
  | .copy arguments => Block.copy <$> RequestGate.copy environment arguments rounds

/-- A call inside a block. -/
inductive Operation
  | poll
  | tryNext
  | nextResult
  | progress
  | cancel
  | closeRequest
  | fetch
  | closeStream
  | write (index length : ℕ)
  | finish (index : ℕ)
  | copyFrom (index : ℕ)
  | read (index : ℕ)
  | copyTo (index : ℕ)
  | abort (index : ℕ)
  | closeCopy (index : ℕ)

/-- A method of only one kind of COPY. -/
def methodOf (input : Bool) (index : ℕ) (body : Program Raised Session Unit) :
    Program Raised Session Unit := do
  let session ← get
  require ((session.copy index).input = input) .application
  body

/-- The program of a call inside a block. -/
def Operation.program (rounds : ℕ) : Operation → Program Raised Session Unit
  | .poll => RequestGate.poll environment
  | .tryNext => do let _ ← RequestGate.tryNext environment rounds
  | .nextResult => do let _ ← RequestGate.nextResult environment rounds
  | .progress => RequestGate.progress environment
  | .cancel => RequestGate.cancel environment
  | .closeRequest => requestClose environment
  | .fetch => RequestGate.fetch environment rounds
  | .closeStream => RequestGate.closeStream environment
  | .write index length => methodOf true index (RequestGate.write environment index length rounds)
  | .finish index => methodOf true index (RequestGate.finish environment index rounds)
  | .copyFrom index => methodOf true index (copyFromLoop environment index rounds)
  | .read index => methodOf false index do let _ ← RequestGate.read environment index rounds
  | .copyTo index => methodOf false index (copyToLoop environment index rounds)
  | .abort index => RequestGate.abort environment index
  | .closeCopy index => copyClose environment index

def Block.exit (normal : Bool) (rounds : ℕ) : Block → Program Raised Session Unit
  | .request => requestClose environment
  | .stream => RequestGate.closeStream environment
  | .copy index => exitCopy environment index normal rounds

/-- A request that the native layer has started has a timeout that is accepted. -/
def Opening.Timely (session : Session) : Opening → Prop
  | .request timed encoded | .rows timed encoded =>
      encoded = true → environment.succeeds session.calls = true → timed = true
  | _ => True

/-- The native calls of the loop of `finish` do not fail up to the end of the input or to the
deadline. -/
def FinishSucceeds : ℕ → ℕ → Prop
  | 0, _ => True
  | rounds + 1, calls =>
      match environment.copyFinish calls with
      | none => False
      | some .progress => False
      | some .ended => True
      | some .again =>
          environment.succeeds (calls + 1) = true ∧ environment.dispatch (calls + 2) = true ∧
            (environment.expired (calls + 3) = true ∨
              environment.succeeds (calls + 4) = true ∧ FinishSucceeds rounds (calls + 5))

/-- When the block of a `CopyIn` is left normally before its input has ended, the native calls that
finish it do not fail. -/
def Finishes (session : Session) (index : ℕ) (normal : Bool) (rounds : ℕ) : Prop :=
  normal = true → (session.copy index).input = true → (session.copy index).ioEnded = false →
    (session.copy index).closed = false → FinishSucceeds environment rounds session.calls

/-- The condition for the end of a block. -/
def Block.Finishes (session : Session) (normal : Bool) (rounds : ℕ) : Block → Prop
  | .copy index => RequestGate.Finishes environment session index normal rounds
  | _ => True

end Environment

/-- A call returns or raises. -/
def Left {α : Type} (program : Program Raised Session α) (session after : Session) : Prop :=
  (∃ value, program session = .ok value after) ∨
    ∃ raised, program session = .error raised after ∧ raised.halts = false

/-- A new connection. -/
def Session.start : Session where
  acquired := 0
  released := 0
  request := { handle := false, closed := true, ownsGate := false, copyRef := none }
  copies := []
  streamClosed := true
  chunksEnded := true
  calls := 0

/-- The states between two calls, with the block that is open: no other call is made inside a
block, and a block is left normally or by an exception. A COPY may have a block of its own inside
the block of a request or of a row stream. -/
inductive Reached (environment : Environment) : Session → Option Block → Prop
  | start : Reached environment Session.start none
  | call {session after : Session} (reached : Reached environment session none) (call : Call)
      (rounds : ℕ) (left : Left (call.program environment rounds) session after) :
      Reached environment after none
  | enter {session after : Session} {block : Block} (reached : Reached environment session none)
      (opening : Opening) (rounds : ℕ)
      (entered : opening.program environment rounds session = .ok block after) :
      Reached environment after (some block)
  | refused {session after : Session} {raised : Raised}
      (reached : Reached environment session none) (opening : Opening) (rounds : ℕ)
      (timely : opening.Timely environment session)
      (raises : opening.program environment rounds session = .error raised after)
      (ended : raised.halts = false) : Reached environment after none
  | operate {session after : Session} {block : Block}
      (reached : Reached environment session (some block)) (operation : Operation) (rounds : ℕ)
      (left : Left (operation.program environment rounds) session after) :
      Reached environment after (some block)
  | leaveCopy {session after : Session} {block : Block}
      (reached : Reached environment session (some block)) (index : ℕ) (normal : Bool) (rounds : ℕ)
      (finishes : Finishes environment session index normal rounds)
      (left : Left (exitCopy environment index normal rounds) session after) :
      Reached environment after (some block)
  | leave {session after : Session} {block : Block}
      (reached : Reached environment session (some block)) (normal : Bool) (rounds : ℕ)
      (finishes : block.Finishes environment session normal rounds)
      (left : Left (block.exit environment normal rounds) session after) :
      Reached environment after none

end RequestGate
end Python
end Postgamma
