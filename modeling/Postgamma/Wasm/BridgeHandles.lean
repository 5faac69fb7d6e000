import Mathlib
import Postgamma.Library.Census
import Postgamma.Library.Ownership
import Postgamma.Wasm.DirectoryArchive

/-!
# The handles of the bridge

The driver of `sql.c` owns every native object of the module and gives the client handles for them:
a slot of a table, and the generation of the slot. A command names its handle by both. The native
library and the clock are answered from outside; the numbers of the native objects are those of the
world that the calls of the driver leave.
-/

namespace Postgamma
namespace Wasm

open Text (Bytes)
open Ownership (World)
open FileTree (separator)

def slotCount : ℕ := 64

/-- A place of the table. -/
abbrev Slot := Fin slotCount

/-- The kinds of a handle. -/
inductive HandleKind where
  | instance_
  | connection
  | request
  | stream
  | connecting
  | statement
  | logical
  deriving DecidableEq, Repr

/-- The number of a kind on the wire. -/
def HandleKind.code : HandleKind → ℕ
  | instance_ => 1
  | connection => 2
  | request => 3
  | stream => 4
  | connecting => 5
  | statement => 7
  | logical => 8

/-- The classes of the native objects. -/
inductive NativeClass where
  | instance_
  | connection
  | statement
  | request
  | copy
  | operation
  deriving DecidableEq, Repr

/-- The class of the object that a handle of a kind points to. -/
def HandleKind.native : HandleKind → NativeClass
  | instance_ => .instance_
  | connection => .connection
  | request => .request
  | stream => .copy
  | connecting => .connection
  | statement => .statement
  | logical => .operation

/-- A call of the native library. -/
abbrev Call := Ownership.Call NativeClass

/-- A handle. Deadlines are in milliseconds, and zero stands for none. -/
structure Handle where
  kind : Option HandleKind
  generation : ℕ
  /-- The slot of the parent, counted from one; zero stands for none. -/
  parent : ℕ
  /-- The number of the native object. -/
  pointer : ℕ
  readySequence : ℕ
  watching : Bool
  closing : Bool
  progressWatching : Bool
  cancelDeadline : ℚ
  closeDeadline : ℚ
  closeRetry : ℚ

/-- A handle of static storage. -/
def Handle.zero : Handle :=
  { kind := none, generation := 0, parent := 0, pointer := 0, readySequence := 0, watching := false
    closing := false, progressWatching := false, cancelDeadline := 0, closeDeadline := 0
    closeRetry := 0 }

/-- The largest generation, `UINT32_MAX`. -/
def lastGeneration : ℕ := 4294967295

/-- The slot of a handle can be given out. -/
def Handle.reservable (handle : Handle) : Bool :=
  handle.kind.isNone && decide (handle.generation ≠ lastGeneration)

/-- The static state of the driver. -/
structure Bridge where
  handles : Slot → Handle
  psqlOwned : Bool
  archive : Archive
  pendingEvent : Bool
  eventNotified : Bool
  /-- The native objects, as the calls so far have left them. -/
  world : World NativeClass
  /-- The slots and generations that `publish` has given out. -/
  issued : List (Slot × ℕ)

def wireVersion : ℕ := 10

/-- `PGW_MAX_CONNECTIONS`. -/
def maxConnections : ℕ := 4

/-- `PGW_MAXIMUM_CHUNK_ROWS`. -/
def maximumChunkRows : ℕ := 1024

/-- `PGW_COPY_CHUNK_BYTES`. -/
def copyChunkBytes : ℕ := 16384

namespace Bridge

/-- The slots with a handle of a kind. -/
def count (bridge : Bridge) (test : HandleKind → Bool) : ℕ :=
  census (fun handle => handle.kind.any test) bridge.handles

/-- The slot that `reserve` returns. -/
def reserve (bridge : Bridge) : Option Slot :=
  (List.finRange slotCount).find? fun slot => (bridge.handles slot).reservable

/-- The slots that `PREPARE` counts. -/
def freeSlots (bridge : Bridge) : ℕ := census Handle.reservable bridge.handles

def children (bridge : Bridge) (slot : Slot) : Bool :=
  (List.finRange slotCount).any fun other =>
    (bridge.handles other).kind.isSome && decide ((bridge.handles other).parent = slot.val + 1)

/-- The slot behind an index that counts from one. -/
def slotOf (index : ℕ) : Option Slot :=
  if inside : 0 < index ∧ index - 1 < slotCount then some ⟨index - 1, inside.2⟩ else none

/-- The object of which `ready_sequence` reads the sequence. -/
def sequenceObject (bridge : Bridge) (slot : Slot) : Option ℕ :=
  if (bridge.handles slot).kind = some .stream then
    (slotOf (bridge.handles slot).parent).map fun above => (bridge.handles above).pointer
  else some (bridge.handles slot).pointer

/-- The instance of which the driver takes its events. -/
def eventSource (bridge : Bridge) : Option Slot :=
  (List.finRange slotCount).find? fun slot => (bridge.handles slot).kind = some .instance_

/-- Another handle in a slot. -/
def set (bridge : Bridge) (slot : Slot) (handle : Handle) : Bridge :=
  { bridge with handles := Function.update bridge.handles slot handle }

end Bridge

def lookup (bridge : Bridge) (kind : HandleKind) (reader : BridgeReader) :
    Option Slot × BridgeReader :=
  let (id, reader) := reader.get
  let (generation, reader) := reader.get
  match Bridge.slotOf id with
  | none => (none, { reader with failed := true })
  | some slot =>
      if (bridge.handles slot).kind ≠ some kind ∨ (bridge.handles slot).generation ≠ generation then
        (none, { reader with failed := true })
      else (some slot, reader)

/-- The statuses of the library that the driver itself gives. -/
def statusOk : ℕ := 0

def statusInvalidArgument : ℕ := 1

def statusBusy : ℕ := 2

def statusTimeout : ℕ := 3

def statusIoError : ℕ := 5

def statusOutOfMemory : ℕ := 12

def statusInternalError : ℕ := 13

/-- `pgm_availability` and `pgm_io_state`. -/
inductive Progress where
  | ready
  | again
  | ended
  deriving DecidableEq, Repr

/-- The number of a progress on the wire. -/
def Progress.code : Progress → ℕ
  | ready => 0
  | again => 1
  | ended => 2

/-- The variables of a command at work, with the native calls that it has made. -/
structure Turn where
  bridge : Bridge
  reader : BridgeReader
  payload : Writer
  status : ℕ
  message : Option String
  calls : List Call
  stop : Bool

namespace Turn

def call (turn : Turn) (call : Call) : Turn :=
  { turn with
    bridge := { turn.bridge with world := turn.bridge.world.after call }
    calls := turn.calls ++ [call] }

/-- A native call on an object that may not be there. -/
def useOn (turn : Turn) (class_ : NativeClass) : Option ℕ → Turn
  | none => turn.call .wild
  | some object => turn.call (.use class_ object)

/-- A native call on the object of a handle. -/
def use (turn : Turn) (class_ : NativeClass) (slot : Slot) : Turn :=
  turn.call (.use class_ (turn.bridge.handles slot).pointer)

/-- A native call that makes an object. -/
def create (turn : Turn) (class_ : NativeClass) (owner : Option Slot) : Turn :=
  turn.call (.create class_ (owner.map fun slot => (turn.bridge.handles slot).pointer)
    turn.bridge.world.next)

/-- A native call that frees the object of a handle. -/
def free (turn : Turn) (class_ : NativeClass) (slot : Slot) : Turn :=
  turn.call (.free class_ (turn.bridge.handles slot).pointer)

/-- The fields of a handle change. -/
def change (turn : Turn) (slot : Slot) (edit : Handle → Handle) : Turn :=
  { turn with bridge := turn.bridge.set slot (edit (turn.bridge.handles slot)) }

def put (turn : Turn) (word : ℕ) : Turn := { turn with payload := turn.payload.put word }

/-- Bytes that the native library gave go into the payload. -/
def record (turn : Turn) (data : Bytes) : Turn :=
  { turn with payload := turn.payload.bytes data }

/-- A status. -/
def answer (turn : Turn) (status : ℕ) : Turn := { turn with status }

def refuse (turn : Turn) (status : ℕ) (message : String) : Turn :=
  { turn with status, message := some message }

/-- A command that is not well formed. -/
def malformed (turn : Turn) : Turn := { turn with reader := { turn.reader with failed := true } }

/-- All of the command has been read. -/
def complete (turn : Turn) : Bool := turn.reader.rest.isEmpty

/-- The index of a slot, which counts from one. -/
def index (slot : Option Slot) : ℕ := (slot.map fun slot => slot.val + 1).getD 0

/-- `publish`: a slot gets a handle. -/
def publish (turn : Turn) (slot : Option Slot) (kind : HandleKind) (parent : Option Slot)
    (pointer : ℕ) : Turn :=
  match slot with
  | none => turn.call .wild
  | some slot =>
      let generation := ((turn.bridge.handles slot).generation + 1) % 4294967296
      let turn := turn.change slot fun handle =>
        { handle with
          kind := some kind, generation, pointer, closing := false, closeDeadline := 0
          closeRetry := 0, progressWatching := false, cancelDeadline := 0, parent := index parent }
      let turn := { turn with
        bridge := { turn.bridge with issued := turn.bridge.issued ++ [(slot, generation)] } }
      ((turn.put kind.code).put (slot.val + 1)).put generation

def retire (turn : Turn) (slot : Slot) : Turn :=
  turn.change slot fun handle =>
    { handle with watching := false, progressWatching := false, kind := none, parent := 0
                  pointer := 0 }

def progressAgain (turn : Turn) (slot : Slot) (now : ℚ) : Turn :=
  (turn.change slot fun handle =>
    { handle with closeRetry := now + 1, progressWatching := true }).put Progress.again.code

def watchBegin (turn : Turn) (slot : Slot) (sequence : ℕ → ℕ) : Turn :=
  let turn := turn.change slot fun handle => { handle with watching := false }
  let object := turn.bridge.sequenceObject slot
  (turn.useOn .request object).change slot fun handle =>
    { handle with readySequence := sequence (object.getD 0) }

/-- A handle is watched from now on, or not. -/
def watch (turn : Turn) (slot : Slot) (watching : Bool) : Turn :=
  turn.change slot fun handle => { handle with watching }

end Turn

/-- How `postgamma_wasm_storage_mount` ends. -/
inductive Mount where
  | mounted
  | busy
  | failed
  deriving DecidableEq, Repr

/-- How `postgamma_wasm_psql_close` ends. -/
inductive PsqlEnd where
  | closed
  | again
  | failed
  deriving DecidableEq, Repr

/-- An event of the native queue. -/
inductive NativeEvent where
  | notification (connection : ℕ) (record : Bytes)
  | overflow (notifications : Bool) (record : Bytes)
  | log
  deriving DecidableEq, Repr

/-- What a native call said of a result that it returned. -/
structure NativeResult where
  copy : Bool
  record : Bytes
  recordStatus : ℕ

/-- What the native library, the system and the clock answer in a command. -/
structure Native where
  /-- The first and the second reading of the clock, and the one of `progress_again`. -/
  clock : ℚ
  clockAgain : ℚ
  clockRetry : ℚ
  /-- `postgamma_public_request_ready_sequence`. -/
  sequence : ℕ → ℕ
  /-- `pgm_instance_get_telemetry`. -/
  telemetry : ℕ
  pinned : ℕ
  active : ℕ
  workers : ℕ
  /-- `pgm_connection_get_status`. -/
  session : ℕ
  carrierRetained : Bool
  /-- The call that the command is for. -/
  status : ℕ
  complete : Bool
  progress : Progress
  words : Bytes
  /-- `pgm_request_next_result`; zero stands for no error. -/
  errorStatus : ℕ
  result : Option NativeResult
  /-- `pgm_result_take_copy`. -/
  take : ℕ
  /-- `postgamma_public_statement_close_async` returned a request. -/
  request : Bool
  /-- The fields of a statement and of its connection. -/
  remoteClosed : Bool
  connectionFailed : Bool
  /-- The storage of `OPEN`. -/
  persistentPath : Bool
  mount : Mount
  destinationMissing : Bool
  destinationMade : Bool
  marked : Bool
  incomplete : Bool
  committed : Bool
  storageClosed : Bool
  /-- The fields of an operation, its cancellation and its lock. -/
  allocated : Bool
  dump : Bool
  operationState : ℕ
  consumed : ℕ
  output : Bytes
  cancel : ℕ
  locked : Bool
  workerGone : Bool
  /-- The terminal. -/
  psqlStarted : Bool
  psqlWritten : Bool
  psqlEnd : PsqlEnd
  /-- The events that are taken, and the identities of the connections. -/
  events : List NativeEvent
  identity : ℕ → ℕ
  /-- The files and what the system does with them. -/
  files : FileTree.Files
  readCalls : ReadCalls
  writeCalls : WriteCalls

/-- The carriers that are taken, with those that connections at their start will take. -/
def Native.taken (answers : Native) (opening : ℕ) : ℕ := answers.pinned + answers.active + opening

/-- The commands. -/
inductive Operation where
  | open_
  | connect
  | execute
  | next
  | release
  | disconnect
  | close
  | connectionStatus
  | cancel
  | telemetry
  | stop
  | copyRead
  | copyWrite
  | copyFinish
  | copyClose
  | copyAbort
  | connectPoll
  | script
  | events
  | restoreOpen
  | archiveRead
  | archiveWrite
  | restoreFinish
  | prepare
  | statementExecute
  | statementInfo
  | statementClose
  | statementFree
  | logicalDump
  | logicalRestore
  | logicalStep
  | logicalClose
  | psqlStart
  | psqlRead
  | psqlWrite
  | psqlInterrupt
  | psqlClose
  | unknown
  deriving DecidableEq, Repr

namespace Operation

/-- The commands in the order of their codes, which count from one. -/
def all : List Operation :=
  [open_, connect, execute, next, release, disconnect, close, connectionStatus, cancel, telemetry,
    stop, copyRead, copyWrite, copyFinish, copyClose, copyAbort, connectPoll, script, events,
    restoreOpen, archiveRead, archiveWrite, restoreFinish, prepare, statementExecute, statementInfo,
    statementClose, statementFree, logicalDump, logicalRestore, logicalStep, logicalClose,
    psqlStart, psqlRead, psqlWrite, psqlInterrupt, psqlClose]

def ofCode (code : ℕ) : Operation := if code = 0 then unknown else all.getD (code - 1) unknown

/-- The kind of the handle that the command names, if it names one. -/
def target : Operation → Option HandleKind
  | open_ | stop | events | restoreOpen | archiveRead | archiveWrite | restoreFinish => none
  | connect | close | telemetry | logicalDump | logicalRestore | psqlStart | psqlRead | psqlWrite
  | psqlInterrupt | psqlClose => some .instance_
  | logicalStep | logicalClose => some .logical
  | connectPoll => some .connecting
  | next | release | cancel => some .request
  | statementExecute | statementInfo | statementClose | statementFree => some .statement
  | copyRead | copyWrite | copyFinish | copyClose | copyAbort => some .stream
  | execute | disconnect | connectionStatus | script | prepare | unknown => some .connection

/-- The command reserves a slot before anything else. -/
def reserves : Operation → Bool
  | open_ | restoreFinish | connect | execute | script | prepare | statementExecute | statementClose
  | logicalDump | logicalRestore => true
  | _ => false

/-- The command is refused while the terminal owns the instance. -/
def needsInstance : Operation → Bool
  | connect | logicalDump | logicalRestore | close => true
  | _ => false

/-- The command goes on with a handle that is closing. -/
def retires : Operation → Bool
  | disconnect | release | copyClose | statementClose | statementFree | logicalClose => true
  | _ => false

/-- The command starts a request, which takes a carrier. -/
def executes : Operation → Bool
  | execute | script | statementExecute | prepare => true
  | _ => false

end Operation

/-- The arguments of `OPEN`. -/
structure OpenArguments where
  create : ℕ
  workers : ℕ
  path : Option Bytes
  storage : ℕ
  name : Option Bytes
  sampling : ℕ

/-- The arguments of `OPEN` are read. -/
def OpenArguments.read (reader : BridgeReader) : OpenArguments × BridgeReader :=
  let (create, reader) := reader.get
  let (workers, reader) := reader.get
  let (path, reader) := reader.string
  let (storage, reader) := reader.get
  let (name, reader) := reader.string
  let (_, reader) := reader.string
  let (sampling, reader) := reader.get
  ({ create, workers, path, storage, name, sampling }, reader)

/-- The checks of `OPEN` on its arguments. -/
def OpenArguments.sound (arguments : OpenArguments) (reader : BridgeReader) : Bool :=
  !reader.failed && decide (arguments.create ≤ 1) && decide (arguments.storage ≤ 1) &&
    decide (2 ≤ arguments.workers) && decide (arguments.workers ≤ 4) &&
    decide (arguments.sampling ≤ 60000) && reader.rest.isEmpty

def persistentDatabase : Bytes :=
  [47, 112, 101, 114, 115, 105, 115, 116, 101, 110, 116, 47, 100, 97, 116, 97, 98, 97, 115, 101]

namespace Turn

/-- The path that an instance is opened at; persistent storage is mounted first. -/
def openPath (op : Operation) (native : Native) (arguments : OpenArguments) (turn : Turn) :
    Except Turn Bytes :=
  if arguments.storage = 0 then .ok (arguments.path.getD [])
  else if native.persistentPath = false then
    .error (turn.refuse statusOutOfMemory "OPFS database path allocation failed")
  else if op = .restoreFinish then .ok persistentDatabase
  else
    match native.mount with
    | .mounted => .ok persistentDatabase
    | .busy => .error (turn.refuse statusBusy "OPFS storage could not be opened")
    | .failed => .error (turn.refuse statusIoError "OPFS storage could not be opened")

/-- `RESTORE_OPEN`, behind the checks that it shares with `OPEN`. -/
def restoreOpen (native : Native) (path : Bytes) (turn : Turn) : Turn :=
  if native.destinationMissing = false then
    turn.refuse statusInvalidArgument "Restore requires a new empty destination"
  else if native.destinationMade = false then
    turn.refuse statusIoError "Could not create restore destination"
  else if native.marked = false then turn.answer statusIoError
  else
    { turn with
      bridge := { turn.bridge with
        archive := { turn.bridge.archive with databasePath := some path, restoring := true } } }

/-- `pgm_instance_open` and what follows it. -/
def openInstance (op : Operation) (native : Native) (path : Bytes) (slot : Option Slot)
    (turn : Turn) : Turn :=
  if native.status ≠ statusOk then turn.answer native.status
  else
    let instance_ := turn.bridge.world.next
    let turn := turn.create .instance_ none
    if op = .restoreFinish ∧ native.committed = false then
      (turn.call (.free .instance_ instance_)).refuse statusIoError
        "Could not commit restored storage"
    else
      let restoring := if op = .restoreFinish then false else turn.bridge.archive.restoring
      let archive := { turn.bridge.archive with
        restoring, databasePath := some path, ready := false }
      { turn with bridge := { turn.bridge with archive } }.publish slot .instance_ none instance_

/-- `OPEN`, `RESTORE_OPEN` and `RESTORE_FINISH`. -/
def opening (op : Operation) (native : Native) (slot : Option Slot) (turn : Turn) : Turn :=
  let (arguments, reader) := OpenArguments.read turn.reader
  let turn := { turn with reader }
  if 0 < turn.bridge.count (· = .instance_) then turn.answer statusBusy
  else if arguments.sound reader = false then turn.malformed
  else if op = .restoreFinish ∧ (turn.bridge.archive.restoring = false ∨
      turn.bridge.archive.restoreComplete = false ∨ arguments.create ≠ 0) then turn.malformed
  else
    match openPath op native arguments turn with
    | .error turn => turn
    | .ok path =>
        if path.head? ≠ some separator ∨ 2048 < path.length then turn.malformed
        else if op = .restoreOpen then turn.restoreOpen native path
        else if op = .restoreFinish ∧ turn.bridge.archive.databasePath ≠ some path then
          turn.refuse statusInvalidArgument "Restore path changed"
        else if op ≠ .restoreFinish ∧ native.incomplete = true then
          turn.refuse statusInvalidArgument "Destination contains an incomplete restore"
        else turn.openInstance op native path slot

def connect (native : Native) (instance_ : Slot) (slot : Option Slot) (turn : Turn) : Turn :=
  let sessions := turn.bridge.count fun kind =>
    kind = .connection ∨ kind = .connecting ∨ kind = .logical
  let opening := turn.bridge.count fun kind => kind = .connecting ∨ kind = .logical
  if maxConnections ≤ sessions then
    turn.refuse statusBusy "Maximum live connections reached"
  else
    let turn := turn.use .instance_ instance_
    if native.telemetry ≠ statusOk then turn.answer native.telemetry
    else if native.workers ≤ native.taken opening then
      turn.refuse statusBusy "No carrier is available for a new connection"
    else
      let (_, reader) := turn.reader.string
      let turn := { turn with reader }
      if reader.failed = true ∨ turn.complete = false then turn.malformed
      else
        let turn := turn.use .instance_ instance_
        if native.status ≠ statusOk then turn.answer native.status
        else
          let connection := turn.bridge.world.next
          (turn.create .connection (some instance_)).publish slot .connecting (some instance_)
            connection

def close (native : Native) (instance_ : Slot) (turn : Turn) : Turn :=
  if turn.complete = false then turn.malformed
  else if turn.bridge.children instance_ = true then turn.answer statusBusy
  else
    let turn := turn.use .instance_ instance_
    if native.status ≠ statusOk then turn.answer native.status
    else
      let turn := turn.free .instance_ instance_
      let turn := { turn with
        bridge := { turn.bridge with
          archive := { turn.bridge.archive with ready := true }
          pendingEvent := false, eventNotified := false } }
      (turn.retire instance_).record native.words

/-- `TELEMETRY`, `CONNECTION_STATUS` and `STATEMENT_INFO`: the native library is asked. -/
def inquire (native : Native) (class_ : NativeClass) (slot : Slot) (turn : Turn) : Turn :=
  if turn.complete = false then turn.malformed
  else ((turn.use class_ slot).answer native.status).record native.words

def psqlStart (native : Native) (instance_ : Slot) (turn : Turn) : Turn :=
  if turn.complete = false then turn.malformed
  else if turn.bridge.children instance_ = true ∨ turn.bridge.psqlOwned = true then
    turn.answer statusBusy
  else
    let turn := turn.use .instance_ instance_
    if native.psqlStarted = false then
      turn.refuse statusBusy "psql requires a fresh, exclusive instance"
    else { turn with bridge := { turn.bridge with psqlOwned := true } }

def psqlRead (native : Native) (turn : Turn) : Turn :=
  if turn.complete = false then turn.malformed
  else if turn.bridge.psqlOwned = false then turn.answer statusInvalidArgument
  else turn.record native.words

def psqlWrite (native : Native) (turn : Turn) : Turn :=
  let (data, reader) := turn.reader.blob
  let turn := { turn with reader }
  if reader.failed = true ∨ turn.complete = false ∨ data.getD [] = [] ∨
      16384 < (data.getD []).length then turn.malformed
  else if turn.bridge.psqlOwned = false then turn.answer statusInvalidArgument
  else if native.psqlWritten = false then
    turn.refuse statusBusy "psql input is full or closed"
  else turn

def psqlClose (native : Native) (turn : Turn) : Turn :=
  if turn.complete = false then turn.malformed
  else
    match if turn.bridge.psqlOwned = true then native.psqlEnd else .closed with
    | .closed => { turn with bridge := { turn.bridge with psqlOwned := false } }.put 1
    | .again => turn.put 0
    | .failed => turn.refuse statusInternalError "Could not join psql"

def connectPoll (native : Native) (slot : Slot) (turn : Turn) : Turn :=
  if turn.complete = false then turn.malformed
  else
    let turn := turn.change slot fun handle => { handle with progressWatching := false }
    let turn := (turn.use .connection slot).answer native.status
    if native.complete = true ∧ native.status ≠ statusOk then
      -- the last step of a failed startup has closed the connection
      (turn.free .connection slot).retire slot
    else if native.status = statusOk ∧ native.complete = true then
      let turn := turn.change slot fun handle => { handle with kind := some .connection }
      (((turn.put Progress.ended.code).put HandleKind.connection.code).put (slot.val + 1)).put
        (turn.bridge.handles slot).generation
    else if native.status = statusOk then turn.progressAgain slot native.clockRetry
    else turn

/-- Words are read and dropped until the reader fails. -/
def skipWords : ℕ → BridgeReader → BridgeReader
  | 0, reader => reader
  | count + 1, reader => if reader.failed = true then reader else skipWords count reader.get.2

def prepare (native : Native) (connection : Slot) (slot : Option Slot) (turn : Turn) : Turn :=
  if turn.bridge.freeSlots < 2 then turn.answer statusBusy
  else
    let (_, reader) := turn.reader.string
    let (count, reader) := reader.get
    let reader := if 64 < count then { reader with failed := true } else reader
    let reader := skipWords count reader
    let turn := { turn with reader }
    if reader.failed = true ∨ turn.complete = false then turn.malformed
    else
      let turn := turn.use .connection connection
      if native.status ≠ statusOk then turn.answer native.status
      else
        let statement := turn.bridge.world.next
        let turn := turn.create .statement (some connection)
        let request := turn.bridge.world.next
        let turn := turn.call (.create .request (some statement) request)
        let turn := turn.publish slot .statement (some connection) statement
        turn.publish turn.bridge.reserve .request slot request

def statementClose (native : Native) (statement : Slot) (slot : Option Slot) (turn : Turn) : Turn :=
  if turn.complete = false then turn.malformed
  else if turn.bridge.children statement = true then turn.answer statusBusy
  else
    let turn := turn.use .statement statement
    if native.status ≠ statusOk then turn.answer native.status
    else
      let request := turn.bridge.world.next
      let turn := if native.request = true then turn.create .request (some statement) else turn
      let turn := (turn.change statement fun handle => { handle with closing := true }).put
        (if native.request = true then 1 else 0)
      if native.request = true then turn.publish slot .request (some statement) request else turn

def connectionOf (turn : Turn) (statement : Slot) : Option ℕ :=
  (turn.bridge.world.objects (turn.bridge.handles statement).pointer).bind fun entry => entry.owner

def statementFree (native : Native) (statement : Slot) (turn : Turn) : Turn :=
  if turn.complete = false then turn.malformed
  else if turn.bridge.children statement = true then turn.answer statusBusy
  else
    let turn := turn.use .statement statement
    let turn := if native.remoteClosed = true then turn
      else turn.useOn .connection (turn.connectionOf statement)
    if native.remoteClosed = false ∧ native.connectionFailed = false then turn.answer statusBusy
    else if native.status ≠ statusOk then turn.answer native.status
    else (turn.free .statement statement).retire statement

/-- The parameters of a request are read. -/
def skipParameters : ℕ → BridgeReader → BridgeReader
  | 0, reader => reader
  | count + 1, reader =>
      if reader.failed = true then reader
      else
        let (_, reader) := reader.get
        let (format, reader) := reader.get
        let (null, reader) := reader.get
        let reader := if 1 < format ∨ 1 < null then { reader with failed := true } else reader
        let (data, reader) := reader.blob
        skipParameters count
          (if null ≠ 0 ∧ data.getD [] ≠ [] then { reader with failed := true } else reader)

/-- The arguments of `EXECUTE`, `STATEMENT_EXECUTE` and `SCRIPT` are read. -/
def readExecute (op : Operation) (reader : BridgeReader) : BridgeReader :=
  let reader := if op = .statementExecute then reader else reader.string.2
  let (format, reader) := if op = .script then (0, reader) else reader.get
  let (chunkRows, reader) := reader.get
  let (count, reader) := if op = .script then (0, reader) else reader.get
  let reader := if 64 < count ∨ 1 < format ∨ maximumChunkRows < chunkRows then
    { reader with failed := true } else reader
  skipParameters count reader

/-- `EXECUTE`, `STATEMENT_EXECUTE` and `SCRIPT`. -/
def execute (op : Operation) (native : Native) (parent : Slot) (slot : Option Slot) (turn : Turn) :
    Turn :=
  let reader := readExecute op turn.reader
  let turn := { turn with reader }
  if reader.failed = true ∨ turn.complete = false then turn.malformed
  else
    let class_ := if op = .statementExecute then .statement else .connection
    let turn := turn.use class_ parent
    if native.status ≠ statusOk then turn.answer native.status
    else
      let request := turn.bridge.world.next
      (turn.create .request (some parent)).publish slot .request (some parent) request

def disconnect (native : Native) (connection : Slot) (turn : Turn) : Turn :=
  if turn.complete = false then turn.malformed
  else if turn.bridge.children connection = true then turn.answer statusBusy
  else
    let turn := turn.change connection fun handle =>
      { handle with closing := true, watching := false, progressWatching := false }
    let turn := turn.change connection fun handle =>
      if handle.closeDeadline = 0 then { handle with closeDeadline := native.clock + 10000 }
      else handle
    let turn := (turn.use .connection connection).answer native.status
    if native.status = statusTimeout ∧
        native.clockAgain < (turn.bridge.handles connection).closeDeadline then
      (turn.answer statusOk).progressAgain connection native.clockRetry
    else
      let turn := turn.change connection fun handle => { handle with closeDeadline := 0 }
      if native.status = statusOk then
        ((turn.free .connection connection).retire connection).put Progress.ended.code
      else turn

def next (native : Native) (request : Slot) (turn : Turn) : Turn :=
  if turn.complete = false then turn.malformed
  else
    let turn := (turn.watchBegin request native.sequence).use .request request
    let status := if native.status = statusOk then native.errorStatus else native.status
    let turn := (turn.answer status).watch request
      (decide (status = statusOk) && decide (native.progress = .again))
    let turn := turn.put native.progress.code
    match native.result with
    | none => turn
    | some result =>
        let turn := if turn.status = statusOk then
          (turn.record result.record).answer result.recordStatus else turn
        if turn.status = statusOk ∧ result.copy = true then
          match turn.bridge.reserve with
          | none => turn.answer statusBusy
          | some slot =>
              let turn := turn.use .request request
              if native.take ≠ statusOk then turn.answer native.take
              else
                let copy := turn.bridge.world.next
                (turn.create .copy (some request)).publish (some slot) .stream (some request) copy
        else turn

/-- The deadline that `CANCEL`, `RELEASE`, `COPY_CLOSE` or `COPY_ABORT` keeps. -/
def deadline (closing : Bool) (handle : Handle) : ℚ :=
  if closing = true then handle.closeDeadline else handle.cancelDeadline

def setDeadline (closing : Bool) (deadline : ℚ) (handle : Handle) : Handle :=
  if closing = true then { handle with closeDeadline := deadline }
  else { handle with cancelDeadline := deadline }

/-- `CANCEL`, `RELEASE`, `COPY_CLOSE` and `COPY_ABORT`. -/
def lifecycle (native : Native) (class_ : NativeClass) (closing : Bool) (slot : Slot)
    (turn : Turn) : Turn :=
  if turn.complete = false then turn.malformed
  else if closing = true ∧ turn.bridge.children slot = true then turn.answer statusBusy
  else
    let turn := if closing = true then
      turn.change slot fun handle => { handle with closing := true, watching := false } else turn
    let turn := turn.change slot fun handle => { handle with progressWatching := false }
    let turn := turn.change slot fun handle =>
      if deadline closing handle = 0 then setDeadline closing (native.clock + 10000) handle
      else handle
    let turn := (turn.use class_ slot).answer native.status
    let turn := if native.status = statusOk ∧ native.complete = false ∧
        deadline closing (turn.bridge.handles slot) ≤ native.clockAgain then
      turn.refuse statusTimeout "Lifecycle operation timed out; handle retained for retry" else turn
    if turn.status ≠ statusOk ∨ native.complete = true then
      let turn := turn.change slot (setDeadline closing 0)
      if turn.status = statusOk then
        (if closing = true then (turn.free class_ slot).retire slot else turn).put
          Progress.ended.code
      else turn
    else turn.progressAgain slot native.clockRetry

/-- The native call of `COPY_READ`, `COPY_WRITE` and `COPY_FINISH`. -/
def copyMove (native : Native) (stream : Slot) (turn : Turn) : Turn :=
  let turn := ((turn.watchBegin stream native.sequence).use .copy stream).answer native.status
  let turn := turn.watch stream
    (decide (native.status = statusOk) && decide (native.progress = .again))
  (turn.put native.progress.code).record native.words

def copyRead (native : Native) (stream : Slot) (turn : Turn) : Turn :=
  let (capacity, reader) := turn.reader.get
  let turn := { turn with reader }
  if turn.complete = false ∨ capacity = 0 ∨ copyChunkBytes < capacity then turn.malformed
  else turn.copyMove native stream

def copyWrite (native : Native) (stream : Slot) (turn : Turn) : Turn :=
  let (data, reader) := turn.reader.blob
  let turn := { turn with reader }
  if reader.failed = true ∨ turn.complete = false ∨ data.getD [] = [] ∨
      copyChunkBytes < (data.getD []).length then turn.malformed
  else turn.copyMove native stream

def copyFinish (native : Native) (stream : Slot) (turn : Turn) : Turn :=
  if turn.complete = false then turn.malformed else turn.copyMove native stream

/-- `LOGICAL_DUMP` and `LOGICAL_RESTORE`. -/
def logicalStart (native : Native) (instance_ : Slot) (slot : Option Slot) (turn : Turn) : Turn :=
  let (_, reader) := turn.reader.get
  let (_, reader) := reader.string
  let (_, reader) := reader.string
  let turn := { turn with reader }
  if reader.failed = true ∨ turn.complete = false then turn.malformed
  else if 0 < turn.bridge.count (· = .logical) then
    turn.refuse statusBusy "A logical operation is already active"
  else
    let sessions := turn.bridge.count fun kind => kind = .connection ∨ kind = .connecting
    let opening := turn.bridge.count (· = .connecting)
    let turn := turn.use .instance_ instance_
    if native.telemetry ≠ statusOk then turn.answer native.telemetry
    else if maxConnections ≤ sessions ∨ native.workers ≤ native.taken opening then
      turn.refuse statusBusy "Logical backup/restore requires one available SQL session and carrier"
    else if native.allocated = false then turn.answer statusInternalError
    else
      let turn := turn.use .instance_ instance_
      if native.status ≠ statusOk then turn.answer native.status
      else
        let operation := turn.bridge.world.next
        (turn.create .operation (some instance_)).publish slot .logical (some instance_) operation

def logicalStep (native : Native) (slot : Slot) (turn : Turn) : Turn :=
  let turn := turn.use .operation slot
  let (final, reader) := turn.reader.get
  let (data, reader) := reader.blob
  let turn := { turn with reader }
  let size := (data.getD []).length
  if reader.failed = true ∨ turn.complete = false ∨ 1 < final ∨ copyChunkBytes < size ∨
      (final ≠ 0 ∧ size ≠ 0) ∨ (native.dump = true ∧ (size ≠ 0 ∨ final ≠ 0)) then turn.malformed
  else
    let turn := turn.watch slot false
    let turn := (turn.use .operation slot).answer native.status
    if native.status ≠ statusOk then turn
    else
      let turn := (turn.put native.operationState).put native.consumed
      let turn := { turn with payload := turn.payload.value (some native.output) }
      turn.watch slot
        (decide (native.operationState < 2) && decide (native.consumed = 0) &&
          native.output.isEmpty)

def logicalClose (native : Native) (slot : Slot) (turn : Turn) : Turn :=
  let turn := turn.use .operation slot
  if turn.complete = false then turn.malformed
  else
    let turn := turn.change slot fun handle =>
      { handle with watching := false, progressWatching := false }
    let first := (turn.bridge.handles slot).closing = false
    let turn := if first then
      (turn.change slot fun handle =>
        { handle with closing := true, closeDeadline := native.clock + 30000 }).use .operation slot
      else turn
    if first ∧ native.cancel ≠ statusOk ∧ native.cancel ≠ statusBusy then turn.answer native.cancel
    else if native.locked = false then turn.answer statusInternalError
    else if native.workerGone = false then
      if (turn.bridge.handles slot).closeDeadline ≤ native.clockAgain then
        turn.refuse statusTimeout "Logical tool cleanup timed out; instance must be discarded"
      else turn.progressAgain slot native.clockRetry
    else ((turn.free .operation slot).retire slot).put Progress.ended.code

/-- The connections that the driver asks for their identity or their messages. -/
def openConnections (bridge : Bridge) : List Slot :=
  (List.finRange slotCount).filter fun slot =>
    decide ((bridge.handles slot).kind = some .connection) && !(bridge.handles slot).closing

/-- A record of `marshal_events`. -/
def eventRecord (native : Native) (turn : Turn) (records : Writer) : NativeEvent → Writer × ℕ
  | .notification connection data =>
      let found := (openConnections turn.bridge).find? fun slot =>
        native.identity (turn.bridge.handles slot).pointer = connection
      match found with
      | none => (records, 0)
      | some slot =>
          (((((records.put 1).put HandleKind.connection.code).put (slot.val + 1)).put
            (turn.bridge.handles slot).generation).bytes data, 1)
  | .overflow notifications data =>
      if notifications = true then ((records.put 2).bytes data, 1) else (records, 0)
  | .log => (records, 0)

/-- The connections are asked for their identity. -/
def identify (turn : Turn) : Turn :=
  (openConnections turn.bridge).foldl (fun turn slot => turn.use .connection slot) turn

/-- `EVENTS`, which takes at most sixteen events. -/
def events (native : Native) (turn : Turn) : Turn :=
  if turn.complete = false then turn.malformed
  else
    let turn := match turn.bridge.eventSource with
      | none => turn
      | some slot => (turn.use .instance_ slot).identify
    let (records, count) := (native.events.take 16).foldl
      (fun (records, count) event =>
        let (records, more) := eventRecord native turn records event
        (records, count + more)) (Writer.fresh, 0)
    let payload := (turn.payload.put count).bytes records.data
    { turn with
      payload := { payload with failed := payload.failed || records.failed }
      bridge := { turn.bridge with pendingEvent := false, eventNotified := false }
      status := native.status }

/-- `ARCHIVE_READ` and `ARCHIVE_WRITE`. -/
def archive (op : Operation) (native : Native) (turn : Turn) : Turn :=
  if 0 < turn.bridge.count (fun _ => true) then
    turn.refuse statusIoError "Device or resource busy"
  else if op = .archiveRead then
    if turn.complete = false then turn.refuse statusIoError "Invalid argument"
    else
      match archiveRead native.readCalls native.files turn.payload turn.bridge.archive with
      | (.error _, archive) =>
          { turn with bridge := { turn.bridge with archive } }.answer statusIoError
      | (.ok payload, archive) => { turn with bridge := { turn.bridge with archive }, payload }
  else
    match archiveWrite native.writeCalls turn.reader native.files turn.bridge.archive with
    | (some _, _, archive) =>
        { turn with bridge := { turn.bridge with archive } }.answer statusIoError
    | (none, _, archive) => { turn with bridge := { turn.bridge with archive } }

/-- `STOP`. -/
def stopDriver (native : Native) (turn : Turn) : Turn :=
  if turn.complete = false then turn.malformed
  else if 0 < turn.bridge.count (fun _ => true) then turn.answer statusBusy
  else
    -- `archive_reset`
    let turn := { turn with
      bridge := { turn.bridge with
        archive := { turn.bridge.archive with file := none, levels := [] } } }
    if native.storageClosed = false then
      turn.refuse statusIoError "OPFS storage close failed"
    else { turn with stop := true }

/-! ## A command -/

/-- The switch over the commands that name a handle. -/
def serve (op : Operation) (native : Native) (handle : Slot) (slot : Option Slot) (turn : Turn) :
    Turn :=
  match op with
  | .connect => turn.connect native handle slot
  | .execute | .script | .statementExecute => turn.execute op native handle slot
  | .next => turn.next native handle
  | .release => turn.lifecycle native .request true handle
  | .cancel => turn.lifecycle native .request false handle
  | .disconnect => turn.disconnect native handle
  | .close => turn.close native handle
  | .connectionStatus => turn.inquire native .connection handle
  | .telemetry => turn.inquire native .instance_ handle
  | .copyRead => turn.copyRead native handle
  | .copyWrite => turn.copyWrite native handle
  | .copyFinish => turn.copyFinish native handle
  | .copyClose => turn.lifecycle native .copy true handle
  | .copyAbort => turn.lifecycle native .copy false handle
  | .connectPoll => turn.connectPoll native handle
  | .prepare => turn.prepare native handle slot
  | .statementInfo => turn.inquire native .statement handle
  | .statementClose => turn.statementClose native handle slot
  | .statementFree => turn.statementFree native handle
  | .logicalDump | .logicalRestore => turn.logicalStart native handle slot
  | .logicalStep => turn.logicalStep native handle
  | .logicalClose => turn.logicalClose native handle
  | .psqlStart => turn.psqlStart native handle
  | .psqlRead => turn.psqlRead native
  | .psqlWrite => turn.psqlWrite native
  | .psqlInterrupt => if turn.complete = false then turn.malformed else turn
  | .psqlClose => turn.psqlClose native
  | .open_ | .stop | .events | .restoreOpen | .archiveRead | .archiveWrite | .restoreFinish
  | .unknown => turn.malformed

/-- The switch over the commands that name none. -/
def serveBare (op : Operation) (native : Native) (slot : Option Slot) (turn : Turn) : Turn :=
  match op with
  | .open_ | .restoreOpen | .restoreFinish => turn.opening op native slot
  | .events => turn.events native
  | .archiveRead | .archiveWrite => turn.archive op native
  | .stop => turn.stopDriver native
  | _ => turn.malformed

/-- The carriers that connections at their start have reserved are not taken by a request. -/
def carrierCheck (op : Operation) (native : Native) (handle : Slot) (turn : Turn) : Turn :=
  let opening := turn.bridge.count (· = .connecting)
  if op.executes = false ∨ opening = 0 then turn
  else
    let connection := if op = .statementExecute then turn.connectionOf handle
      else some (turn.bridge.handles handle).pointer
    let turn := if op = .statementExecute then turn.use .statement handle else turn
    let instance_ := (connection.bind turn.bridge.world.objects).bind fun entry => entry.owner
    let turn := (turn.useOn .connection connection).useOn .instance_ instance_
    if native.telemetry ≠ statusOk then turn.answer native.telemetry
    else
      let turn := turn.useOn .connection connection
      if native.session ≠ statusOk then turn.answer native.session
      else if native.carrierRetained = false ∧
          native.workers ≤ native.taken opening then
        turn.refuse statusBusy "Carrier reserved for connection startup"
      else turn

/-- The checks in front of the switch, for a command that names a handle. -/
def guarded (op : Operation) (native : Native) (handle : Slot) (slot : Option Slot) (turn : Turn) :
    Turn :=
  if turn.bridge.psqlOwned = true ∧ op.needsInstance = true then
    turn.refuse statusBusy "Close the exclusive psql terminal first"
  else if (turn.bridge.handles handle).closing = true ∧ op.retires = false then
    turn.refuse statusBusy "Handle is closing"
  else
    let turn := turn.carrierCheck op native handle
    if turn.status ≠ statusOk then turn else turn.serve op native handle slot

/-- `command`, up to the label `done`. -/
def command (native : Native) (input : Bytes) (bridge : Bridge) : Turn :=
  let (version, reader) := (BridgeReader.of input).get
  let (_, reader) := reader.get
  let (code, reader) := reader.get
  let reader := if version ≠ wireVersion then { reader with failed := true } else reader
  let op := Operation.ofCode code
  let (handle, reader) := match op.target with
    | none => (none, reader)
    | some kind => lookup bridge kind reader
  let slot := if op.reserves = true then bridge.reserve else none
  let turn : Turn :=
    { bridge, reader, payload := Writer.fresh, message := none, calls := [], stop := false
      status := if op.reserves = true ∧ slot = none then statusBusy else statusOk }
  if reader.failed = true ∨ turn.status ≠ statusOk then turn
  else
    match handle with
    | none => turn.serveBare op native slot
    | some handle => turn.guarded op native handle slot

end Turn

/-- The reply of a command, its diagnostics apart. -/
structure Reply where
  sequence : ℕ
  code : ℕ
  status : ℕ
  message : Option String
  payload : Bytes
  deriving DecidableEq, Repr

/-- What stands behind the label `done`. -/
def Turn.reply (turn : Turn) (input : Bytes) : Reply :=
  let (_, reader) := (BridgeReader.of input).get
  let (sequence, reader) := reader.get
  let (code, _) := reader.get
  let status := if turn.reader.failed = true then statusInvalidArgument else turn.status
  let status := if turn.payload.failed = true then statusOutOfMemory else status
  { sequence, code, status, message := turn.message
    payload := if status = statusOk then turn.payload.data else [] }

/-! ## The loop of the driver -/

/-- An event that the driver sends to the client. -/
structure ReadyEvent where
  kind : ℕ
  id : ℕ
  generation : ℕ
  deriving DecidableEq, Repr

/-- What the native side answers between two commands. -/
structure Wake where
  now : ℚ
  sequence : ℕ → ℕ
  operationReady : ℕ → Bool
  progressReady : ℕ → Bool
  /-- The native queue has an event. -/
  event : Bool

/-- The state of the driver, with what it has done so far. -/
structure Driver where
  bridge : Bridge
  stopped : Bool
  calls : List Call
  events : List ReadyEvent
  replies : List Reply

namespace Driver

/-- Native calls in the loop. -/
def call (driver : Driver) (call : Call) : Driver :=
  { driver with
    bridge := { driver.bridge with world := driver.bridge.world.after call }
    calls := driver.calls ++ [call] }

/-- A native call on an object that may not be there. -/
def useOn (driver : Driver) (class_ : NativeClass) : Option ℕ → Driver
  | none => driver.call .wild
  | some object => driver.call (.use class_ object)

/-- The calls of `ready_now`. -/
def readyCalls (driver : Driver) (wake : Wake) (slot : Slot) : Driver :=
  let handle := driver.bridge.handles slot
  let object := driver.bridge.sequenceObject slot
  if handle.kind = some .logical then driver.useOn .operation (some handle.pointer)
  else
    let driver := driver.useOn .request object
    if wake.sequence (object.getD 0) = handle.readySequence ∧ handle.kind = some .request then
      driver.useOn .request (some handle.pointer)
    else driver

def readyNow (driver : Driver) (wake : Wake) (slot : Slot) : Bool :=
  let handle := driver.bridge.handles slot
  if handle.kind = some .logical then wake.operationReady handle.pointer
  else if wake.sequence ((driver.bridge.sequenceObject slot).getD 0) ≠ handle.readySequence then
    true
  else decide (handle.kind = some .request) && wake.progressReady handle.pointer

/-- The event of a handle is sent, and the handle is no longer armed. -/
def emit (driver : Driver) (slot : Slot) : Driver :=
  let handle := driver.bridge.handles slot
  { driver with
    events := driver.events ++
      [⟨(handle.kind.map HandleKind.code).getD 0, slot.val + 1, handle.generation⟩]
    bridge := driver.bridge.set slot { handle with watching := false, progressWatching := false } }

/-- The body of the loop of `notify_ready`. -/
def notifySlot (wake : Wake) (driver : Driver) (slot : Slot) : Driver :=
  let handle := driver.bridge.handles slot
  if handle.watching = false ∧ handle.progressWatching = false then driver
  else if handle.progressWatching = true then
    if 0 < handle.closeRetry - wake.now then
      if handle.watching = false then driver
      else
        let ready := driver.readyNow wake slot
        let driver := driver.readyCalls wake slot
        if ready = false then driver else driver.emit slot
    else driver.emit slot
  else
    let ready := driver.readyNow wake slot
    let driver := driver.readyCalls wake slot
    if ready = false then driver else driver.emit slot

def notifyReady (wake : Wake) (driver : Driver) : Driver :=
  (List.finRange slotCount).foldl (notifySlot wake) driver

/-- `postgamma_public_wasm_consume_idle` on a connection. -/
def consumeIdle (driver : Driver) (slot : Slot) : Driver :=
  driver.useOn .connection (some (driver.bridge.handles slot).pointer)

def notifyEvents (wake : Wake) (driver : Driver) : Driver :=
  let driver := (Turn.openConnections driver.bridge).foldl consumeIdle driver
  if driver.bridge.eventNotified = true then driver
  else
    let driver := if driver.bridge.pendingEvent = true then driver else
      match driver.bridge.eventSource with
      | none => driver
      | some slot =>
          let driver := driver.useOn .instance_ (some (driver.bridge.handles slot).pointer)
          { driver with bridge := { driver.bridge with pendingEvent := wake.event } }
    if driver.bridge.pendingEvent = true then
      { driver with
        bridge := { driver.bridge with eventNotified := true }
        events := driver.events ++ [⟨6, 0, 0⟩] }
    else driver

def command (native : Native) (input : Bytes) (driver : Driver) : Driver :=
  let turn := Turn.command native input driver.bridge
  { driver with
    bridge := turn.bridge
    stopped := turn.stop
    calls := driver.calls ++ turn.calls
    replies := driver.replies ++ [turn.reply input] }

/-- An iteration of the loop of `run`, with the command that has been submitted, if any. -/
def iterate (driver : Driver) (iteration : Wake × Option (Native × Bytes)) : Driver :=
  if driver.stopped = true then driver
  else
    let driver := (driver.notifyReady iteration.1).notifyEvents iteration.1
    match iteration.2 with
    | none => driver
    | some (native, input) => driver.command native input

/-- The state of static storage. -/
def start : Driver :=
  { bridge :=
      { handles := fun _ => Handle.zero, psqlOwned := false
        archive :=
          { databasePath := none, ready := false, restoring := false, restoreComplete := false
            levels := [], file := none, remaining := 0, started := false, ended := false }
        pendingEvent := false, eventNotified := false, world := World.empty, issued := [] }
    stopped := false, calls := [], events := [], replies := [] }

/-- The driver behind a number of iterations. -/
def run (iterations : List (Wake × Option (Native × Bytes))) : Driver :=
  iterations.foldl iterate start

end Driver

end Wasm
end Postgamma
