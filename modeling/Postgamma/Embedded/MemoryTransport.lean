import Mathlib
import Postgamma.Library.Ring
import Postgamma.Library.Program

/-!
# The memory transport

The transport of `memory_transport.c` between a frontend and a backend of one process: two bounded
byte queues, an endpoint with a reference count for each side, a wake epoch, an abort flag and one
condition variable.  A call is one critical section of the transport's mutex.  Only a wait leaves
it in between: its thread sleeps on the condition until a broadcast, a spurious wakeup or its
deadline.

The calls return the answer, the state behind them, whether they broadcast, and the notification
callbacks that they invoke.  A world holds every transport that was created with the answers of its
calls in their order.
-/

namespace Postgamma.Embedded.MemoryTransport

/-- The number of values of `size_t`. -/
def sizeValues : ℕ := 2 ^ 64

/-- `SIZE_MAX`. -/
def sizeMaximum : ℕ := sizeValues - 1

/-- `UINT_MAX`. -/
def referencesMaximum : ℕ := 2 ^ 32 - 1

/-- `UINT64_MAX`. -/
def epochMaximum : UInt64 := 18446744073709551615

/-- `POSTGAMMA_MEMORY_NO_DEADLINE`. -/
def noDeadline : ℤ := 2 ^ 63 - 1

/-- Addition in `size_t`. -/
def sizeAdd (left right : ℕ) : ℕ := (left + right) % sizeValues

/-- Subtraction in `size_t`. -/
def sizeSub (left right : ℕ) : ℕ := (left + sizeValues - right) % sizeValues

/-- The sides of a transport. -/
inductive Side where
  | frontend
  | backend
  deriving DecidableEq

/-- `1U - side`. -/
def Side.other : Side → Side
  | .frontend => .backend
  | .backend => .frontend

/-- `PostgammaMemoryStatus`. -/
inductive Status where
  | ok
  | progress
  | retry
  | eof
  | timeout
  | cancelled
  | staleGeneration
  | aborted
  | peerClosed
  | localClosed
  | invalidArgument
  | noMemory
  | overflow
  | contractViolation
  | internalError
  deriving DecidableEq

/-- `PostgammaMemoryAbortReason`. -/
inductive AbortReason where
  | none
  | cancelled
  | peerFailure
  | deadline
  | protocol
  | shutdown
  | internal
  deriving DecidableEq

/-- `PostgammaMemoryQueue`. -/
structure Queue where
  bytes : ℕ → UInt8
  head : ℕ
  length : ℕ
  totalWritten : UInt64
  totalRead : UInt64
  writerClosed : Bool
  readerClosed : Bool

/-- A notification callback with its argument. -/
structure Callback where
  function : ℕ
  argument : ℕ
  deriving DecidableEq

/-- `PostgammaMemoryEndpoint`. -/
structure Endpoint where
  references : ℕ
  notify : Option Callback

/-- `PostgammaMemoryResultPolicy`. -/
structure ResultPolicy where
  requestGeneration : ℕ
  deliveryMode : ℕ
  targetChunkRows : ℕ
  resultBufferLimit : ℕ
  maximumValueSize : ℕ
  deriving DecidableEq

/-- `PostgammaMemoryTransport`; a queue belongs to the side that writes it. -/
structure Transport where
  generation : ℕ
  capacity : ℕ
  allocationSize : ℕ
  queues : Side → Queue
  endpoints : Side → Endpoint
  cancelEpoch : UInt64
  waitCalls : UInt64
  waitWakeups : UInt64
  waitTimeouts : UInt64
  waitCancellations : UInt64
  simultaneousFullObservations : UInt64
  pinReasons : UInt32
  carrierRetained : UInt32
  resultPolicy : ResultPolicy
  aborted : Bool
  abortReason : AbortReason

/-- The counters of the module. -/
structure Globals where
  activeTransports : UInt64
  endpointReferences : UInt64
  allocatedBytes : UInt64

/-- `PostgammaMemoryQueueTelemetry`. -/
structure QueueTelemetry where
  pendingBytes : ℕ
  totalBytesWritten : UInt64
  totalBytesRead : UInt64
  writerClosed : Bool
  readerClosed : Bool

/-- `PostgammaMemoryTelemetry`. -/
structure Telemetry where
  generation : ℕ
  capacity : ℕ
  cancelEpoch : UInt64
  frontendReferences : ℕ
  backendReferences : ℕ
  waitCalls : UInt64
  waitWakeups : UInt64
  waitTimeouts : UInt64
  waitCancellations : UInt64
  simultaneousFullObservations : UInt64
  pinReasons : UInt32
  carrierRetained : UInt32
  aborted : Bool
  abortReason : AbortReason
  frontendToBackend : QueueTelemetry
  backendToFrontend : QueueTelemetry

/-- `PostgammaMemoryIoResult`. -/
structure IoResult where
  status : Status
  bytes : ℕ
  abortReason : AbortReason
  deriving DecidableEq

/-- `PostgammaMemoryWaitResult`. -/
structure WaitResult where
  status : Status
  events : UInt32
  cancelEpoch : UInt64
  abortReason : AbortReason
  deriving DecidableEq

/-- A call on an endpoint. -/
inductive Call where
  | retain
  | setNotify (notify : Option ℕ) (argument : ℕ)
  | release
  | read (length : ℕ)
  | write (source : List UInt8)
  | wait (events : UInt32) (observed : UInt64) (deadline : ℤ)
  | ready
  | halfCloseWrite
  | abort (reason : AbortReason)
  | cancelWaits
  | setSessionStatus (pinReasons carrierRetained : UInt32)
  | setResultPolicy (policy : ResultPolicy)
  | getResultPolicy
  | snapshot

/-- What a call returns; the bytes of a read are those in the caller's buffer. -/
inductive Answer where
  | status (status : Status)
  | read (result : IoResult) (data : List UInt8)
  | written (result : IoResult)
  | waited (result : WaitResult)
  | ready (status : Status) (events : UInt32)
  | epoch (status : Status) (epoch : Option UInt64)
  | policy (status : Status) (policy : Option ResultPolicy)
  | snapshot (status : Status) (telemetry : Option Telemetry)

def Answer.code : Answer → Status
  | .status code => code
  | .read result _ => result.status
  | .written result => result.status
  | .waited result => result.status
  | .ready code _ => code
  | .epoch code _ => code
  | .policy code _ => code
  | .snapshot code _ => code

/-- The answer of a call that returns before it does anything. -/
def Call.refusal (status : Status) : Call → Answer
  | .read _ => .read ⟨status, 0, .none⟩ []
  | .write _ => .written ⟨status, 0, .none⟩
  | .wait _ observed _ => .waited ⟨status, 0, observed, .none⟩
  | .ready => .ready status 0
  | .cancelWaits => .epoch status none
  | .getResultPolicy => .policy status none
  | .snapshot => .snapshot status none
  | _ => .status status

/-- An invocation of a notification callback. -/
structure Notification where
  side : Side
  callback : Callback
  events : UInt32

/-- A call behind its critical section; without an answer its thread sleeps. -/
structure Effect where
  answer : Option Answer
  globals : Globals
  transport : Transport
  broadcast : Bool
  notified : List Notification
  destroyed : Bool

/-- Nobody is woken. -/
def Effect.quiet (globals : Globals) (transport : Transport) (answer : Answer) : Effect :=
  { answer := some answer, globals, transport, broadcast := false, notified := [],
    destroyed := false }

namespace Queue

/-- The bytes in the queue. -/
def content (queue : Queue) (capacity : ℕ) : List UInt8 :=
  window queue.bytes capacity queue.head queue.length

/-- `postgamma_memory_queue_write`. -/
def write (queue : Queue) (capacity : ℕ) (source : List UInt8) : ℕ × Queue :=
  let available := sizeSub capacity queue.length
  let amount := if source.length < available then source.length else available
  let tail := sizeAdd queue.head queue.length % capacity
  let first := if amount < sizeSub capacity tail then amount else sizeSub capacity tail
  let bytes := copyInto queue.bytes tail (source.take first)
  let bytes := copyInto bytes 0 ((source.drop first).take (sizeSub amount first))
  (amount,
    { queue with
      bytes := bytes
      length := sizeAdd queue.length amount
      totalWritten := queue.totalWritten + UInt64.ofNat amount })

/-- `postgamma_memory_queue_read`, with what it puts into the destination. -/
def read (queue : Queue) (capacity length : ℕ) : ℕ × List UInt8 × Queue :=
  let amount := if length < queue.length then length else queue.length
  let first := if amount < sizeSub capacity queue.head then amount
    else sizeSub capacity queue.head
  (amount,
    segment queue.bytes queue.head first ++ segment queue.bytes 0 (sizeSub amount first),
    { queue with
      head := sizeAdd queue.head amount % capacity
      length := sizeSub queue.length amount
      totalRead := queue.totalRead + UInt64.ofNat amount })

/-- `postgamma_memory_queue_telemetry`. -/
def telemetry (queue : Queue) : QueueTelemetry :=
  { pendingBytes := queue.length
    totalBytesWritten := queue.totalWritten
    totalBytesRead := queue.totalRead
    writerClosed := queue.writerClosed
    readerClosed := queue.readerClosed }

end Queue

/-- The readiness events. -/
inductive Readiness where
  | readable
  | writable
  | peerClosed
  deriving DecidableEq

/-- `POSTGAMMA_MEMORY_WAIT_READABLE` and so on. -/
def Readiness.mask : Readiness → UInt32
  | .readable => 1
  | .writable => 2
  | .peerClosed => 4

/-- `POSTGAMMA_MEMORY_WAIT_ALL`. -/
def waitAll : UInt32 := 7

/-- The event is one of the requested ones. -/
def Readiness.requested (readiness : Readiness) (events : UInt32) : Bool :=
  events &&& readiness.mask ≠ 0

namespace Transport

/-- `postgamma_memory_outbound`. -/
def outbound (transport : Transport) (side : Side) : Queue := transport.queues side

/-- `postgamma_memory_inbound`. -/
def inbound (transport : Transport) (side : Side) : Queue := transport.queues side.other

/-- The queue that a side writes is replaced. -/
def putQueue (transport : Transport) (writer : Side) (queue : Queue) : Transport :=
  { transport with queues := Function.update transport.queues writer queue }

def putEndpoint (transport : Transport) (side : Side) (endpoint : Endpoint) : Transport :=
  { transport with endpoints := Function.update transport.endpoints side endpoint }

/-- The condition of one readiness event. -/
def holds (transport : Transport) (side : Side) : Readiness → Bool
  | .readable => (transport.inbound side).length ≠ 0
  | .writable =>
      (transport.outbound side).length < transport.capacity &&
        !(transport.outbound side).writerClosed && !(transport.outbound side).readerClosed
  | .peerClosed => (transport.inbound side).writerClosed || (transport.outbound side).readerClosed

def readyBit (transport : Transport) (side : Side) (requested : UInt32) (readiness : Readiness) :
    UInt32 :=
  if readiness.requested requested && transport.holds side readiness then readiness.mask else 0

/-- `postgamma_memory_ready_events`. -/
def readyEvents (transport : Transport) (side : Side) (requested : UInt32) : UInt32 :=
  transport.readyBit side requested .readable ||| transport.readyBit side requested .writable |||
    transport.readyBit side requested .peerClosed

/-- `postgamma_memory_notify_endpoint`. -/
def notifyEndpoint (transport : Transport) (side : Side) : List Notification :=
  match (transport.endpoints side).notify with
  | none => []
  | some callback => [⟨side, callback, transport.readyEvents side waitAll⟩]

/-- `postgamma_memory_notify_both`. -/
def notifyBoth (transport : Transport) : List Notification :=
  transport.notifyEndpoint .frontend ++ transport.notifyEndpoint .backend

/-- `postgamma_memory_lock_endpoint`, with the status of a refused call. -/
def lockEndpoint (transport : Transport) (side : Side) (generation : ℕ) : Option Status :=
  if (transport.endpoints side).references = 0 then some .contractViolation
  else if transport.generation ≠ generation then some .staleGeneration
  else none

/-- A change that broadcasts and notifies both endpoints. -/
def announce (globals : Globals) (transport : Transport) (answer : Answer) : Effect :=
  { answer := some answer, globals, transport, broadcast := true
    notified := transport.notifyBoth, destroyed := false }

/-- A change that broadcasts and notifies one endpoint. -/
def announceTo (globals : Globals) (transport : Transport) (side : Side) (answer : Answer) :
    Effect :=
  { answer := some answer, globals, transport, broadcast := true
    notified := transport.notifyEndpoint side, destroyed := false }

/-- `postgamma_memory_endpoint_retain`. -/
def retain (globals : Globals) (transport : Transport) (side : Side) : Effect :=
  let endpoint := transport.endpoints side
  if endpoint.references = referencesMaximum then .quiet globals transport (.status .overflow)
  else
    .quiet { globals with endpointReferences := globals.endpointReferences + 1 }
      (transport.putEndpoint side { endpoint with references := endpoint.references + 1 })
      (.status .ok)

/-- `postgamma_memory_endpoint_set_notify`. -/
def setNotify (globals : Globals) (transport : Transport) (side : Side) (notify : Option ℕ)
    (argument : ℕ) : Effect :=
  let callback := notify.map fun function => ⟨function, argument⟩
  let transport := transport.putEndpoint side
    { transport.endpoints side with notify := callback }
  { Effect.quiet globals transport (.status .ok) with notified := transport.notifyEndpoint side }

/-- The last reference of an endpoint is gone. -/
def closeEndpoint (transport : Transport) (side : Side) : Transport :=
  let transport := transport.putQueue side { transport.outbound side with writerClosed := true }
  let transport := transport.putQueue side.other
    { transport.inbound side with readerClosed := true }
  transport.putEndpoint side { transport.endpoints side with notify := none }

/-- `destroy` of `postgamma_memory_endpoint_release`. -/
def unreferenced (transport : Transport) : Bool :=
  (transport.endpoints .frontend).references = 0 && (transport.endpoints .backend).references = 0

/-- `postgamma_memory_endpoint_release`; the transport that it destroys keeps its last values. -/
def release (globals : Globals) (transport : Transport) (side : Side) : Effect :=
  let endpoint := transport.endpoints side
  let globals := { globals with endpointReferences := globals.endpointReferences - 1 }
  let transport := transport.putEndpoint side
    { endpoint with references := endpoint.references - 1 }
  let effect :=
    if (transport.endpoints side).references = 0 then
      announceTo globals (transport.closeEndpoint side) side.other (.status .ok)
    else .quiet globals transport (.status .ok)
  if effect.transport.unreferenced = true then
    { effect with
      globals :=
        { effect.globals with
          activeTransports := globals.activeTransports - 1
          allocatedBytes := globals.allocatedBytes - UInt64.ofNat transport.allocationSize }
      destroyed := true }
  else effect

/-- `postgamma_memory_endpoint_read`. -/
def read (globals : Globals) (transport : Transport) (side : Side) (length : ℕ) : Effect :=
  let queue := transport.inbound side
  if transport.aborted = true then
    .quiet globals transport (.read ⟨.aborted, 0, transport.abortReason⟩ [])
  else if queue.length = 0 then
    .quiet globals transport
      (.read ⟨if queue.writerClosed = true then .eof else .retry, 0, .none⟩ [])
  else
    let (amount, data, queue) := queue.read transport.capacity length
    announceTo globals (transport.putQueue side.other queue) side.other
      (.read ⟨.progress, amount, .none⟩ data)

def bothFull (transport : Transport) : Bool :=
  (transport.queues .frontend).length = transport.capacity &&
    (transport.queues .backend).length = transport.capacity

/-- The observation of a write that finds both queues full. -/
def observeFull (transport : Transport) : Transport :=
  if transport.bothFull = true ∧ transport.simultaneousFullObservations ≠ epochMaximum then
    { transport with
      simultaneousFullObservations := transport.simultaneousFullObservations + 1 }
  else transport

/-- `postgamma_memory_endpoint_write`. -/
def write (globals : Globals) (transport : Transport) (side : Side) (source : List UInt8) :
    Effect :=
  let queue := transport.outbound side
  if transport.aborted = true then
    .quiet globals transport (.written ⟨.aborted, 0, transport.abortReason⟩)
  else if queue.writerClosed = true then
    .quiet globals transport (.written ⟨.localClosed, 0, .none⟩)
  else if queue.readerClosed = true then
    .quiet globals transport (.written ⟨.peerClosed, 0, .none⟩)
  else if queue.length = transport.capacity then
    .quiet globals transport (.written ⟨.retry, 0, .none⟩)
  else
    let (amount, queue) := queue.write transport.capacity source
    announceTo globals (transport.putQueue side queue).observeFull side.other
      (.written ⟨.progress, amount, .none⟩)

/-- The tests in the loop of `postgamma_memory_endpoint_wait`, with the events of a success. -/
def waitTest (transport : Transport) (side : Side) (events : UInt32) (observed : UInt64) :
    Option (Status × UInt32) :=
  if transport.aborted = true then some (.aborted, 0)
  else if transport.cancelEpoch ≠ observed then some (.cancelled, 0)
  else if transport.readyEvents side events ≠ 0 then
    some (.ok, transport.readyEvents side events)
  else if Readiness.readable.requested events ∧ (transport.inbound side).length = 0 ∧
      (transport.inbound side).writerClosed = true then some (.eof, 0)
  else if Readiness.writable.requested events ∧ (transport.outbound side).readerClosed = true then
    some (.peerClosed, 0)
  else if Readiness.writable.requested events ∧ (transport.outbound side).writerClosed = true then
    some (.localClosed, 0)
  else none

def endWait (globals : Globals) (transport : Transport) (status : Status) (events : UInt32) :
    Effect :=
  let reason := if transport.aborted = true then transport.abortReason else .none
  .quiet globals transport (.waited ⟨status, events, transport.cancelEpoch, reason⟩)

def waitRound (globals : Globals) (transport : Transport) (side : Side) (events : UInt32)
    (observed : UInt64) : Effect :=
  match transport.waitTest side events observed with
  | none =>
      { answer := none, globals, transport, broadcast := false, notified := []
        destroyed := false }
  | some (status, ready) =>
      let transport := if status = .cancelled then
        { transport with waitCancellations := transport.waitCancellations + 1 } else transport
      endWait globals transport status ready

/-- `postgamma_memory_endpoint_wait` up to its first sleep. -/
def wait (globals : Globals) (transport : Transport) (side : Side) (events : UInt32)
    (observed : UInt64) : Effect :=
  waitRound globals { transport with waitCalls := transport.waitCalls + 1 } side events observed

/-- `postgamma_memory_endpoint_ready`. -/
def ready (globals : Globals) (transport : Transport) (side : Side) : Effect :=
  if transport.aborted = true then .quiet globals transport (.ready .aborted 0)
  else .quiet globals transport (.ready .ok (transport.readyEvents side waitAll))

/-- `postgamma_memory_endpoint_half_close_write`. -/
def halfCloseWrite (globals : Globals) (transport : Transport) (side : Side) : Effect :=
  let queue := transport.outbound side
  if transport.aborted = true then .quiet globals transport (.status .aborted)
  else if queue.writerClosed = true then .quiet globals transport (.status .localClosed)
  else announce globals (transport.putQueue side { queue with writerClosed := true }) (.status .ok)

/-- `postgamma_memory_endpoint_abort`. -/
def abort (globals : Globals) (transport : Transport) (reason : AbortReason) : Effect :=
  if transport.aborted = true then .quiet globals transport (.status .aborted)
  else announce globals { transport with aborted := true, abortReason := reason } (.status .ok)

/-- `postgamma_memory_endpoint_cancel_waits`. -/
def cancelWaits (globals : Globals) (transport : Transport) : Effect :=
  if transport.cancelEpoch = epochMaximum then .quiet globals transport (.epoch .overflow none)
  else
    announce globals { transport with cancelEpoch := transport.cancelEpoch + 1 }
      (.epoch .ok (some (transport.cancelEpoch + 1)))

/-- `postgamma_memory_endpoint_set_session_status`. -/
def setSessionStatus (globals : Globals) (transport : Transport) (side : Side)
    (pinReasons carrierRetained : UInt32) : Effect :=
  if side ≠ .backend then .quiet globals transport (.status .contractViolation)
  else
    .quiet globals { transport with pinReasons := pinReasons, carrierRetained := carrierRetained }
      (.status .ok)

/-- `postgamma_memory_endpoint_set_result_policy`. -/
def setResultPolicy (globals : Globals) (transport : Transport) (side : Side)
    (policy : ResultPolicy) : Effect :=
  if side ≠ .frontend then .quiet globals transport (.status .contractViolation)
  else announce globals { transport with resultPolicy := policy } (.status .ok)

/-- `postgamma_memory_endpoint_snapshot`. -/
def telemetry (transport : Transport) : Telemetry :=
  { generation := transport.generation
    capacity := transport.capacity
    cancelEpoch := transport.cancelEpoch
    frontendReferences := (transport.endpoints .frontend).references
    backendReferences := (transport.endpoints .backend).references
    waitCalls := transport.waitCalls
    waitWakeups := transport.waitWakeups
    waitTimeouts := transport.waitTimeouts
    waitCancellations := transport.waitCancellations
    simultaneousFullObservations := transport.simultaneousFullObservations
    pinReasons := transport.pinReasons
    carrierRetained := transport.carrierRetained
    aborted := transport.aborted
    abortReason := transport.abortReason
    frontendToBackend := (transport.queues .frontend).telemetry
    backendToFrontend := (transport.queues .backend).telemetry }

end Transport

/-- `clear_policy`. -/
def ResultPolicy.clears (policy : ResultPolicy) : Bool :=
  policy.requestGeneration = 0 && policy.deliveryMode = 0 && policy.targetChunkRows = 0 &&
    policy.resultBufferLimit = 0 && policy.maximumValueSize = 0

/-- The test of a result policy; the delivery modes are materialized, 0, and chunked, 1. -/
def ResultPolicy.valid (policy : ResultPolicy) : Bool :=
  policy.clears ||
    !(policy.requestGeneration = 0 || policy.resultBufferLimit = 0 ||
      policy.maximumValueSize = 0 || policy.resultBufferLimit < policy.maximumValueSize ||
      (policy.deliveryMode ≠ 0 && policy.deliveryMode ≠ 1) ||
      (policy.deliveryMode = 0 && policy.targetChunkRows ≠ 0) ||
      (policy.deliveryMode = 1 && policy.targetChunkRows = 0))

/-- The tests of the arguments that come before the lock. -/
def Call.valid : Call → Bool
  | .setNotify notify argument => notify.isSome || argument = 0
  | .read length => length ≠ 0
  | .write source => source ≠ []
  | .wait events _ deadline => events ≠ 0 && events &&& ~~~waitAll = 0 && 0 ≤ deadline
  | .abort reason => reason ≠ .none
  | .setSessionStatus pinReasons carrierRetained =>
      pinReasons &&& ~~~31 = 0 && carrierRetained ≤ 1
  | .setResultPolicy policy => policy.valid
  | _ => true

namespace Transport

/-- A call inside of its critical section. -/
def perform (globals : Globals) (transport : Transport) (side : Side) : Call → Effect
  | .retain => transport.retain globals side
  | .setNotify notify argument => transport.setNotify globals side notify argument
  | .release => transport.release globals side
  | .read length => transport.read globals side length
  | .write source => transport.write globals side source
  | .wait events observed _ => transport.wait globals side events observed
  | .ready => transport.ready globals side
  | .halfCloseWrite => transport.halfCloseWrite globals side
  | .abort reason => transport.abort globals reason
  | .cancelWaits => transport.cancelWaits globals
  | .setSessionStatus pinReasons carrierRetained =>
      transport.setSessionStatus globals side pinReasons carrierRetained
  | .setResultPolicy policy => transport.setResultPolicy globals side policy
  | .getResultPolicy => .quiet globals transport (.policy .ok (some transport.resultPolicy))
  | .snapshot => .quiet globals transport (.snapshot .ok (some transport.telemetry))

/-- A call: its arguments are tested, the endpoint is locked, and its work is done. -/
def call (globals : Globals) (transport : Transport) (side : Side) (generation : ℕ) (call : Call) :
    Effect :=
  if call.valid = false then .quiet globals transport (call.refusal .invalidArgument)
  else
    match transport.lockEndpoint side generation with
    | some status => .quiet globals transport (call.refusal status)
    | none => transport.perform globals side call

end Transport

/-! ## Worlds -/

/-- A thread that sleeps in a wait. -/
structure Waiter where
  side : Side
  events : UInt32
  observed : UInt64
  deadline : ℤ
  signalled : Bool

/-- The wait that a sleeping thread is in. -/
def Waiter.call (waiter : Waiter) : Call :=
  .wait waiter.events waiter.observed waiter.deadline

/-- What the condition variable returns to a sleeping thread. -/
inductive Wakeup where
  /-- A signal, or a spurious wakeup. -/
  | woken
  | timedOut
  | failed
  deriving DecidableEq

/-- The rest of a wait behind a sleep. -/
def Waiter.resume (waiter : Waiter) (globals : Globals) (transport : Transport) :
    Wakeup → Effect
  | .woken =>
      Transport.waitRound globals { transport with waitWakeups := transport.waitWakeups + 1 }
        waiter.side waiter.events waiter.observed
  | .timedOut =>
      Transport.endWait globals { transport with waitTimeouts := transport.waitTimeouts + 1 }
        .timeout 0
  | .failed => Transport.endWait globals transport .internalError 0

/-- A call that returned. -/
structure Record where
  side : Side
  call : Call
  answer : Answer

/-- A transport with its sleeping threads and the calls that returned. -/
structure Slot where
  transport : Transport
  waiters : ℕ → Option Waiter
  /-- How often the transport was destroyed. -/
  destructions : ℕ
  history : List Record
  notified : List Notification

/-- The process: every transport in the order of creation. -/
structure World where
  globals : Globals
  slots : List Slot

/-- What the system answers to a creation. -/
inductive Provision where
  | granted
  | noMemory
  | failed
  deriving DecidableEq

/-- Steps of a process. -/
inductive Action where
  | create (generation capacity : ℕ) (provision : Provision)
  | call (slot thread : ℕ) (side : Side) (generation : ℕ) (call : Call)
  | resume (slot thread : ℕ) (wakeup : Wakeup)

def Queue.empty : Queue :=
  { bytes := fun _ => 0, head := 0, length := 0, totalWritten := 0, totalRead := 0
    writerClosed := false, readerClosed := false }

/-- The transport of a successful creation. -/
def Transport.fresh (generation capacity allocationSize : ℕ) : Transport :=
  { generation := generation
    capacity := capacity
    allocationSize := allocationSize
    queues := fun _ => Queue.empty
    endpoints := fun _ => { references := 1, notify := none }
    cancelEpoch := 0
    waitCalls := 0
    waitWakeups := 0
    waitTimeouts := 0
    waitCancellations := 0
    simultaneousFullObservations := 0
    pinReasons := 0
    carrierRetained := 0
    resultPolicy := ⟨0, 0, 0, 0, 0⟩
    aborted := false
    abortReason := .none }

/-- `postgamma_memory_transport_create`; `structSize` is the size of a transport without its
queues. -/
def create (structSize : ℕ) (globals : Globals) (generation capacity : ℕ) (provision : Provision) :
    Except Status (Globals × Transport) :=
  if generation = 0 ∨ capacity = 0 then .error .invalidArgument
  else if (sizeMaximum - structSize) / 2 < capacity then .error .overflow
  else
    match provision with
    | .noMemory => .error .noMemory
    | .failed => .error .internalError
    | .granted =>
        let allocationSize := structSize + 2 * capacity
        .ok ({ activeTransports := globals.activeTransports + 1
               endpointReferences := globals.endpointReferences + 2
               allocatedBytes := globals.allocatedBytes + UInt64.ofNat allocationSize },
          .fresh generation capacity allocationSize)

namespace Slot

/-- A broadcast signals every sleeping thread. -/
def signal (broadcast : Bool) (waiters : ℕ → Option Waiter) : ℕ → Option Waiter := fun thread =>
  (waiters thread).map fun waiter =>
    { waiter with signalled := waiter.signalled || broadcast }

/-- The thread of an effect sleeps if it has no answer. -/
def sleeper (side : Side) : Call → Option Answer → Option Waiter
  | .wait events observed deadline, none => some ⟨side, events, observed, deadline, false⟩
  | _, _ => none

def recorded (side : Side) (call : Call) : Option Answer → List Record
  | none => []
  | some answer => [⟨side, call, answer⟩]

/-- A slot behind a call of a thread. -/
def after (slot : Slot) (thread : ℕ) (side : Side) (call : Call) (effect : Effect) : Slot :=
  { transport := effect.transport
    waiters := Function.update (signal effect.broadcast slot.waiters) thread
      (sleeper side call effect.answer)
    destructions := slot.destructions + effect.destroyed.toNat
    history := slot.history ++ recorded side call effect.answer
    notified := slot.notified ++ effect.notified }

end Slot

namespace World

/-- A slot of the world takes an effect. -/
def take (world : World) (index : ℕ) (slot : Slot) (thread : ℕ) (side : Side) (call : Call)
    (effect : Effect) : World :=
  { globals := effect.globals
    slots := world.slots.set index (slot.after thread side call effect) }

/-- One step.  A thread that sleeps makes no calls, and nothing can be called on the memory of a
transport that is destroyed. -/
def step (structSize : ℕ) (world : World) : Action → Except Empty (Option World)
  | .create generation capacity provision =>
      match MemoryTransport.create structSize world.globals generation capacity provision with
      | .error _ => .ok (some world)
      | .ok (globals, transport) =>
          .ok (some
            { globals
              slots := world.slots ++
                [{ transport, waiters := fun _ => none, destructions := 0, history := []
                   notified := [] }] })
  | .call index thread side generation call =>
      match world.slots[index]? with
      | none => .ok none
      | some slot =>
          if slot.destructions ≠ 0 ∨ (slot.waiters thread).isSome = true then .ok none
          else
            .ok (some (world.take index slot thread side call
              (slot.transport.call world.globals side generation call)))
  | .resume index thread wakeup =>
      match world.slots[index]? with
      | none => .ok none
      | some slot =>
          match slot.waiters thread with
          | none => .ok none
          | some waiter =>
              if slot.destructions ≠ 0 ∨ wakeup = .timedOut ∧ waiter.deadline = noDeadline then
                .ok none
              else
                .ok (some (world.take index slot thread waiter.side waiter.call
                  (waiter.resume world.globals slot.transport wakeup)))

/-- No transport was created. -/
def initial : World :=
  { globals := { activeTransports := 0, endpointReferences := 0, allocatedBytes := 0 }
    slots := [] }

/-- The world behind some steps. -/
def Reached (structSize : ℕ) (world : World) : Prop :=
  ∃ actions, runs (step structSize) initial actions = some world

end World

end Postgamma.Embedded.MemoryTransport
