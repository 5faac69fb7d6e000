import Mathlib
import Postgamma.Library.Census
import Postgamma.Library.IntrusiveList

/-!
# The backend execution registry

Slots, the runnable list, the completion list and the counters of the registry, with every function
that runs while the registry mutex is held.  `capacity` is the number of slots and `pool` the number
of pooled workers.  The next fields of the two intrusive lists are kept beside the slots, and a
broadcast of the registry condition is recorded in a field that the end of the critical section
reads.  `abort()` is an error of its own.
-/

namespace Postgamma.Runtime

/-- `PostgammaBackendSlotState`. -/
inductive SlotState where
  | free
  | starting
  | running
  | completed
  | dequeued
  | joining
  deriving DecidableEq

/-- `PostgammaBackendClass`. -/
inductive BackendClass where
  | dedicated
  | client
  | parallel
  deriving DecidableEq

/-- `PostgammaBackendProviderKind`. -/
inductive ProviderKind where
  | dedicated
  | pooled
  deriving DecidableEq

/-- `PostgammaBackendExitKind`. -/
inductive ExitKind where
  | normal
  | yield
  | fatal
  | startupTarget
  | quickdie
  | panic
  | unexpectedReturn
  deriving DecidableEq

/-- The error codes of the registry's functions. -/
inductive Errno where
  | EINVAL
  | EAGAIN
  | ESTALE
  | ESRCH
  | EOVERFLOW
  | EPROTO
  deriving DecidableEq

/-- The functions whose `abort()` calls are modelled. -/
inductive Abort where
  | removeRunnableSlot
  | scheduleDueSlots
  | pooledWorkerMain
  | completeBackendExecution
  | releaseExecutionToken
  | beginBackendThread
  deriving DecidableEq

/-- `PostgammaBackendHandle`. -/
structure BackendHandle where
  id : ℕ
  compatPid : ℕ
  backendType : ℕ
  executionClass : BackendClass
  deriving DecidableEq

/-- A handle after `memset`. -/
def BackendHandle.zero : BackendHandle :=
  { id := 0, compatPid := 0, backendType := 0, executionClass := .dedicated }

/-- `PostgammaBackendExitStatus`. -/
structure ExitStatus where
  kind : ExitKind
  code : ℤ
  deriving DecidableEq

/-- `PostgammaBackendCompletion`. -/
structure BackendCompletion where
  handle : BackendHandle
  exitStatus : ExitStatus
  deriving DecidableEq

/-- A completion after `memset`. -/
def BackendCompletion.zero : BackendCompletion :=
  { handle := .zero, exitStatus := { kind := .normal, code := 0 } }

/-- `PostgammaBackendSlot` without its links, telemetry and interrupt state. -/
structure BackendSlot (pool : ℕ) where
  generation : ℕ
  state : SlotState
  handle : BackendHandle
  /-- The carrier thread has been published in the slot. -/
  thread : Bool
  /-- Identity of the start record. -/
  start : Option ℕ
  completion : BackendCompletion
  assignedWorker : Option (Fin pool)
  deadlineNs : ℕ
  scheduleEpoch : ℕ
  pooled : Bool
  queued : Bool
  quantumRunning : Bool
  completionDeliveryComplete : Bool
  rescheduleRequested : Bool
  pinned : Bool
  blocked : Bool
  executionTokenHeld : Bool
  deriving DecidableEq

/-- `PostgammaBackendRegistry`. -/
structure Registry (capacity pool : ℕ) where
  provider : ProviderKind
  queueCapacity : ℕ
  executionTokenCount : ℕ
  slots : Fin capacity → BackendSlot pool
  runnable : Links (Fin capacity)
  runnableDepth : ℕ
  completions : Links (Fin capacity)
  activeCount : ℕ
  nextCompatPid : ℕ
  nextWorker : ℕ
  /-- `workers[index].running`. -/
  workerRunning : Fin pool → Bool
  executionTokensActive : ℕ
  runningQuantums : ℕ
  backendThreadsActive : ℕ
  clientThreadsActive : ℕ
  pinnedSessions : ℕ
  blockedSessions : ℕ
  /-- The registry's wake target has a wake that nobody has drained. -/
  wakeSignalled : Bool
  /-- The condition was broadcast in the present critical section. -/
  broadcast : Bool

/-- `PostgammaBackendProviderConfig`; the worker count is the parameter `pool`. -/
structure ProviderConfig where
  kind : ProviderKind
  queueCapacity : ℕ
  executionTokenCount : ℕ
  deriving DecidableEq

/-- The configurations that `postgamma_backend_registry_create_with_provider` accepts; the capacity
is a `uint32_t`. -/
def ProviderConfig.Accepted (config : ProviderConfig) (capacity pool : ℕ) : Prop :=
  capacity ≠ 0 ∧ capacity < 2 ^ 32 ∧
    (config.kind = .dedicated → pool = 0 ∧ config.queueCapacity = 0 ∧
      config.executionTokenCount = 0) ∧
    (config.kind = .pooled → 2 ≤ pool ∧ pool ≤ capacity ∧ capacity ≤ config.queueCapacity ∧
      2 ≤ config.executionTokenCount)

namespace Registry

variable {capacity pool : ℕ}

/-- A slot after `calloc`. -/
def freeSlot : BackendSlot pool :=
  { generation := 0, state := .free, handle := .zero, thread := false, start := none
    completion := .zero, assignedWorker := none, deadlineNs := 0, scheduleEpoch := 0
    pooled := false, queued := false, quantumRunning := false
    completionDeliveryComplete := false, rescheduleRequested := false, pinned := false
    blocked := false, executionTokenHeld := false }

/-- `POSTGAMMA_COMPAT_PID_FIRST`. -/
def compatPidFirst : ℕ := 1000000000

/-- The registry that `postgamma_backend_registry_create_with_provider` publishes. -/
def create (config : ProviderConfig) : Registry capacity pool :=
  { provider := config.kind
    queueCapacity := config.queueCapacity
    executionTokenCount := config.executionTokenCount
    slots := fun _ => freeSlot
    runnable := .empty
    runnableDepth := 0
    completions := .empty
    activeCount := 0
    nextCompatPid := compatPidFirst
    nextWorker := 0
    workerRunning := fun _ => false
    executionTokensActive := 0
    runningQuantums := 0
    backendThreadsActive := 0
    clientThreadsActive := 0
    pinnedSessions := 0
    blockedSessions := 0
    wakeSignalled := false
    broadcast := false }

def setSlot (registry : Registry capacity pool) (index : Fin capacity)
    (slot : BackendSlot pool) : Registry capacity pool :=
  { registry with slots := Function.update registry.slots index slot }

def makeBackendId (index generation : ℕ) : ℕ := generation * 2 ^ 32 + (index + 1)

def decodeBackendId (id : ℕ) : Option (ℕ × ℕ) :=
  let encodedSlot := id % 2 ^ 32
  let encodedGeneration := id / 2 ^ 32 % 2 ^ 32
  if id = 0 ∨ encodedSlot = 0 ∨ encodedGeneration = 0 then none
  else some (encodedSlot - 1, encodedGeneration)

/-- The counter behind a process id: the last value starts again at the first. -/
def followingPid (pid : ℕ) : ℕ := if pid + 1 = 2 ^ 31 - 1 then compatPidFirst else pid + 1

/-- A slot in use has the process id. -/
def pidTaken (registry : Registry capacity pool) (pid : ℕ) : Bool :=
  (List.finRange capacity).any fun index =>
    (registry.slots index).state ≠ .free && (registry.slots index).handle.compatPid = pid

/-- The loop of `allocate_compat_pid`: the first free process id and the counter behind it. -/
def compatPidLoop (registry : Registry capacity pool) : ℕ → ℕ → Option (ℕ × ℕ)
  | 0, _ => none
  | fuel + 1, candidate =>
      if registry.pidTaken candidate then compatPidLoop registry fuel (followingPid candidate)
      else some (candidate, followingPid candidate)

/-- `allocate_compat_pid`.  One candidate more than there are slots decides the loop; it only fails
to end when every process id is in use. -/
def allocateCompatPid (registry : Registry capacity pool) : Option (ℕ × ℕ) :=
  registry.compatPidLoop (capacity + 1) registry.nextCompatPid

def tokenTaken (registry : Registry capacity pool) (index : Fin capacity) :
    Registry capacity pool :=
  { registry.setSlot index { registry.slots index with executionTokenHeld := true } with
    executionTokensActive := registry.executionTokensActive + 1 }

def acquireExecutionToken (registry : Registry capacity pool) (index : Fin capacity) :
    Option (Registry capacity pool) :=
  if (registry.slots index).executionTokenHeld = true ∨
      registry.executionTokenCount ≤ registry.executionTokensActive then none
  else some (registry.tokenTaken index)

def releaseExecutionToken (registry : Registry capacity pool) (index : Fin capacity) :
    Except Abort (Registry capacity pool) :=
  if (registry.slots index).executionTokenHeld = false ∨ registry.executionTokensActive = 0 then
    .error .releaseExecutionToken
  else
    .ok
      { registry.setSlot index { registry.slots index with executionTokenHeld := false } with
        executionTokensActive := registry.executionTokensActive - 1
        broadcast := true }

/-- The slot is linked behind the runnable tail. -/
def enqueued (registry : Registry capacity pool) (index : Fin capacity) :
    Registry capacity pool :=
  { registry.setSlot index { registry.slots index with queued := true } with
    runnable := registry.runnable.append index
    runnableDepth := registry.runnableDepth + 1
    broadcast := true }

def enqueueSlot (registry : Registry capacity pool) (index : Fin capacity) :
    Except Errno (Registry capacity pool) :=
  let slot := registry.slots index
  if slot.queued = true ∨ slot.quantumRunning = true ∨ slot.pooled = false ∨
      slot.state ≠ .running then .error .EINVAL
  else if registry.queueCapacity ≤ registry.runnableDepth then .error .EAGAIN
  else .ok (registry.enqueued index)

/-- The slot is unlinked from the runnable list. -/
def unqueued (registry : Registry capacity pool) (previous : Option (Fin capacity))
    (index : Fin capacity) : Registry capacity pool :=
  { registry.setSlot index { registry.slots index with queued := false } with
    runnable := registry.runnable.remove previous index
    runnableDepth := registry.runnableDepth - 1 }

def removeRunnableSlot (registry : Registry capacity pool) (previous : Option (Fin capacity))
    (index : Fin capacity) : Except Abort (Registry capacity pool) :=
  match (registry.unqueued previous index).acquireExecutionToken index with
  | none => .error .removeRunnableSlot
  | some registry => .ok registry

/-- A queued slot whose worker is busy, so that another worker may take it. -/
def stealable (registry : Registry capacity pool) (index : Fin capacity) : Bool :=
  match (registry.slots index).assignedWorker with
  | none => true
  | some worker => registry.workerRunning worker

/-- The loop of `dequeue_slot_for_worker_locked`: the slot to take with its predecessor. -/
def dequeueLoop (registry : Registry capacity pool) (worker : Fin pool) :
    ℕ → Option (Fin capacity) → Option (Fin capacity) →
      Option (Option (Fin capacity) × Fin capacity) →
        Option (Option (Fin capacity) × Fin capacity)
  | 0, _, _, steal => steal
  | _ + 1, _, none, steal => steal
  | fuel + 1, previous, some current, steal =>
      if (registry.slots current).assignedWorker = some worker then some (previous, current)
      else
        let steal :=
          if steal = none ∧ registry.stealable current = true then some (previous, current)
          else steal
        dequeueLoop registry worker fuel (some current) (registry.runnable.next current) steal

def dequeueSlotForWorker (registry : Registry capacity pool) (worker : Fin pool) :
    Except Abort (Registry capacity pool × Option (Fin capacity)) :=
  if registry.executionTokenCount ≤ registry.executionTokensActive then .ok (registry, none)
  else
    match registry.dequeueLoop worker capacity none registry.runnable.head none with
    | none => .ok (registry, none)
    | some (previous, current) => do
        let registry ← registry.removeRunnableSlot previous current
        .ok (registry, some current)

/-- A pooled slot that waits for its deadline. -/
def sleeping (slot : BackendSlot pool) : Bool :=
  slot.pooled && slot.state = .running && !slot.queued && !slot.quantumRunning &&
    slot.deadlineNs ≠ 0

/-- One turn of the loop of `schedule_due_slots_locked`. -/
def scheduleDueStep (nowNs : ℕ) (registry : Registry capacity pool) (nextDeadline : ℕ)
    (index : Fin capacity) : Except Abort (Registry capacity pool × ℕ) :=
  let slot := registry.slots index
  if sleeping slot = false then .ok (registry, nextDeadline)
  else if slot.deadlineNs ≤ nowNs then
    match (registry.setSlot index { slot with deadlineNs := 0 }).enqueueSlot index with
    | .error _ => .error .scheduleDueSlots
    | .ok registry => .ok (registry, nextDeadline)
  else if nextDeadline = 0 ∨ slot.deadlineNs < nextDeadline then .ok (registry, slot.deadlineNs)
  else .ok (registry, nextDeadline)

/-- The loop of `schedule_due_slots_locked` over some slots. -/
def scheduleDueLoop (nowNs : ℕ) : List (Fin capacity) → Registry capacity pool → ℕ →
    Except Abort (Registry capacity pool × ℕ)
  | [], registry, nextDeadline => .ok (registry, nextDeadline)
  | index :: rest, registry, nextDeadline => do
      let (registry, nextDeadline) ← scheduleDueStep nowNs registry nextDeadline index
      scheduleDueLoop nowNs rest registry nextDeadline

def scheduleDueSlots (registry : Registry capacity pool) (nowNs : ℕ) :
    Except Abort (Registry capacity pool × ℕ) :=
  scheduleDueLoop nowNs (List.finRange capacity) registry 0

/-- `schedule_slot_locked`, with the wake of the slot's target taken to succeed. -/
def scheduleSlot (registry : Registry capacity pool) (index : Fin capacity) :
    Registry capacity pool × Option Errno :=
  let slot := registry.slots index
  if slot.scheduleEpoch = 2 ^ 64 - 1 then (registry, some .EOVERFLOW)
  else
    let slot := { slot with scheduleEpoch := slot.scheduleEpoch + 1 }
    if slot.pooled = false then (registry.setSlot index slot, none)
    else
      let slot := { slot with deadlineNs := 0 }
      if slot.quantumRunning = true then
        (registry.setSlot index { slot with rescheduleRequested := true }, none)
      else if slot.queued = true then (registry.setSlot index slot, none)
      else
        match (registry.setSlot index slot).enqueueSlot index with
        | .error errno => (registry.setSlot index slot, some errno)
        | .ok registry => (registry, none)

/-- What the registry keeps of a `PostgammaBackendLaunchRequest`. -/
structure LaunchRequest where
  backendType : ℕ
  executionClass : BackendClass
  /-- A startup failure function is given, which selects asynchronous startup. -/
  asynchronous : Bool
  deriving DecidableEq

/-- The first slot that is free. -/
def freeIndex (registry : Registry capacity pool) : Option (Fin capacity) :=
  (List.finRange capacity).find? fun index => (registry.slots index).state = .free

/-- The generation behind a slot's generation; zero is skipped. -/
def followingGeneration (generation : ℕ) : ℕ :=
  let next := (generation + 1) % 2 ^ 32
  if next = 0 then 1 else next

/-- The fields that `postgamma_backend_launch` writes into its slot. -/
def launchedSlot (slot : BackendSlot pool) (index pid start : ℕ) (request : LaunchRequest) :
    BackendSlot pool :=
  { slot with
    generation := followingGeneration slot.generation
    handle :=
      { id := makeBackendId index (followingGeneration slot.generation)
        compatPid := pid
        backendType := request.backendType
        executionClass := request.executionClass }
    state := .running
    thread := false
    start := some start
    assignedWorker := none
    deadlineNs := 0
    scheduleEpoch := 0
    pooled := false
    queued := false
    quantumRunning := false
    completionDeliveryComplete := false
    rescheduleRequested := false
    pinned := false
    blocked := false
    executionTokenHeld := false }

/-- Slot, process id and counter of `postgamma_backend_launch`, up to the provider's part. -/
def launchSlot (registry : Registry capacity pool) (request : LaunchRequest) (start : ℕ) :
    Option (Registry capacity pool × Fin capacity) := do
  let index ← registry.freeIndex
  let (pid, nextCompatPid) ← registry.allocateCompatPid
  let slot := launchedSlot (registry.slots index) index pid start request
  some
    ({ registry.setSlot index slot with
        nextCompatPid := nextCompatPid
        activeCount := registry.activeCount + 1
        runnable :=
          { registry.runnable with
            next := Function.update registry.runnable.next index none }
        completions :=
          { registry.completions with
            next := Function.update registry.completions.next index none } },
      index)

/-- The failure path of `postgamma_backend_launch`. -/
def launchFailed (registry : Registry capacity pool) (index : Fin capacity) :
    Registry capacity pool :=
  { registry.setSlot index
      { registry.slots index with start := none, handle := .zero, state := .free } with
    activeCount := registry.activeCount - 1
    runnable :=
      { registry.runnable with next := Function.update registry.runnable.next index none }
    broadcast := true }

/-- `registry->next_worker++ % registry->worker_count`. -/
def rotatedWorker (nextWorker : ℕ) : Option (Fin pool) :=
  if positive : 0 < pool then some ⟨nextWorker % pool, Nat.mod_lt _ positive⟩ else none

/-- What a launch has come to at the end of its first critical section. -/
inductive Launching (capacity pool : ℕ) where
  /-- The launch has returned its status. -/
  | returned (registry : Registry capacity pool) (index : Fin capacity) (status : Option Errno)
  /-- The carrier thread is created outside the lock. -/
  | creating (registry : Registry capacity pool) (index : Fin capacity)

/-- The first part of `dedicated_provider_launch_locked`, up to the unlock. -/
def dedicatedLaunch (registry : Registry capacity pool) (index : Fin capacity) :
    Launching capacity pool :=
  .creating (registry.setSlot index { registry.slots index with state := .starting }) index

/-- The provider's part of a launch in the first critical section. -/
def providerLaunch (registry : Registry capacity pool) (index : Fin capacity)
    (request : LaunchRequest) : Launching capacity pool :=
  match registry.provider, request.executionClass with
  | .dedicated, _ => registry.dedicatedLaunch index
  | .pooled, .client =>
      let slot :=
        { registry.slots index with
          pooled := true
          assignedWorker := rotatedWorker registry.nextWorker }
      let registry :=
        { registry.setSlot index slot with nextWorker := (registry.nextWorker + 1) % 2 ^ 32 }
      match registry.enqueueSlot index with
      | .error errno => .returned (registry.launchFailed index) index (some errno)
      | .ok registry => .returned registry index none
  | .pooled, .parallel =>
      match registry.acquireExecutionToken index with
      | none => .returned (registry.launchFailed index) index (some .EAGAIN)
      | some registry => registry.dedicatedLaunch index
  | .pooled, .dedicated => registry.dedicatedLaunch index

/-- The second part of `dedicated_provider_launch_locked` with a created thread. -/
def publishThread (registry : Registry capacity pool) (index : Fin capacity)
    (request : LaunchRequest) : Registry capacity pool :=
  let slot := { registry.slots index with thread := true }
  let slot := if request.asynchronous then slot else { slot with state := .running }
  { registry.setSlot index slot with
    backendThreadsActive := registry.backendThreadsActive + 1
    clientThreadsActive :=
      if request.executionClass = .client then registry.clientThreadsActive + 1
      else registry.clientThreadsActive
    broadcast := true }

/-- The second part of a launch whose thread could not be created. -/
def abandonLaunch (registry : Registry capacity pool) (index : Fin capacity) :
    Except Abort (Registry capacity pool) := do
  let registry ←
    if (registry.slots index).executionTokenHeld = true then registry.releaseExecutionToken index
    else .ok registry
  .ok (registry.launchFailed index)

/-- The quantum start of `pooled_worker_main`. -/
def startQuantum (registry : Registry capacity pool) (worker : Fin pool)
    (index : Fin capacity) : Except Abort (Registry capacity pool) :=
  let slot := registry.slots index
  if slot.pooled = false ∨ slot.quantumRunning = true ∨ slot.state ≠ .running ∨
      slot.start = none then .error .pooledWorkerMain
  else
    .ok
      { registry.setSlot index
          { slot with quantumRunning := true, rescheduleRequested := false } with
        workerRunning := Function.update registry.workerRunning worker true
        runningQuantums := registry.runningQuantums + 1
        backendThreadsActive := registry.backendThreadsActive + 1
        clientThreadsActive := registry.clientThreadsActive + 1 }

/-- The critical section of `begin_backend_thread`; `none` waits for the publication. -/
def beginThread (registry : Registry capacity pool) (index : Fin capacity) (start : ℕ) :
    Except Abort (Option (Registry capacity pool)) :=
  let slot := registry.slots index
  if slot.state = .starting ∧ slot.thread = false then .ok none
  else
    let registry :=
      if slot.state = .starting then
        { registry.setSlot index { slot with state := .running } with broadcast := true }
      else registry
    if (registry.slots index).start ≠ some start ∨ (registry.slots index).state ≠ .running then
      .error .beginBackendThread
    else .ok (some registry)

/-- The carrier of a quantum leaves it. -/
def endQuantum (registry : Registry capacity pool) (worker : Fin pool) (index : Fin capacity) :
    Except Abort (Registry capacity pool) :=
  if registry.runningQuantums = 0 then .error .completeBackendExecution
  else
    .ok
      { registry.setSlot index { registry.slots index with quantumRunning := false } with
        workerRunning := Function.update registry.workerRunning worker false
        runningQuantums := registry.runningQuantums - 1 }

def threadReturned (registry : Registry capacity pool) (index : Fin capacity) :
    Except Abort (Registry capacity pool) :=
  if registry.backendThreadsActive = 0 then .error .completeBackendExecution
  else
    let registry := { registry with backendThreadsActive := registry.backendThreadsActive - 1 }
    if (registry.slots index).handle.executionClass = .client then
      if registry.clientThreadsActive = 0 then .error .completeBackendExecution
      else .ok { registry with clientThreadsActive := registry.clientThreadsActive - 1 }
    else .ok registry

/-- The worker that a yielding quantum is assigned to. -/
def followingWorker (worker : Fin pool) : Fin pool :=
  ⟨(worker + 1) % pool, Nat.mod_lt _ (Nat.zero_lt_of_lt worker.isLt)⟩

/-- The yield branch of `complete_backend_execution`. -/
def yieldQuantum (registry : Registry capacity pool) (worker : Fin pool)
    (index : Fin capacity) : Except Abort (Registry capacity pool) := do
  let slot := { registry.slots index with assignedWorker := some (followingWorker worker) }
  let registry ←
    if slot.rescheduleRequested = true then
      match (registry.setSlot index { slot with rescheduleRequested := false }).enqueueSlot index
        with
      | .error _ => .error .completeBackendExecution
      | .ok registry => .ok registry
    else .ok (registry.setSlot index slot)
  .ok { registry with broadcast := true }

/-- Pin and block accounting of an exiting execution. -/
def unpinned (registry : Registry capacity pool) (index : Fin capacity) :
    Except Abort (Registry capacity pool) := do
  let registry ←
    if (registry.slots index).pinned = true then
      if registry.pinnedSessions = 0 then .error .completeBackendExecution
      else
        .ok
          { registry.setSlot index { registry.slots index with pinned := false } with
            pinnedSessions := registry.pinnedSessions - 1 }
    else .ok registry
  if (registry.slots index).blocked = true then
    if registry.blockedSessions = 0 then .error .completeBackendExecution
    else
      .ok
        { registry.setSlot index { registry.slots index with blocked := false } with
          blockedSessions := registry.blockedSessions - 1 }
  else .ok registry

/-- An exited execution is published in its slot and linked into the completion list. -/
def publishCompletion (registry : Registry capacity pool) (index : Fin capacity)
    (status : ExitStatus) : Registry capacity pool :=
  let slot := registry.slots index
  { registry.setSlot index
      { slot with
        completion := { handle := slot.handle, exitStatus := status }
        queued := false
        rescheduleRequested := false
        state := .completed } with
    completions := registry.completions.append index
    broadcast := true }

/-- The first critical section of `complete_backend_execution`, for the execution with the given
handle; a pooled quantum names its worker. -/
def completeExecution (registry : Registry capacity pool) (index : Fin capacity)
    (handle : BackendHandle) (status : ExitStatus) (worker : Option (Fin pool)) :
    Except Abort (Registry capacity pool) := do
  let slot := registry.slots index
  if slot.handle.id ≠ handle.id ∨ slot.state ≠ .running ∨
      (worker ≠ none ∧ slot.quantumRunning = false) then .error .completeBackendExecution
  else
    let registry ←
      match worker with
      | some worker => registry.endQuantum worker index
      | none => .ok registry
    let registry ←
      if (registry.slots index).executionTokenHeld = true then registry.releaseExecutionToken index
      else .ok registry
    let registry ← registry.threadReturned index
    if status.kind = .yield then
      match worker with
      | none => .error .completeBackendExecution
      | some worker =>
          if (registry.slots index).pooled = false then .error .completeBackendExecution
          else registry.yieldQuantum worker index
    else
      let registry ← registry.unpinned index
      .ok (registry.publishCompletion index status)

/-- The last critical section of `complete_backend_execution`. -/
def deliverCompletion (registry : Registry capacity pool) (index : Fin capacity) (start : ℕ) :
    Except Abort (Registry capacity pool) :=
  let slot := registry.slots index
  if slot.start ≠ some start ∨ slot.completionDeliveryComplete = true ∨
      (slot.state ≠ .completed ∧ slot.state ≠ .dequeued ∧ slot.state ≠ .joining) then
    .error .completeBackendExecution
  else
    .ok
      { registry.setSlot index { slot with completionDeliveryComplete := true } with
        broadcast := true }

/-- `postgamma_backend_completion_pop`. -/
def completionPop (registry : Registry capacity pool) :
    Registry capacity pool × Except Errno (Fin capacity × BackendCompletion) :=
  match registry.completions.head with
  | none => ({ registry with wakeSignalled := false }, .error .EAGAIN)
  | some index =>
      let slot := registry.slots index
      if slot.state ≠ .completed then (registry, .error .EPROTO)
      else
        let completions := registry.completions.pop index
        ({ registry.setSlot index { slot with state := .dequeued } with
            completions := completions
            wakeSignalled :=
              if completions.head = none then false else registry.wakeSignalled },
          .ok (index, slot.completion))

/-- The critical section in which `postgamma_backend_completion_join` claims its slot. -/
def joinClaim (registry : Registry capacity pool) (completion : BackendCompletion) :
    Except Errno (Registry capacity pool × Fin capacity) :=
  match decodeBackendId completion.handle.id with
  | none => .error .EINVAL
  | some (encoded, generation) =>
      if inside : encoded < capacity then
        let index : Fin capacity := ⟨encoded, inside⟩
        let slot := registry.slots index
        if slot.generation ≠ generation ∨ slot.handle.id ≠ completion.handle.id then
          .error .ESTALE
        else if slot.state ≠ .dequeued ∨ slot.completion ≠ completion then .error .EINVAL
        else .ok (registry.setSlot index { slot with state := .joining }, index)
      else .error .EINVAL

/-- The last critical section of `postgamma_backend_completion_join`; `none` is `EPROTO`. -/
def joinRelease (registry : Registry capacity pool) (index : Fin capacity) (start : ℕ) :
    Option (Registry capacity pool) :=
  let slot := registry.slots index
  if slot.state ≠ .joining ∨ slot.start ≠ some start then none
  else
    some
      { registry.setSlot index { freeSlot with generation := slot.generation } with
        runnable :=
          { registry.runnable with next := Function.update registry.runnable.next index none }
        activeCount := registry.activeCount - 1 }

/-! ## Calls by id or process id -/

def runningSlot (registry : Registry capacity pool) (id : ℕ) : Except Errno (Fin capacity) :=
  match decodeBackendId id with
  | none => .error .EINVAL
  | some (encoded, generation) =>
      if inside : encoded < capacity then
        let slot := registry.slots ⟨encoded, inside⟩
        if slot.generation ≠ generation ∨ slot.handle.id ≠ id ∨ slot.state ≠ .running then
          .error .ESTALE
        else .ok ⟨encoded, inside⟩
      else .error .EINVAL

def findRunningSlotByCompatPid (registry : Registry capacity pool) (pid : ℕ) :
    Option (Fin capacity) :=
  (List.finRange capacity).find? fun index =>
    ((registry.slots index).state = .starting || (registry.slots index).state = .running) &&
      (registry.slots index).handle.compatPid = pid

/-- `postgamma_backend_notify` for a runnable execution, as `postgamma_backend_schedule` calls it. -/
def notify (registry : Registry capacity pool) (id : ℕ) :
    Registry capacity pool × Option Errno :=
  match registry.runningSlot id with
  | .error errno => (registry, some errno)
  | .ok index => registry.scheduleSlot index

/-- The wake that `postgamma_backend_signal`, `postgamma_backend_pause` and
`postgamma_backend_wake` end with. -/
def wakeByCompatPid (registry : Registry capacity pool) (pid : ℕ) :
    Registry capacity pool × Option Errno :=
  match registry.findRunningSlotByCompatPid pid with
  | none => (registry, some .ESRCH)
  | some index => registry.scheduleSlot index

/-- `postgamma_backend_set_pinned`. -/
def setPinned (registry : Registry capacity pool) (id : ℕ) (pinned : Bool) :
    Registry capacity pool × Option Errno :=
  match registry.runningSlot id with
  | .error errno => (registry, some errno)
  | .ok index =>
      if (registry.slots index).pinned = pinned then (registry, none)
      else
        let registry := registry.setSlot index { registry.slots index with pinned := pinned }
        if pinned = true then
          ({ registry with pinnedSessions := registry.pinnedSessions + 1 }, none)
        else if registry.pinnedSessions = 0 then (registry, some .EPROTO)
        else ({ registry with pinnedSessions := registry.pinnedSessions - 1 }, none)

/-- `postgamma_backend_set_blocked`. -/
def setBlocked (registry : Registry capacity pool) (id : ℕ) (blocked : Bool) :
    Registry capacity pool × Option Errno :=
  match registry.runningSlot id with
  | .error errno => (registry, some errno)
  | .ok index =>
      if (registry.slots index).blocked = blocked then (registry, none)
      else
        let registry := registry.setSlot index { registry.slots index with blocked := blocked }
        if blocked = true then
          ({ registry with blockedSessions := registry.blockedSessions + 1 }, none)
        else if registry.blockedSessions = 0 then (registry, some .EPROTO)
        else ({ registry with blockedSessions := registry.blockedSessions - 1 }, none)

/-- `postgamma_backend_set_deadline`. -/
def setDeadline (registry : Registry capacity pool) (id deadlineNs : ℕ) :
    Registry capacity pool × Option Errno :=
  match registry.runningSlot id with
  | .error errno => (registry, some errno)
  | .ok index =>
      ({ registry.setSlot index { registry.slots index with deadlineNs := deadlineNs } with
          broadcast := true }, none)

def quantumSlot (registry : Registry capacity pool) (id : ℕ) : Except Errno (Fin capacity) := do
  let index ← registry.runningSlot id
  if (registry.slots index).pooled = false ∨ (registry.slots index).quantumRunning = false then
    .error .ESTALE
  else .ok index

/-- `postgamma_backend_schedule_epoch`. -/
def readScheduleEpoch (registry : Registry capacity pool) (id : ℕ) : Except Errno ℕ := do
  let index ← registry.quantumSlot id
  .ok (registry.slots index).scheduleEpoch

/-- `postgamma_backend_prepare_yield`. -/
def prepareYield (registry : Registry capacity pool) (id observed : ℕ) (runnable : Bool) :
    Except Errno (Registry capacity pool) := do
  let index ← registry.quantumSlot id
  if (registry.slots index).scheduleEpoch ≠ observed then .error .EAGAIN
  else
    .ok (registry.setSlot index { registry.slots index with rescheduleRequested := runnable })

end Registry

end Postgamma.Runtime
