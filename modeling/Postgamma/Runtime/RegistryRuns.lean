import Mathlib
import Postgamma.Runtime.Registry

/-!
# Runs of the backend execution registry

The threads around the registry: launching calls, the carrier threads of dedicated executions, the
pooled workers and the calls that join a completion.  A critical section is one step; what a thread
keeps between two of its critical sections is its phase.  A waiting worker is asleep, with the
deadline it sleeps until, and may have been signalled; it may also wake up for no reason.
-/

namespace Postgamma.Runtime

/-- The fields of a `PostgammaBackendExecutionStart` that the registry reads, with the identity of
the record; they do not change while the record lives. -/
structure Start (capacity : ℕ) where
  id : ℕ
  index : Fin capacity
  handle : BackendHandle
  deriving DecidableEq

/-- A thread that executes backends: the thread of one start record, or a pooled worker. -/
inductive Carrier (pool : ℕ) where
  | thread (start : ℕ)
  | worker (index : Fin pool)
  deriving DecidableEq

/-- Where a carrier is between two critical sections. -/
inductive Phase (capacity : ℕ) where
  /-- The thread does not exist, or has returned from its main function. -/
  | absent
  | finished
  /-- In front of `begin_backend_thread`. -/
  | born (start : Start capacity)
  /-- In front of the lock of `pooled_worker_main`. -/
  | idle
  /-- In the condition wait of `pooled_worker_main`; deadline zero is none. -/
  | asleep (deadline : ℕ) (signalled : Bool)
  /-- In the main function, with the schedule epochs that it has read. -/
  | executing (start : Start capacity) (epochs : List ℕ)
  /-- Between queueing the completion and waking the registry's target. -/
  | published (start : Start capacity)
  /-- Between that wake and the last critical section of `complete_backend_execution`. -/
  | woken (start : Start capacity)
  deriving DecidableEq

namespace Phase

variable {capacity : ℕ}

/-- What a broadcast does to a carrier. -/
def signal : Phase capacity → Phase capacity
  | asleep deadline _ => asleep deadline true
  | phase => phase

/-- The execution that a carrier holds the start record of. -/
def seat : Phase capacity → Option (Start capacity)
  | born start => some start
  | executing start _ => some start
  | published start => some start
  | woken start => some start
  | _ => none

end Phase

/-- Where a launching call is between its two critical sections. -/
inductive Launcher (capacity : ℕ) where
  | idle
  | creating (start : Start capacity) (request : Registry.LaunchRequest)
  | created (start : Start capacity) (request : Registry.LaunchRequest)
  | refused (start : Start capacity)
  deriving DecidableEq

/-- Where a joining call is between its critical sections. -/
inductive Joiner (capacity : ℕ) where
  | idle
  | claimed (index : Fin capacity) (start : ℕ)
  | joined (index : Fin capacity) (start : ℕ)
  | destroying (index : Fin capacity) (start : ℕ)
  /-- The call has returned an error behind its claim. -/
  | failed (errno : Errno)
  deriving DecidableEq

/-- The registry, its threads and what has happened so far. -/
structure System (capacity pool : ℕ) where
  registry : Registry capacity pool
  carriers : Carrier pool → Phase capacity
  /-- Launching calls by the start record that they have allocated. -/
  launchers : ℕ → Launcher capacity
  joiners : ℕ → Joiner capacity
  /-- Every start record so far; a record's identity is its place. -/
  starts : List (Start capacity)
  /-- The start records whose launch has returned success. -/
  launched : List ℕ
  /-- The completions in the order in which they were queued. -/
  queued : List (ℕ × BackendCompletion)
  /-- The completions that `postgamma_backend_completion_pop` has returned. -/
  delivered : List (ℕ × BackendCompletion)
  /-- The start records whose join has returned success. -/
  joined : List ℕ
  /-- The start records that have been freed. -/
  freed : List ℕ
  /-- The schedule epoch at the last quantum start of an execution. -/
  startedEpoch : ℕ → ℕ
  /-- The schedule epoch at the last quantum start or epoch read of an execution. -/
  seenEpoch : ℕ → ℕ

namespace System

variable {capacity pool : ℕ}

/-- The workers are about to lock the registry; no other carrier exists. -/
def unstarted : Carrier pool → Phase capacity
  | .thread _ => .absent
  | .worker _ => .idle

/-- The system behind `postgamma_backend_registry_create_with_provider`. -/
def create (config : ProviderConfig) : System capacity pool :=
  { registry := .create config
    carriers := unstarted
    launchers := fun _ => .idle
    joiners := fun _ => .idle
    starts := []
    launched := []
    queued := []
    delivered := []
    joined := []
    freed := []
    startedEpoch := fun _ => 0
    seenEpoch := fun _ => 0 }

/-- The end of a critical section: a broadcast signals every sleeper. -/
def unlock (system : System capacity pool) (registry : Registry capacity pool) :
    System capacity pool :=
  { system with
    registry := { registry with broadcast := false }
    carriers :=
      if registry.broadcast then fun carrier => (system.carriers carrier).signal
      else system.carriers }

def move (system : System capacity pool) (carrier : Carrier pool) (phase : Phase capacity) :
    System capacity pool :=
  { system with carriers := Function.update system.carriers carrier phase }

def moveLauncher (system : System capacity pool) (start : ℕ) (phase : Launcher capacity) :
    System capacity pool :=
  { system with launchers := Function.update system.launchers start phase }

def moveJoiner (system : System capacity pool) (joiner : ℕ) (phase : Joiner capacity) :
    System capacity pool :=
  { system with joiners := Function.update system.joiners joiner phase }

/-- A start record has been allocated. -/
def recorded (system : System capacity pool) (start : Start capacity) : System capacity pool :=
  { system with starts := system.starts ++ [start] }

/-- The end of the first critical section of a launch. -/
def endLaunch (system : System capacity pool) (start : Start capacity)
    (request : Registry.LaunchRequest) : Registry.Launching capacity pool → System capacity pool
  | .returned registry _ none =>
      { system.unlock registry with launched := system.launched ++ [start.id] }
  | .returned registry _ (some _) =>
      { system.unlock registry with freed := system.freed ++ [start.id] }
  | .creating registry _ =>
      (system.unlock registry).moveLauncher start.id (.creating start request)

/-- The launch part that runs before the carrier thread is created.  A launch that finds no slot
changes nothing. -/
def launch (system : System capacity pool) (request : Registry.LaunchRequest) :
    Option (System capacity pool) :=
  match system.registry.launchSlot request system.starts.length with
  | none => none
  | some (registry, index) =>
      let start : Start capacity :=
        { id := system.starts.length, index := index, handle := (registry.slots index).handle }
      some ((system.recorded start).endLaunch start request (registry.providerLaunch index request))

/-- The thread creation of `dedicated_provider_launch_locked`, outside the lock. -/
def createThread (system : System capacity pool) (id : ℕ) (success : Bool) :
    Option (System capacity pool) :=
  match system.launchers id with
  | .creating start request =>
      if success then
        some ((system.moveLauncher id (.created start request)).move (.thread id) (.born start))
      else some (system.moveLauncher id (.refused start))
  | _ => none

/-- The launch part behind the thread creation. -/
def finishLaunch (system : System capacity pool) (id : ℕ) :
    Except Abort (Option (System capacity pool)) :=
  match system.launchers id with
  | .created start request =>
      let system := (system.unlock (system.registry.publishThread start.index request))
      .ok (some { system.moveLauncher id .idle with launched := system.launched ++ [id] })
  | .refused start => do
      let registry ← system.registry.abandonLaunch start.index
      .ok (some
        { (system.unlock registry).moveLauncher id .idle with freed := system.freed ++ [id] })
  | _ => .ok none

/-- `begin_backend_thread`, of a thread that runs its main function or reports that its startup has
failed. -/
def beginThread (system : System capacity pool) (id : ℕ) :
    Except Abort (Option (System capacity pool)) :=
  match system.carriers (.thread id) with
  | .born start => do
      match ← system.registry.beginThread start.index start.id with
      | none => .ok none
      | some registry =>
          .ok (some ((system.unlock registry).move (.thread id) (.executing start [])))
  | _ => .ok none

def workerOf : Carrier pool → Option (Fin pool)
  | .thread _ => none
  | .worker index => some index

/-- The exit status that `complete_backend_execution` publishes: `backend_thread_main` turns a yield
into a panic, and so does a cleanup function that fails. -/
def exitStatus (worker : Option (Fin pool)) (returned : ExitStatus) (cleanup : ℤ) : ExitStatus :=
  let status :=
    if worker = none ∧ returned.kind = .yield then { kind := .panic, code := 71 } else returned
  if status.kind ≠ .yield ∧ cleanup ≠ 0 then { kind := .panic, code := cleanup } else status

/-- The first critical section of `complete_backend_execution`, behind a main function that has
returned and the cleanup function. -/
def complete (system : System capacity pool) (carrier : Carrier pool) (returned : ExitStatus)
    (cleanup : ℤ) : Except Abort (Option (System capacity pool)) :=
  match system.carriers carrier with
  | .executing start _ => do
      let status := exitStatus (workerOf carrier) returned cleanup
      let registry ←
        system.registry.completeExecution start.index start.handle status (workerOf carrier)
      let system := system.unlock registry
      if status.kind = .yield then .ok (some (system.move carrier .idle))
      else
        .ok (some
          { system.move carrier (.published start) with
            queued :=
              system.queued ++ [(start.id, { handle := start.handle, exitStatus := status })] })
  | _ => .ok none

/-- The wake of the registry's target behind a queued completion. -/
def wake (system : System capacity pool) (carrier : Carrier pool) :
    Option (System capacity pool) :=
  match system.carriers carrier with
  | .published start =>
      some
        { system.move carrier (.woken start) with
          registry := { system.registry with wakeSignalled := true } }
  | _ => none

/-- The phase of a carrier behind `complete_backend_execution`. -/
def released : Carrier pool → Phase capacity
  | .thread _ => .finished
  | .worker _ => .idle

/-- The last critical section of `complete_backend_execution`. -/
def deliver (system : System capacity pool) (carrier : Carrier pool) :
    Except Abort (Option (System capacity pool)) :=
  match system.carriers carrier with
  | .woken start => do
      let registry ← system.registry.deliverCompletion start.index start.id
      .ok (some ((system.unlock registry).move carrier (released carrier)))
  | _ => .ok none

/-- A worker that holds the lock or is about to: it is in front of it, or in its condition wait. -/
def resting : Phase capacity → Bool
  | .idle => true
  | .asleep _ _ => true
  | _ => false

def startRecord (system : System capacity pool) (index : Fin capacity) :
    Option (Start capacity) := do
  let id ← (system.registry.slots index).start
  system.starts[id]?

/-- The quantum start of a worker with the slot that it has dequeued. -/
def startQuantum (system : System capacity pool) (worker : Fin pool)
    (registry : Registry capacity pool) (index : Fin capacity) :
    Except Abort (Option (System capacity pool)) := do
  let registry ← registry.startQuantum worker index
  let epoch := (registry.slots index).scheduleEpoch
  match system.startRecord index with
  | none => .error .pooledWorkerMain
  | some start =>
      .ok (some
        { (system.unlock registry).move (.worker worker) (.executing start []) with
          startedEpoch := Function.update system.startedEpoch start.id epoch
          seenEpoch := Function.update system.seenEpoch start.id epoch })

/-- One turn of the inner loop of `pooled_worker_main`: the worker starts a quantum or sleeps. -/
def runWorker (system : System capacity pool) (worker : Fin pool) (nowNs : ℕ) :
    Except Abort (Option (System capacity pool)) :=
  if resting (system.carriers (.worker worker)) = false then .ok none
  else do
    let (registry, nextDeadline) ← system.registry.scheduleDueSlots nowNs
    let (registry, slot) ← registry.dequeueSlotForWorker worker
    match slot with
    | none => .ok (some ((system.unlock registry).move (.worker worker) (.asleep nextDeadline false)))
    | some index => system.startQuantum worker registry index

/-- `postgamma_backend_schedule_epoch`, called by a main function for its own execution. -/
def scheduleEpoch (system : System capacity pool) (carrier : Carrier pool) :
    Option (System capacity pool) :=
  match system.carriers carrier with
  | .executing start epochs =>
      match system.registry.readScheduleEpoch start.handle.id with
      | .error _ => none
      | .ok epoch =>
          some
            { system.move carrier (.executing start (epoch :: epochs)) with
              seenEpoch := Function.update system.seenEpoch start.id epoch }
  | _ => none

/-- `postgamma_backend_prepare_yield`, called by a main function with an epoch that it has read. -/
def prepareYield (system : System capacity pool) (carrier : Carrier pool) (observed : ℕ)
    (runnable : Bool) : Option (System capacity pool) :=
  match system.carriers carrier with
  | .executing start epochs =>
      if observed ∈ epochs then
        match system.registry.prepareYield start.handle.id observed runnable with
        | .error _ => none
        | .ok registry => some (system.unlock registry)
      else none
  | _ => none

/-- `postgamma_backend_completion_pop`. -/
def completionPop (system : System capacity pool) : System capacity pool :=
  match system.registry.completionPop with
  | (registry, .error _) => system.unlock registry
  | (registry, .ok (index, completion)) =>
      { system.unlock registry with
        delivered :=
          system.delivered ++
            (system.registry.slots index).start.toList.map fun id => (id, completion) }

/-- The claim of `postgamma_backend_completion_join`; a claim that is refused changes nothing. -/
def joinClaim (system : System capacity pool) (joiner : ℕ) (completion : BackendCompletion) :
    Option (System capacity pool) :=
  match system.joiners joiner, system.registry.joinClaim completion with
  | .idle, .ok (registry, index) => do
      let id ← (registry.slots index).start
      some ((system.unlock registry).moveJoiner joiner (.claimed index id))
  | _, _ => none

/-- The provider's join, outside the lock; it waits for the end of a dedicated thread. -/
def joinThread (system : System capacity pool) (joiner : ℕ) : Option (System capacity pool) :=
  match system.joiners joiner with
  | .claimed index id =>
      let slot := system.registry.slots index
      if slot.pooled = true then some (system.moveJoiner joiner (.joined index id))
      else if slot.thread = false then
        let registry := system.registry.setSlot index { slot with state := .dequeued }
        some ((system.unlock registry).moveJoiner joiner (.failed .EPROTO))
      else if system.carriers (.thread id) = .finished then
        some (system.moveJoiner joiner (.joined index id))
      else none
  | _ => none

/-- The wait of `postgamma_backend_completion_join` for the end of the delivery. -/
def joinWait (system : System capacity pool) (joiner : ℕ) : Option (System capacity pool) :=
  match system.joiners joiner with
  | .joined index id =>
      let slot := system.registry.slots index
      if slot.state = .joining ∧ slot.start = some id ∧ slot.completionDeliveryComplete = false then
        none
      else if slot.state ≠ .joining ∨ slot.start ≠ some id ∨
          slot.completionDeliveryComplete = false then
        some (system.moveJoiner joiner (.failed .EPROTO))
      else some (system.moveJoiner joiner (.destroying index id))
  | _ => none

/-- The release at the end of `postgamma_backend_completion_join`. -/
def joinRelease (system : System capacity pool) (joiner : ℕ) : Option (System capacity pool) :=
  match system.joiners joiner with
  | .destroying index id =>
      match system.registry.joinRelease index id with
      | none => some (system.moveJoiner joiner (.failed .EPROTO))
      | some registry =>
          some
            { (system.unlock registry).moveJoiner joiner .idle with
              joined := system.joined ++ [id]
              freed := system.freed ++ [id] }
  | _ => none

end System

/-- A step of one thread. -/
inductive Action (pool : ℕ) where
  | launch (request : Registry.LaunchRequest)
  | createThread (start : ℕ) (success : Bool)
  | finishLaunch (start : ℕ)
  | beginThread (start : ℕ)
  | complete (carrier : Carrier pool) (returned : ExitStatus) (cleanup : ℤ)
  | wake (carrier : Carrier pool)
  | deliver (carrier : Carrier pool)
  | runWorker (worker : Fin pool) (nowNs : ℕ)
  | scheduleEpoch (carrier : Carrier pool)
  | prepareYield (carrier : Carrier pool) (observed : ℕ) (runnable : Bool)
  | notify (id : ℕ)
  | wakeByCompatPid (pid : ℕ)
  | setPinned (id : ℕ) (pinned : Bool)
  | setBlocked (id : ℕ) (blocked : Bool)
  | setDeadline (id deadlineNs : ℕ)
  | completionPop
  | joinClaim (joiner : ℕ) (completion : BackendCompletion)
  | joinThread (joiner : ℕ)
  | joinWait (joiner : ℕ)
  | joinRelease (joiner : ℕ)

namespace System

variable {capacity pool : ℕ}

/-- One step; `none` when the thread is elsewhere, waits, or its call changes nothing. -/
def step (system : System capacity pool) :
    Action pool → Except Abort (Option (System capacity pool))
  | .launch request => .ok (system.launch request)
  | .createThread start success => .ok (system.createThread start success)
  | .finishLaunch start => system.finishLaunch start
  | .beginThread start => system.beginThread start
  | .complete carrier returned cleanup => system.complete carrier returned cleanup
  | .wake carrier => .ok (system.wake carrier)
  | .deliver carrier => system.deliver carrier
  | .runWorker worker nowNs => system.runWorker worker nowNs
  | .scheduleEpoch carrier => .ok (system.scheduleEpoch carrier)
  | .prepareYield carrier observed runnable =>
      .ok (system.prepareYield carrier observed runnable)
  | .notify id => .ok (some (system.unlock (system.registry.notify id).1))
  | .wakeByCompatPid pid => .ok (some (system.unlock (system.registry.wakeByCompatPid pid).1))
  | .setPinned id pinned => .ok (some (system.unlock (system.registry.setPinned id pinned).1))
  | .setBlocked id blocked =>
      .ok (some (system.unlock (system.registry.setBlocked id blocked).1))
  | .setDeadline id deadlineNs =>
      .ok (some (system.unlock (system.registry.setDeadline id deadlineNs).1))
  | .completionPop => .ok (some system.completionPop)
  | .joinClaim joiner completion => .ok (system.joinClaim joiner completion)
  | .joinThread joiner => .ok (system.joinThread joiner)
  | .joinWait joiner => .ok (system.joinWait joiner)
  | .joinRelease joiner => .ok (system.joinRelease joiner)

/-- The states that the steps of any threads lead to, in any order. -/
inductive Reachable (config : ProviderConfig) : System capacity pool → Prop
  | create : Reachable config (create config)
  | step {system after : System capacity pool} {action : Action pool}
      (before : Reachable config system) (taken : system.step action = .ok (some after)) :
      Reachable config after

end System

end Postgamma.Runtime
