import Mathlib
import Postgamma.Library.Ring
import Postgamma.Library.Program

/-!
# The supervisor of an instance

`supervisor.c`: clients submit controls into a bounded ring, and the supervisor thread takes and
completes them, in its own loop (dispatch mode) or from the `run` callback (run mode).  A section
under the mutex is one step.  All threads share one condition; a signal wakes one thread that the
scheduler chooses.  Tickets are named by their sequence numbers.
-/

namespace Postgamma.Embedded

/-- The `int` status of a call; zero is success. -/
abbrev Status := ℤ

def enomem : Status := 12
def eagain : Status := 11
def ebusy : Status := 16
def einval : Status := 22
def eproto : Status := 71
def eoverflow : Status := 75
def enotsup : Status := 95
def eshutdown : Status := 108
def ealready : Status := 114
def estale : Status := 116

/-- `PostgammaSupervisorState`. -/
inductive SupervisorState
  | new
  | starting
  | recovering
  | ready
  | quiescing
  | stopping
  | closed
  | failed
  deriving DecidableEq

/-- `PostgammaSupervisorControlKind`. -/
inductive ControlKind
  | connect
  | cancel
  | disconnect
  | reload
  | roleCompletion
  | shutdown
  | checkpoint
  deriving DecidableEq

/-- `PostgammaSupervisorShutdownMode`. -/
inductive ShutdownMode
  | smart
  | fast
  | immediate
  deriving DecidableEq

/-- `PostgammaSupervisorFailureOrigin`. -/
inductive FailureOrigin
  | threadStart
  | wait
  | boot
  | run
  | shutdown
  | hostFailStop
  | contract
  deriving DecidableEq

/-- `PostgammaSupervisorTicket`. -/
structure Ticket where
  kind : ControlKind
  shutdownMode : ShutdownMode
  payload : ℕ
  operationStatus : Status
  completed : Bool
  deriving DecidableEq

/-- `PostgammaSupervisorFailureRecord`. -/
structure FailureRecord where
  origin : FailureOrigin
  stateBefore : SupervisorState
  controlKind : Option ControlKind
  controlSequence : ℕ
  status : Status
  processRestartRequired : Bool
  deriving DecidableEq

/-- Which callbacks are set: in run mode there is no `dispatch` and no `shutdown`. -/
structure Callbacks where
  boot : Bool
  run : Bool
  dispatch : Bool
  shutdown : Bool
  exclusive : run = true → dispatch = false ∧ shutdown = false

/-- `PostgammaSupervisor`, with the lists of what became of the tickets. -/
structure Supervisor where
  generation : ℕ
  callbacks : Callbacks
  queue : ℕ → ℕ
  capacity : ℕ
  head : ℕ
  depth : ℕ
  inflight : Option ℕ
  state : SupervisorState
  nextSequence : ℕ
  submitted : ℕ
  completed : ℕ
  activeTickets : ℕ
  failureStatus : Status
  lastFailure : Option FailureRecord
  thread : Bool
  threadsJoined : ℕ
  mainExited : Bool
  joining : Bool
  tickets : ℕ → Option Ticket
  /-- The sequence numbers in the order in which they were accepted. -/
  accepted : List ℕ
  /-- The completions in their order, with whether the control was executed. -/
  log : List (ℕ × Bool)
  /-- The tickets that their owners destroyed. -/
  destroyed : List ℕ

/-- `UINT64_MAX`. -/
def lastWord : ℕ := 2 ^ 64 - 1

/-- `PostgammaSupervisorOptions`. -/
structure SupervisorOptions where
  generation : ℕ
  capacity : ℕ
  callbacks : Callbacks

namespace Supervisor

/-- `postgamma_supervisor_create`, when its allocations succeed. -/
def create (options : SupervisorOptions) : Except Status Supervisor :=
  if options.generation = 0 ∨ options.capacity < 2 ∨ lastWord / 8 < options.capacity then
    .error einval
  else
    .ok {
      generation := options.generation
      callbacks := options.callbacks
      queue := fun _ => 0
      capacity := options.capacity
      head := 0
      depth := 0
      inflight := none
      state := .new
      nextSequence := 1
      submitted := 0
      completed := 0
      activeTickets := 0
      failureStatus := 0
      lastFailure := none
      thread := false
      threadsJoined := 0
      mainExited := false
      joining := false
      tickets := fun _ => none
      accepted := []
      log := []
      destroyed := [] }

def queued (supervisor : Supervisor) : List ℕ :=
  window supervisor.queue supervisor.capacity supervisor.head supervisor.depth

/-- The supervisor in another state. -/
def withState (supervisor : Supervisor) (state : SupervisorState) : Supervisor :=
  { supervisor with state }

/-- The supervisor with another control in flight. -/
def withInflight (supervisor : Supervisor) (inflight : Option ℕ) : Supervisor :=
  { supervisor with inflight }

def setTicket (supervisor : Supervisor) (sequence : ℕ) (ticket : Option Ticket) : Supervisor :=
  { supervisor with tickets := Function.update supervisor.tickets sequence ticket }

/-- `allocate_ticket`; `memory` tells whether the allocation succeeds. -/
def allocateTicket (supervisor : Supervisor) (memory : Bool) : Except Status (ℕ × Supervisor) :=
  if supervisor.nextSequence = 0 ∨ supervisor.nextSequence = lastWord ∨
      supervisor.submitted = lastWord ∨ supervisor.activeTickets = lastWord then .error eoverflow
  else if !memory then .error enomem
  else
    .ok (supervisor.nextSequence,
      { supervisor with nextSequence := supervisor.nextSequence + 1 })

def enqueueTicket (supervisor : Supervisor) (sequence : ℕ) (ticket : Ticket) :
    Except Status Supervisor :=
  if supervisor.capacity ≤ supervisor.depth then .error eagain
  else
    .ok { supervisor.setTicket sequence (some ticket) with
      queue := Function.update supervisor.queue
        ((supervisor.head + supervisor.depth) % supervisor.capacity) sequence
      depth := supervisor.depth + 1
      submitted := supervisor.submitted + 1
      activeTickets := supervisor.activeTickets + 1
      accepted := supervisor.accepted ++ [sequence] }

def dequeueTicket (supervisor : Supervisor) : Option (ℕ × Supervisor) :=
  if supervisor.depth = 0 then none
  else
    some (supervisor.queue supervisor.head,
      { supervisor with
        head := (supervisor.head + 1) % supervisor.capacity
        depth := supervisor.depth - 1 })

/-- `complete_ticket`; `executed` tells whether the control was carried out. -/
def completeTicket (supervisor : Supervisor) (sequence : ℕ) (status : Status) (executed : Bool) :
    Supervisor :=
  match supervisor.tickets sequence with
  | none => supervisor
  | some ticket =>
      if ticket.completed then supervisor
      else
        { supervisor.setTicket sequence
            (some { ticket with operationStatus := status, completed := true }) with
          completed :=
            if supervisor.completed = lastWord then supervisor.completed
            else supervisor.completed + 1
          log := supervisor.log ++ [(sequence, executed)] }

/-- The loop of `reject_queued_tickets`, which ends when the queue is empty. -/
def rejectLoop (status : Status) : ℕ → Supervisor → Supervisor
  | 0, supervisor => supervisor
  | count + 1, supervisor =>
      match supervisor.dequeueTicket with
      | none => supervisor
      | some (sequence, rest) => rejectLoop status count (rest.completeTicket sequence status false)

def rejectQueuedTickets (supervisor : Supervisor) (status : Status) : Supervisor :=
  rejectLoop status supervisor.depth supervisor

def setFailed (supervisor : Supervisor) (failureStatus : Status) (origin : FailureOrigin)
    (processRestartRequired : Bool) (sequence : Option ℕ) : Supervisor :=
  let recorded := if failureStatus ≠ 0 then failureStatus else eproto
  match supervisor.lastFailure with
  | some record =>
      if processRestartRequired then
        { supervisor with lastFailure := some { record with processRestartRequired := true } }
      else supervisor
  | none =>
      { supervisor with
        lastFailure := some {
          origin
          stateBefore := supervisor.state
          controlKind := (sequence.bind supervisor.tickets).map Ticket.kind
          controlSequence := sequence.getD 0
          status := recorded
          processRestartRequired }
        state := .failed
        failureStatus := recorded }

/-- `supervisor->failure_status != 0 ? supervisor->failure_status : EPROTO`. -/
def failureOr (supervisor : Supervisor) : Status :=
  if supervisor.failureStatus ≠ 0 then supervisor.failureStatus else eproto

end Supervisor

/-- Which sleepers a section wakes. -/
inductive Wake
  | nobody
  | one
  | everybody
  deriving DecidableEq

/-- What a section comes to: its status, the supervisor behind it and whom it wakes. -/
structure Section where
  status : Status
  supervisor : Supervisor
  wake : Wake

namespace Supervisor

/-- A section that changes nothing. -/
def refuse (supervisor : Supervisor) (status : Status) : Section := ⟨status, supervisor, .nobody⟩

/-- The first section of `postgamma_supervisor_start`. -/
def startSection (supervisor : Supervisor) : Section :=
  if supervisor.state ≠ .new ∨ supervisor.thread = true then supervisor.refuse ealready
  else ⟨0, supervisor.withState .starting, .nobody⟩

/-- The section of `postgamma_supervisor_start` for a thread that was not created. -/
def startFailed (supervisor : Supervisor) (status : Status) : Section :=
  ⟨status, supervisor.setFailed status .threadStart false none, .everybody⟩

/-- The section of `postgamma_supervisor_start` for a created thread, up to its wait. -/
def startThread (supervisor : Supervisor) : Section :=
  ⟨0, { supervisor with thread := true }, .everybody⟩

/-- `postgamma_supervisor_submit`, with the status of `postgamma_wake_target_wake`. -/
def submit (supervisor : Supervisor) (generation : ℕ) (kind : ControlKind) (payload : ℕ)
    (wake : Status) (memory : Bool) : Section :=
  if kind = .shutdown then supervisor.refuse einval
  else if generation ≠ supervisor.generation then supervisor.refuse estale
  else if supervisor.state ≠ .ready then supervisor.refuse eshutdown
  else if supervisor.capacity - 1 ≤ supervisor.depth then supervisor.refuse eagain
  else if wake ≠ 0 then supervisor.refuse wake
  else
    match supervisor.allocateTicket memory with
    | .error status => supervisor.refuse status
    | .ok (sequence, allocated) =>
        match allocated.enqueueTicket sequence ⟨kind, .smart, payload, 0, false⟩ with
        | .error status => allocated.refuse status
        | .ok enqueued => ⟨0, enqueued, .one⟩

/-- `postgamma_supervisor_request_shutdown`. -/
def requestShutdown (supervisor : Supervisor) (generation : ℕ) (mode : ShutdownMode)
    (wake : Status) (memory : Bool) : Section :=
  if generation ≠ supervisor.generation then supervisor.refuse estale
  else if supervisor.state ≠ .ready then supervisor.refuse eshutdown
  else if supervisor.capacity ≤ supervisor.depth then supervisor.refuse eagain
  else if wake ≠ 0 then supervisor.refuse wake
  else
    match supervisor.allocateTicket memory with
    | .error status => supervisor.refuse status
    | .ok (sequence, allocated) =>
        match allocated.enqueueTicket sequence ⟨.shutdown, mode, 0, 0, false⟩ with
        | .error status => allocated.refuse status
        | .ok enqueued => ⟨0, enqueued.withState .quiescing, .everybody⟩

/-- `postgamma_supervisor_ticket_destroy` on an allocated ticket. -/
def ticketDestroy (supervisor : Supervisor) (sequence : ℕ) : Section :=
  match supervisor.tickets sequence with
  | none => supervisor.refuse einval
  | some ticket =>
      if !ticket.completed then supervisor.refuse ebusy
      else if supervisor.activeTickets = 0 then supervisor.refuse eproto
      else
        ⟨0, { supervisor.setTicket sequence none with
          activeTickets := supervisor.activeTickets - 1
          destroyed := supervisor.destroyed ++ [sequence] }, .nobody⟩

/-- `postgamma_supervisor_fail_detailed`. -/
def fail (supervisor : Supervisor) (failureStatus : Status) (processRestartRequired : Bool) :
    Section :=
  if failureStatus = 0 then supervisor.refuse einval
  else if supervisor.state = .closed then supervisor.refuse eshutdown
  else
    ⟨0, supervisor.setFailed failureStatus .hostFailStop processRestartRequired
      supervisor.inflight, .everybody⟩

/-- The section of `postgamma_supervisor_join` in front of its wait: a status to return, or the
supervisor to wait for. -/
def joinSection (supervisor : Supervisor) : Except Status Supervisor :=
  if !supervisor.thread then .error (if supervisor.threadsJoined ≠ 0 then 0 else eproto)
  else if supervisor.joining then .error ebusy
  else if supervisor.state ≠ .quiescing ∧ supervisor.state ≠ .stopping ∧
      supervisor.state ≠ .closed ∧ supervisor.state ≠ .failed then .error ebusy
  else .ok { supervisor with joining := true }

/-- The last section of `postgamma_supervisor_join`. -/
def joinDone (supervisor : Supervisor) (status : Status) : Section :=
  if status = 0 then
    ⟨0, { supervisor with
      joining := false
      thread := false
      threadsJoined := supervisor.threadsJoined + 1 }, .nobody⟩
  else ⟨status, { supervisor with joining := false }, .nobody⟩

/-- `postgamma_supervisor_mark_recovering` on the supervisor thread. -/
def markRecovering (supervisor : Supervisor) : Section :=
  if supervisor.state ≠ .starting then supervisor.refuse eproto
  else ⟨0, supervisor.withState .recovering, .everybody⟩

/-- `postgamma_supervisor_mark_ready` on the supervisor thread in run mode. -/
def markReady (supervisor : Supervisor) : Section :=
  if supervisor.state ≠ .starting ∧ supervisor.state ≠ .recovering then supervisor.refuse eproto
  else ⟨0, supervisor.withState .ready, .everybody⟩

/-- The violation of the contract in `postgamma_supervisor_control_take`. -/
def violated (supervisor : Supervisor) (sequence : ℕ) : Section :=
  ⟨eproto, (supervisor.setFailed eproto .contract false (some sequence)).completeTicket sequence
    eproto false, .everybody⟩

/-- `postgamma_supervisor_control_take` on the supervisor thread in run mode. -/
def controlTake (supervisor : Supervisor) : Section :=
  if supervisor.state = .failed then supervisor.refuse eshutdown
  else if supervisor.inflight ≠ none then supervisor.refuse ebusy
  else
    match supervisor.dequeueTicket with
    | none => supervisor.refuse eagain
    | some (sequence, rest) =>
        if (rest.tickets sequence).map Ticket.kind = some .shutdown then
          if rest.state ≠ .quiescing then rest.violated sequence
          else ⟨0, (rest.withState .stopping).withInflight (some sequence), .everybody⟩
        else if rest.state ≠ .ready ∧ rest.state ≠ .quiescing then rest.violated sequence
        else ⟨0, rest.withInflight (some sequence), .everybody⟩

/-- `postgamma_supervisor_control_complete` on the supervisor thread in run mode, for the control
that a ticket was taken as. -/
def controlComplete (supervisor : Supervisor) (sequence : ℕ) (operationStatus : Status) : Section :=
  if supervisor.inflight ≠ some sequence then supervisor.refuse eproto
  else
    match supervisor.tickets sequence with
    | none => supervisor.refuse einval
    | some ticket =>
        if ticket.completed then supervisor.refuse ealready
        else if ticket.kind = .shutdown ∧ supervisor.state ≠ .stopping ∧
            supervisor.state ≠ .failed then supervisor.refuse eproto
        else
          let failed :=
            if operationStatus ≠ 0 ∧ ticket.kind = .shutdown then
              supervisor.setFailed operationStatus .shutdown false (some sequence)
            else supervisor
          let status :=
            if operationStatus = 0 ∧ failed.state = .failed then failed.failureOr
            else operationStatus
          ⟨0, (failed.completeTicket sequence status true).withInflight none, .everybody⟩

end Supervisor

/-- Where the supervisor thread is; the flag of a wait is set while it sleeps unsignalled. -/
inductive MainPhase
  | absent
  /-- It waits until `supervisor->thread` is set. -/
  | awaiting (asleep : Bool)
  | booting
  | running
  | waiting (asleep : Bool)
  | dispatching (sequence : ℕ)
  /-- It has taken the shutdown control and not locked the mutex again. -/
  | shutdownTaken (sequence : ℕ)
  | shuttingDown (sequence : ℕ) (allowed : Bool)
  | exited
  deriving DecidableEq

/-- What a section of the supervisor thread comes to. -/
structure MainSection where
  supervisor : Supervisor
  phase : MainPhase
  wake : Wake

namespace Supervisor

/-- The section at the label `finish`. -/
def finish (supervisor : Supervisor) : MainSection :=
  let settled :=
    match supervisor.inflight with
    | none => supervisor
    | some sequence =>
        let emptied := (supervisor.completeTicket sequence eshutdown false).withInflight none
        emptied.setFailed emptied.failureOr .contract false (some sequence)
  let rejected :=
    if settled.state = .failed then settled.rejectQueuedTickets eshutdown else settled
  ⟨{ rejected with mainExited := true }, .exited, .everybody⟩

/-- The section in front of the boot. -/
def awaitThread (supervisor : Supervisor) : MainSection :=
  if supervisor.thread = false ∧ supervisor.state ≠ .failed then
    ⟨supervisor, .awaiting true, .nobody⟩
  else if supervisor.state = .failed then supervisor.finish
  else ⟨supervisor, .booting, .nobody⟩

def waitFailed (supervisor : Supervisor) (status : Status) : MainSection :=
  (supervisor.setFailed status .wait false none).finish

/-- The head of the loop in dispatch mode, up to the next unlock. -/
def loop (supervisor : Supervisor) : MainSection :=
  if supervisor.state = .failed then supervisor.finish
  else
    match supervisor.dequeueTicket with
    | none => ⟨supervisor, .waiting true, .nobody⟩
    | some (sequence, rest) =>
        ⟨rest.withInflight (some sequence),
          if (rest.tickets sequence).map Ticket.kind = some .shutdown then .shutdownTaken sequence
          else .dispatching sequence,
          .nobody⟩

/-- The section behind the boot callback. -/
def booted (supervisor : Supervisor) (status : Status) : MainSection :=
  let settled :=
    if status ≠ 0 then supervisor.setFailed status .boot false none
    else if supervisor.callbacks.run = false ∧
        (supervisor.state = .starting ∨ supervisor.state = .recovering) then
      supervisor.withState .ready
    else if supervisor.callbacks.run = true ∧
        (supervisor.state = .starting ∨ supervisor.state = .recovering) then supervisor
    else if supervisor.state ≠ .failed then supervisor.setFailed eproto .contract false none
    else supervisor
  if settled.state = .failed then settled.finish
  else if supervisor.callbacks.run then ⟨settled, .running, .everybody⟩
  else { settled.loop with wake := .everybody }

/-- The section behind the run callback. -/
def ran (supervisor : Supervisor) (status : Status) : MainSection :=
  if status ≠ 0 then (supervisor.setFailed status .run false none).finish
  else if supervisor.state = .stopping ∧ supervisor.inflight = none ∧ supervisor.depth = 0 then
    (supervisor.withState .closed).finish
  else if supervisor.state ≠ .failed then
    (supervisor.setFailed eproto .contract false none).finish
  else supervisor.finish

/-- The status of a completed control. -/
def reported (supervisor : Supervisor) (status : Status) : Status :=
  if status = 0 ∧ supervisor.state = .failed then supervisor.failureOr else status

/-- The section behind the dispatch of a control. -/
def dispatched (supervisor : Supervisor) (sequence : ℕ) (status : Status) : MainSection :=
  let called := if supervisor.callbacks.dispatch then status else enotsup
  let completed :=
    (supervisor.completeTicket sequence (supervisor.reported called) true).withInflight none
  { completed.loop with wake := .everybody }

/-- The section in front of the shutdown callback. -/
def allowShutdown (supervisor : Supervisor) (sequence : ℕ) : MainSection :=
  if supervisor.state = .quiescing then
    ⟨supervisor.withState .stopping, .shuttingDown sequence true, .everybody⟩
  else
    ⟨supervisor.setFailed eproto .contract false (some sequence), .shuttingDown sequence false,
      .everybody⟩

/-- The end of the loop behind a completed shutdown. -/
def leave (supervisor : Supervisor) (sequence : ℕ) (status : Status) : MainSection :=
  if status = 0 ∧ supervisor.state = .stopping then (supervisor.withState .closed).finish
  else if supervisor.state ≠ .failed then
    (supervisor.setFailed (if status ≠ 0 then status else eproto) .shutdown false
      (some sequence)).finish
  else supervisor.finish

/-- The section behind the shutdown callback. -/
def shutDown (supervisor : Supervisor) (sequence : ℕ) (allowed : Bool) (status : Status) :
    MainSection :=
  let called :=
    if !allowed then eproto else if supervisor.callbacks.shutdown then status else 0
  let completed :=
    (supervisor.completeTicket sequence (supervisor.reported called) true).withInflight none
  completed.leave sequence (supervisor.reported called)

/-- The next section of the supervisor thread; `status` is what the callback, or a failing wait,
returns. -/
def mainSection (supervisor : Supervisor) (status : Status) : MainPhase → Option MainSection
  | .absent => none
  | .awaiting true => none
  | .awaiting false =>
      some (if status ≠ 0 then supervisor.waitFailed status else supervisor.awaitThread)
  | .booting => some (supervisor.booted (if supervisor.callbacks.boot then status else 0))
  | .running => some (supervisor.ran status)
  | .waiting true => none
  | .waiting false =>
      some (if status ≠ 0 then supervisor.waitFailed status else supervisor.loop)
  | .dispatching sequence => some (supervisor.dispatched sequence status)
  | .shutdownTaken sequence => some (supervisor.allowShutdown sequence)
  | .shuttingDown sequence allowed => some (supervisor.shutDown sequence allowed status)
  | .exited => none

end Supervisor

/-! ## The system -/

/-- Where a client is; the flag of a wait is set while it sleeps unsignalled. -/
inductive ClientPhase
  | idle
  /-- It creates the supervisor thread. -/
  | creating
  | created
  | readyWait (asleep : Bool)
  | ticketWait (sequence : ℕ) (asleep : Bool)
  | joinWait (asleep : Bool)
  | joinThread
  deriving DecidableEq

/-- A supervisor with its thread and its clients. -/
structure SupervisorSystem (ι : Type) where
  supervisor : Supervisor
  main : MainPhase
  clients : ι → ClientPhase

/-- What happens next.  A section that signals the condition names the sleeper that is woken; the
supervisor thread is `none`. -/
inductive SupervisorAction (ι : Type)
  | start (client : ι)
  | createThread (client : ι)
  | startFailed (client : ι) (status : Status)
  | startThread (client : ι)
  | submit (generation : ℕ) (kind : ControlKind) (payload : ℕ) (wake : Status) (memory : Bool)
      (woken : Option (Option ι))
  | requestShutdown (generation : ℕ) (mode : ShutdownMode) (wake : Status) (memory : Bool)
  | ticketWait (client : ι) (sequence : ℕ)
  | ticketDestroy (sequence : ℕ)
  | fail (status : Status) (processRestartRequired : Bool)
  | join (client : ι)
  | joined (client : ι) (status : Status)
  /-- A signalled client evaluates the condition of its wait again. -/
  | awake (client : ι)
  /-- The deadline of a waiting client passes. -/
  | timeout (client : ι)
  /-- A sleeper wakes without a signal. -/
  | spurious (sleeper : Option ι)
  | markRecovering
  | markReady
  | controlTake
  | controlComplete (sequence : ℕ) (status : Status)
  | main (status : Status)

/-- The thread sleeps and is not signalled. -/
def MainPhase.asleep : MainPhase → Bool
  | .awaiting asleep => asleep
  | .waiting asleep => asleep
  | _ => false

/-- The thread behind a signal. -/
def MainPhase.woken : MainPhase → MainPhase
  | .awaiting _ => .awaiting false
  | .waiting _ => .waiting false
  | phase => phase

/-- The supervisor thread calls into the supervisor from a callback. -/
def MainPhase.inCallback : MainPhase → Bool
  | .booting => true
  | .running => true
  | .dispatching _ => true
  | .shuttingDown _ _ => true
  | _ => false

/-- The client sleeps and is not signalled. -/
def ClientPhase.asleep : ClientPhase → Bool
  | .readyWait asleep => asleep
  | .ticketWait _ asleep => asleep
  | .joinWait asleep => asleep
  | _ => false

def ClientPhase.waits : ClientPhase → Bool
  | .readyWait _ => true
  | .ticketWait _ _ => true
  | .joinWait _ => true
  | _ => false

/-- The client behind a signal. -/
def ClientPhase.woken : ClientPhase → ClientPhase
  | .readyWait _ => .readyWait false
  | .ticketWait sequence _ => .ticketWait sequence false
  | .joinWait _ => .joinWait false
  | phase => phase

namespace SupervisorSystem

variable {ι : Type} [DecidableEq ι]

/-- The system around a new supervisor. -/
def init (supervisor : Supervisor) : SupervisorSystem ι := ⟨supervisor, .absent, fun _ => .idle⟩

def move (system : SupervisorSystem ι) (client : ι) (phase : ClientPhase) : SupervisorSystem ι :=
  { system with clients := Function.update system.clients client phase }

/-- The thread sleeps and is not signalled. -/
def asleep (system : SupervisorSystem ι) : Option ι → Bool
  | none => system.main.asleep
  | some client => (system.clients client).asleep

/-- One thread is woken. -/
def wakeOne (system : SupervisorSystem ι) : Option ι → SupervisorSystem ι
  | none => { system with main := system.main.woken }
  | some client => system.move client (system.clients client).woken

/-- All threads are woken. -/
def wakeAll (system : SupervisorSystem ι) : SupervisorSystem ι :=
  { system with
    main := system.main.woken
    clients := fun client => (system.clients client).woken }

/-- The wakeups of a section; a signal wakes a sleeper if there is one. -/
inductive Woken (system : SupervisorSystem ι) : Wake → Option (Option ι) →
    SupervisorSystem ι → Prop
  | nobody (woken : Option (Option ι)) : Woken system .nobody woken system
  | one {sleeper : Option ι} : system.asleep sleeper = true →
      Woken system .one (some sleeper) (system.wakeOne sleeper)
  | lost : (∀ sleeper, system.asleep sleeper = false) → Woken system .one none system
  | everybody (woken : Option (Option ι)) : Woken system .everybody woken system.wakeAll

/-- The system with the supervisor behind a section. -/
def put (system : SupervisorSystem ι) (supervisor : Supervisor) : SupervisorSystem ι :=
  { system with supervisor }

/-- A wait of a client that evaluates its condition: it sleeps on or leaves. -/
def evaluate (system : SupervisorSystem ι) (client : ι) : ClientPhase → SupervisorSystem ι
  | .readyWait _ =>
      system.move client
        (if system.supervisor.state = .starting ∨ system.supervisor.state = .recovering then
          .readyWait true
        else .idle)
  | .ticketWait sequence _ =>
      system.move client
        (if ((system.supervisor.tickets sequence).map Ticket.completed).getD true then .idle
        else .ticketWait sequence true)
  | .joinWait _ =>
      system.move client (if system.supervisor.mainExited then .joinThread else .joinWait true)
  | _ => system

/-- The end of a wait with an error. -/
def giveUp (system : SupervisorSystem ι) (client : ι) : ClientPhase → SupervisorSystem ι
  | .joinWait _ =>
      (system.put { system.supervisor with joining := false }).move client .idle
  | _ => system.move client .idle

/-- One step of the system. -/
inductive Step (system : SupervisorSystem ι) : SupervisorAction ι → SupervisorSystem ι → Prop
  | start {client : ι} : system.clients client = .idle →
      system.supervisor.startSection.status = 0 →
      Step system (.start client)
        ((system.put system.supervisor.startSection.supervisor).move client .creating)
  | createThread {client : ι} : system.clients client = .creating →
      Step system (.createThread client)
        { system.move client .created with main := .awaiting false }
  | startFailed {client : ι} {status : Status} : system.clients client = .creating →
      status ≠ 0 →
      Step system (.startFailed client status)
        ((system.put (system.supervisor.startFailed status).supervisor).move client .idle).wakeAll
  | startThread {client : ι} : system.clients client = .created →
      Step system (.startThread client)
        ((system.put system.supervisor.startThread.supervisor).wakeAll.evaluate client
          (.readyWait false))
  | submit {generation : ℕ} {kind : ControlKind} {payload : ℕ} {wake : Status} {memory : Bool}
      {woken : Option (Option ι)} {after : SupervisorSystem ι} :
      Woken (system.put
          (system.supervisor.submit generation kind payload wake memory).supervisor)
        (system.supervisor.submit generation kind payload wake memory).wake woken after →
      Step system (.submit generation kind payload wake memory woken) after
  | requestShutdown {generation : ℕ} {mode : ShutdownMode} {wake : Status} {memory : Bool}
      {after : SupervisorSystem ι} :
      Woken (system.put
          (system.supervisor.requestShutdown generation mode wake memory).supervisor)
        (system.supervisor.requestShutdown generation mode wake memory).wake none after →
      Step system (.requestShutdown generation mode wake memory) after
  | ticketWait {client : ι} {sequence : ℕ} : system.clients client = .idle →
      (system.supervisor.tickets sequence).isSome = true →
      Step system (.ticketWait client sequence)
        (system.evaluate client (.ticketWait sequence false))
  | ticketDestroy {sequence : ℕ} :
      (∀ client asleep, system.clients client ≠ .ticketWait sequence asleep) →
      Step system (.ticketDestroy sequence)
        (system.put (system.supervisor.ticketDestroy sequence).supervisor)
  | fail {status : Status} {processRestartRequired : Bool} {after : SupervisorSystem ι} :
      Woken (system.put (system.supervisor.fail status processRestartRequired).supervisor)
        (system.supervisor.fail status processRestartRequired).wake none after →
      Step system (.fail status processRestartRequired) after
  | join {client : ι} {waited : Supervisor} : system.clients client = .idle →
      system.supervisor.joinSection = .ok waited →
      Step system (.join client) ((system.put waited).evaluate client (.joinWait false))
  | joined {client : ι} {status : Status} : system.clients client = .joinThread →
      Step system (.joined client status)
        ((system.put (system.supervisor.joinDone status).supervisor).move client .idle)
  | awake {client : ι} : (system.clients client).waits = true →
      (system.clients client).asleep = false →
      Step system (.awake client) (system.evaluate client (system.clients client))
  | timeout {client : ι} : (system.clients client).waits = true →
      Step system (.timeout client) (system.giveUp client (system.clients client))
  | spurious {sleeper : Option ι} : system.asleep sleeper = true →
      Step system (.spurious sleeper) (system.wakeOne sleeper)
  | markRecovering {after : SupervisorSystem ι} : system.main.inCallback = true →
      Woken (system.put system.supervisor.markRecovering.supervisor)
        system.supervisor.markRecovering.wake none after →
      Step system .markRecovering after
  | markReady {after : SupervisorSystem ι} : system.main.inCallback = true →
      system.supervisor.callbacks.run = true →
      Woken (system.put system.supervisor.markReady.supervisor)
        system.supervisor.markReady.wake none after →
      Step system .markReady after
  | controlTake {after : SupervisorSystem ι} : system.main.inCallback = true →
      system.supervisor.callbacks.run = true →
      Woken (system.put system.supervisor.controlTake.supervisor)
        system.supervisor.controlTake.wake none after →
      Step system .controlTake after
  | controlComplete {sequence : ℕ} {status : Status} {after : SupervisorSystem ι} :
      system.main.inCallback = true → system.supervisor.callbacks.run = true →
      Woken (system.put (system.supervisor.controlComplete sequence status).supervisor)
        (system.supervisor.controlComplete sequence status).wake none after →
      Step system (.controlComplete sequence status) after
  -- A section of the thread broadcasts before the thread sleeps itself.
  | main {status : Status} {next : MainSection} {after : SupervisorSystem ι} :
      system.supervisor.mainSection status system.main = some next →
      Woken (system.put next.supervisor) next.wake none after →
      Step system (.main status) { after with main := next.phase }

/-- The systems that the steps lead to from a new supervisor. -/
inductive Reachable (options : SupervisorOptions) : SupervisorSystem ι → Prop
  | init {supervisor : Supervisor} : Supervisor.create options = .ok supervisor →
      Reachable options (init supervisor)
  | step {system after : SupervisorSystem ι} {action : SupervisorAction ι} :
      Reachable options system → Step system action after → Reachable options after

end SupervisorSystem
end Postgamma.Embedded
