import Mathlib
import Postgamma.Library.Program
import Postgamma.Library.TwosComplement
import Postgamma.Runtime.DeadlineHeap
import Postgamma.Runtime.Registry

/-!
# The alarm service

The alarms of the backend slots, with `alarm_owner_main`, `postgamma_backend_set_alarm` and the
parts of a slot's life that touch its alarm.  A critical section of the registry is one step; the
owner's section reaches from the end of its wait to the next wait.  The executions of a slot are
numbered, so that an alarm and a pending signal can be traced to the execution that armed them.
-/

namespace Postgamma.Runtime

/-- The functions whose `abort()` calls are modelled. -/
inductive AlarmAbort where
  | deadlineSet
  | alarmOwnerMain
  | wakeBackendSlot
  | completeBackendExecution
  deriving DecidableEq

/-- What a `PostgammaBackendSlot` has of its alarm beside the heap entry. -/
structure AlarmSlot where
  state : SlotState
  generation : ℕ
  intervalNs : ℕ
  /-- The `SIGALRM` bit of the pending signals. -/
  pending : Bool
  /-- Executions that were launched in the slot. -/
  execution : ℕ
  /-- The execution that armed the alarm. -/
  armedBy : ℕ
  /-- The execution that armed the alarm behind the pending bit. -/
  pendingOf : ℕ

/-- A published `SIGALRM`: its slot, the execution in it and the execution that armed the alarm. -/
structure Publication (capacity : ℕ) where
  index : Fin capacity
  execution : ℕ
  armedBy : ℕ

/-- The alarm part of a `PostgammaBackendRegistry` and its owner. -/
structure AlarmService (capacity : ℕ) where
  slots : Fin capacity → AlarmSlot
  alarms : DeadlineHeap (Fin capacity)
  waitDeadline : ℕ
  /-- The owner waits on the alarm condition. -/
  asleep : Bool
  /-- The condition was signalled in the present wait. -/
  signalled : Bool
  published : List (Publication capacity)

namespace AlarmService

variable {capacity : ℕ}

/-- The service that `postgamma_backend_registry_create_with_provider` publishes. -/
def create [NeZero capacity] : AlarmService capacity :=
  { slots := fun _ =>
      { state := .free, generation := 0, intervalNs := 0, pending := false, execution := 0
        armedBy := 0, pendingOf := 0 }
    alarms :=
      { entries := fun _ => 0, count := 0, capacity := capacity, dueAt := fun _ => 0
        position := fun _ => 0 }
    waitDeadline := uint64Max
    asleep := false
    signalled := false
    published := [] }

def setSlot (service : AlarmService capacity) (index : Fin capacity) (slot : AlarmSlot) :
    AlarmService capacity :=
  { service with slots := Function.update service.slots index slot }

/-- `slot->alarm.at = 0` outside of the heap, with the other fields that a launch and a join reset. -/
def reset (service : AlarmService capacity) (index : Fin capacity) (slot : AlarmSlot) :
    AlarmService capacity :=
  { service.setSlot index { slot with pending := false, intervalNs := 0 } with
    alarms :=
      { service.alarms with dueAt := Function.update service.alarms.dueAt index 0 } }

/-- The slot part of `postgamma_backend_launch`. -/
def launch (service : AlarmService capacity) (index : Fin capacity) (state : SlotState) :
    AlarmService capacity :=
  let slot := service.slots index
  service.reset index
    { slot with
      state := state
      generation := Registry.followingGeneration slot.generation
      execution := slot.execution + 1 }

/-- `postgamma_condition_signal` of the alarm condition. -/
def signal (service : AlarmService capacity) : AlarmService capacity :=
  { service with signalled := service.signalled || service.asleep }

/-- The alarm of a slot is set together with its interval. -/
def arm (service : AlarmService capacity) (index : Fin capacity) (deadline interval armedBy : ℕ) :
    Except AlarmAbort (AlarmService capacity) :=
  match service.alarms.set index deadline with
  | none => .error .deadlineSet
  | some alarms =>
      .ok
        { service.setSlot index
            { service.slots index with intervalNs := interval, armedBy := armedBy } with
          alarms := alarms }

/-- `postgamma_backend_set_alarm` behind its lookups; `signals` is the outcome of the condition
signal. -/
def setAlarm (service : AlarmService capacity) (index : Fin capacity) (generation : ℕ)
    (deadlineNs intervalNs : ℕ) (signals : Bool) :
    Except AlarmAbort (AlarmService capacity × Option Errno) :=
  let slot := service.slots index
  if slot.generation ≠ generation ∨ slot.state ≠ .running then .ok (service, some .ESTALE)
  else do
    let previousDeadline := service.alarms.dueAt index
    let armed ← service.arm index deadlineNs intervalNs slot.execution
    if deadlineNs ≠ 0 ∧ deadlineNs < armed.waitDeadline then
      if signals = true then .ok (armed.signal, none)
      else
        let restored ← armed.arm index previousDeadline slot.intervalNs slot.armedBy
        .ok (restored, some .EINVAL)
    else .ok (armed, none)

/-- The alarm part of `complete_backend_execution`. -/
def complete (service : AlarmService capacity) (index : Fin capacity) :
    Except AlarmAbort (AlarmService capacity) :=
  if (service.slots index).state ≠ .running then .error .completeBackendExecution
  else
    match service.alarms.set index 0 with
    | none => .error .deadlineSet
    | some alarms =>
        .ok
          { service.setSlot index { service.slots index with state := .completed } with
            alarms := alarms }

/-- The deadline that `alarm_owner_main` gives an alarm behind its signal, in `uint64_t`. -/
def following (now due interval : ℕ) : ℕ :=
  if interval = 0 then 0
  else
    let periods := (now + 2 ^ 64 - due) % 2 ^ 64 / interval
    if periods < uint64Max ∧
        (periods + 1) % 2 ^ 64 ≤ (uint64Max + 2 ^ 64 - due) % 2 ^ 64 / interval then
      (due + (periods + 1) % 2 ^ 64 * interval % 2 ^ 64) % 2 ^ 64
    else 0

/-- `publish_pending_signals` with `SIGALRM`. -/
def publish (service : AlarmService capacity) (index : Fin capacity) : AlarmService capacity :=
  let slot := service.slots index
  { service.setSlot index { slot with pending := true, pendingOf := slot.armedBy } with
    published :=
      { index := index, execution := slot.execution, armedBy := slot.armedBy } ::
        service.published }

/-- The inner loop of `alarm_owner_main`, with the deadline of the next wait; `none` has not come to
its end.  `wakes` is the outcome of `wake_backend_slot` for each slot. -/
def passLoop (now : ℕ) (wakes : Fin capacity → Bool) :
    ℕ → AlarmService capacity → Except AlarmAbort (Option (AlarmService capacity × ℕ))
  | 0, _ => .ok none
  | fuel + 1, service =>
      if service.alarms.count = 0 then .ok (some (service, uint64Max))
      else
        let index := service.alarms.entries 0
        let due := service.alarms.dueAt index
        if (service.slots index).state ≠ .running then .error .alarmOwnerMain
        else if now < due then .ok (some (service, due))
        else
          match service.alarms.set index (following now due (service.slots index).intervalNs) with
          | none => .error .deadlineSet
          | some alarms =>
              if wakes index = true then
                passLoop now wakes fuel ({ service with alarms := alarms }.publish index)
              else .error .wakeBackendSlot

/-- A turn of the outer loop of `alarm_owner_main`, up to its wait. -/
def pass (service : AlarmService capacity) (now : ℕ) (wakes : Fin capacity → Bool) :
    Except AlarmAbort (Option (AlarmService capacity)) := do
  match ← passLoop now wakes (capacity + 1) service with
  | none => .ok none
  | some (after, next) =>
      .ok (some { after with waitDeadline := next, asleep := true, signalled := false })

end AlarmService

/-- What can happen to the alarm service. -/
inductive AlarmAction (capacity : ℕ) where
  /-- A launch, with the state that the provider's part leaves its slot in. -/
  | launch (index : Fin capacity) (pooled : Bool)
  /-- A launch whose thread could not be created. -/
  | abandon (index : Fin capacity)
  /-- The thread of a slot is published. -/
  | begin (index : Fin capacity)
  | setAlarm (index : Fin capacity) (generation : ℕ) (deadlineNs intervalNs : UInt64)
      (signals : Bool)
  /-- `postgamma_backend_take_pending_signals`. -/
  | takeSignals (index : Fin capacity)
  | complete (index : Fin capacity)
  /-- `postgamma_backend_completion_pop`. -/
  | pop (index : Fin capacity)
  /-- The claim and the release of `postgamma_backend_completion_join`. -/
  | joinClaim (index : Fin capacity)
  | joinRelease (index : Fin capacity)
  /-- The owner's wait ends, by a signal, at its deadline or for no reason. -/
  | stir
  | pass (now : UInt64) (wakes : Fin capacity → Bool)

namespace AlarmService

variable {capacity : ℕ}

/-- A slot changes its state. -/
def become (service : AlarmService capacity) (index : Fin capacity) (old new : SlotState) :
    Option (AlarmService capacity) :=
  if (service.slots index).state = old then
    some (service.setSlot index { service.slots index with state := new })
  else none

/-- One step of the alarm service. -/
def step (service : AlarmService capacity) :
    AlarmAction capacity → Except AlarmAbort (Option (AlarmService capacity))
  | .launch index pooled =>
      if (service.slots index).state = .free then
        .ok (some (service.launch index (if pooled then .running else .starting)))
      else .ok none
  | .abandon index => .ok (service.become index .starting .free)
  | .begin index => .ok (service.become index .starting .running)
  | .setAlarm index generation deadlineNs intervalNs signals => do
      let (service, _) ←
        service.setAlarm index generation deadlineNs.toNat intervalNs.toNat signals
      .ok (some service)
  | .takeSignals index =>
      .ok (some (service.setSlot index { service.slots index with pending := false }))
  | .complete index =>
      if (service.slots index).state = .running then do
        let service ← service.complete index
        .ok (some service)
      else .ok none
  | .pop index => .ok (service.become index .completed .dequeued)
  | .joinClaim index => .ok (service.become index .dequeued .joining)
  | .joinRelease index =>
      if (service.slots index).state = .joining then
        .ok (some (service.reset index { service.slots index with state := .free }))
      else .ok none
  | .stir => .ok (some { service with asleep := false, signalled := false })
  | .pass now wakes => if service.asleep = true then .ok none else service.pass now.toNat wakes

/-- The service behind some actions, from the registry's creation on. -/
def Reached [NeZero capacity] (service : AlarmService capacity) : Prop :=
  ∃ actions, runs step create actions = some service

end AlarmService

end Postgamma.Runtime
