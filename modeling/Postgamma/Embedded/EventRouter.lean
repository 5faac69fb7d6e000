import Mathlib
import Postgamma.Library.Ring
import Postgamma.Library.Program

/-!
# The event queue of an instance

The bounded queue of `postgamma_events.c` with its overflow counters.  A critical section of the
router is one step; a dispatch takes an event in one step and invokes its callback in another.
Every submitted event has a number of its own, so that the order of deliveries can be read off the
log of the router.
-/

namespace Postgamma.Embedded

/-- The kinds of `pgm_event_kind` that are queued. -/
inductive EventKind where
  | log
  | notice
  | notification
  deriving DecidableEq

/-- `pgm_event` of a queued kind, with the number of its submission. -/
structure Event where
  kind : EventKind
  connection : ℕ
  request : ℕ
  callback : Bool
  number : ℕ
  deriving DecidableEq

/-- What `take_event_locked` is asked for. -/
inductive EventFilter where
  /-- Every event. -/
  | all
  /-- The events with a callback of a connection, for no request or the given one. -/
  | progress (connection request : ℕ)
  deriving DecidableEq

/-- `!callbacks_only || event_matches_callback(...)`. -/
def EventFilter.admits : EventFilter → Event → Bool
  | .all, _ => true
  | .progress connection request, event =>
      event.callback && event.connection = connection &&
        (event.request = 0 || event.request = request)

/-- An event that was taken, with the filter of the take. -/
structure Delivery where
  event : Event
  filter : EventFilter
  deriving DecidableEq

/-- The queue part of `PostgammaPublicEventRouter`, with the log of what became of the events. -/
structure EventRouter where
  entries : ℕ → Event
  capacity : ℕ
  head : ℕ
  count : ℕ
  dropped : EventKind → ℕ
  reportedDropped : EventKind → ℕ
  /-- Submitted events of a kind. -/
  submitted : EventKind → ℕ
  /-- Submitted events of all kinds. -/
  numbers : ℕ
  /-- The events that were taken, the last one first. -/
  delivered : List Delivery
  /-- The overflow records that were handed out. -/
  handed : List (EventKind × ℕ)
  /-- The events that a dispatch has taken and not yet passed on. -/
  inFlight : List Event
  /-- The events whose callback was invoked, the last one first. -/
  invoked : List Event

namespace EventRouter

/-- The router that `postgamma_public_event_router_create` makes. -/
def create (capacity : ℕ) : EventRouter :=
  { entries := fun _ =>
      { kind := .log, connection := 0, request := 0, callback := false, number := 0 }
    capacity := capacity, head := 0, count := 0, dropped := fun _ => 0
    reportedDropped := fun _ => 0, submitted := fun _ => 0, numbers := 0, delivered := []
    handed := [], inFlight := [], invoked := [] }

def queue (router : EventRouter) : List Event :=
  window router.entries router.capacity router.head router.count

def recordDrop (router : EventRouter) (kind : EventKind) : EventRouter :=
  { router with dropped := Function.update router.dropped kind (router.dropped kind + 1) }

/-- `enqueue_event`; a log event does not wait for a lock that is held. -/
def enqueueEvent (router : EventRouter) (event : Event) (contended : Bool) : EventRouter :=
  if event.kind = .log ∧ contended = true then router.recordDrop event.kind
  else if router.count = router.capacity then router.recordDrop event.kind
  else
    { router with
      entries := Function.update router.entries
        ((router.head + router.count) % router.capacity) event
      count := router.count + 1 }

/-- A submission; an event whose texts do not fit is dropped. -/
def submit (router : EventRouter) (kind : EventKind) (connection request : ℕ) (callback fits : Bool)
    (contended : Bool) : EventRouter :=
  let event :=
    { kind := kind, connection := connection, request := request, callback := callback
      number := router.numbers }
  let router :=
    { router with
      submitted := Function.update router.submitted kind (router.submitted kind + 1)
      numbers := router.numbers + 1 }
  if fits = true then router.enqueueEvent event contended else router.recordDrop kind

/-- The search loop of `take_event_locked`. -/
def search (router : EventRouter) (filter : EventFilter) : ℕ → ℕ → Option ℕ
  | 0, _ => none
  | fuel + 1, offset =>
      if filter.admits (router.entries ((router.head + offset) % router.capacity)) = true then
        some offset
      else router.search filter fuel (offset + 1)

/-- The removal of `take_event_locked`. -/
def removeAt (router : EventRouter) (offset : ℕ) : EventRouter :=
  { router with
    entries :=
      shift router.capacity router.head offset (router.count - 1 - offset) router.entries
    count := router.count - 1
    head := if router.count - 1 = 0 then 0 else router.head }

/-- `take_event_locked`; `memory` is the outcome of its `malloc`. -/
def takeEvent (router : EventRouter) (filter : EventFilter) (memory : Bool) :
    EventRouter × Option Event :=
  match router.search filter router.count 0 with
  | none => (router, none)
  | some offset =>
      if memory = false then (router, none)
      else
        let event := router.entries ((router.head + offset) % router.capacity)
        ({ router.removeAt offset with
            delivered := { event := event, filter := filter } :: router.delivered }, some event)

/-- `take_overflow_locked`, over the kinds in the order of their indexes. -/
def takeOverflow (router : EventRouter) (memory : Bool) : List EventKind → EventRouter
  | [] => router
  | kind :: kinds =>
      if router.dropped kind = router.reportedDropped kind then router.takeOverflow memory kinds
      else if memory = false then router
      else
        { router with
          reportedDropped := Function.update router.reportedDropped kind (router.dropped kind)
          handed := (kind, router.dropped kind - router.reportedDropped kind) :: router.handed }

/-- `take_event_locked` and, for all events, `take_overflow_locked` behind it. -/
def take (router : EventRouter) (filter : EventFilter) (memory overflowMemory : Bool) :
    EventRouter × Option Event :=
  match router.takeEvent filter memory with
  | (router, some event) => (router, some event)
  | (router, none) =>
      if filter = .all then
        (router.takeOverflow overflowMemory [.log, .notice, .notification], none)
      else (router, none)

/-- The callback of an event is cleared. -/
def cleared (event : Event) : Event := { event with callback := false }

/-- The loops of `postgamma_public_event_forget_request` and
`postgamma_public_event_finish_connection_close` over the queue. -/
def clearLoop (router : EventRouter) (selected : Event → Bool) : ℕ → ℕ → EventRouter
  | 0, _ => router
  | fuel + 1, offset =>
      let place := (router.head + offset) % router.capacity
      let router :=
        if selected (router.entries place) = true then
          { router with
            entries := Function.update router.entries place (cleared (router.entries place)) }
        else router
      router.clearLoop selected fuel (offset + 1)

/-- `postgamma_public_event_forget_request`. -/
def forget (router : EventRouter) (request : ℕ) : EventRouter :=
  router.clearLoop (fun event => event.request = request) router.count 0

/-- `postgamma_public_event_finish_connection_close`. -/
def finishClose (router : EventRouter) (connection : ℕ) : EventRouter :=
  router.clearLoop (fun event => event.connection = connection) router.count 0

/-- `invoke_event_callback` for an event that was taken before. -/
def invoke (router : EventRouter) (event : Event) : EventRouter :=
  { router with
    inFlight := router.inFlight.erase event
    invoked := if event.callback = true then event :: router.invoked else router.invoked }

end EventRouter

/-- What can happen to the event queue. -/
inductive EventAction where
  | submit (kind : EventKind) (connection request : ℕ) (callback fits contended : Bool)
  /-- The take of `pgm_instance_next_event`. -/
  | nextEvent (memory overflowMemory : Bool)
  /-- The take of `dispatch_matching`. -/
  | dispatch (filter : EventFilter) (memory overflowMemory : Bool)
  /-- The callback of an event that a dispatch has taken. -/
  | invoke (event : Event)
  | forget (request : ℕ)
  | finishClose (connection : ℕ)

namespace EventRouter

/-- One step of the event queue. -/
def step (router : EventRouter) : EventAction → Except Empty (Option EventRouter)
  | .submit kind connection request callback fits contended =>
      .ok (some (router.submit kind connection request callback fits contended))
  | .nextEvent memory overflowMemory => .ok (some (router.take .all memory overflowMemory).1)
  | .dispatch filter memory overflowMemory =>
      match router.take filter memory overflowMemory with
      | (router, none) => .ok (some router)
      | (router, some event) => .ok (some { router with inFlight := event :: router.inFlight })
  | .invoke event => if event ∈ router.inFlight then .ok (some (router.invoke event)) else .ok none
  | .forget request => .ok (some (router.forget request))
  | .finishClose connection => .ok (some (router.finishClose connection))

/-- The router behind some actions. -/
def Reached (capacity : ℕ) (router : EventRouter) : Prop :=
  ∃ actions, runs step (create capacity) actions = some router

end EventRouter

end Postgamma.Embedded
