import Mathlib
import Postgamma.Library.Census
import Postgamma.Library.Program

/-!
# The checkpoint trackers of an instance runtime

Threads arm, finish, observe and destroy trackers.  The arm and finish calls work on the atomic
fields of a tracker without the runtime's mutex, so each of their accesses is a step of its own, and
so is each access of the scan that an observing thread makes under the mutex.
-/

namespace Postgamma.Runtime

/-- `PostgammaCheckpointTrackerState`. -/
inductive TrackerState where
  | new
  | armed
  | terminal
  deriving DecidableEq

/-- The error codes of the tracker calls. -/
inductive TrackerError where
  | EINVAL
  | ENOENT
  | EBUSY
  | EALREADY
  | ECANCELED
  deriving DecidableEq

/-- `EIO` as an operation status. -/
def eio : ℤ := 5

/-- `PostgammaCheckpointTracker`; `live` is its magic number. -/
structure Tracker where
  live : Bool
  state : TrackerState
  baselineStarted : BitVec 32
  baselineFailed : BitVec 32
  /-- What the arm call that succeeded was given. -/
  given : Option (BitVec 32 × BitVec 32)
  deriving DecidableEq

/-- A tracker as `postgamma_instance_checkpoint_tracker_create` leaves it. -/
def Tracker.created : Tracker :=
  { live := true, state := .new, baselineStarted := 0, baselineFailed := 0, given := none }

/-- `(int32_t) ((uint32_t) checkpoint_done - (uint32_t) baseline_started) > 0`. -/
def advanced (done started : BitVec 32) : Bool := 0 < (done - started).toInt

/-- A call of `postgamma_instance_checkpoint_observe`, with the armed trackers that the counters had
passed when it was made. -/
structure Observation where
  done : BitVec 32
  failed : BitVec 32
  due : List ℕ
  deriving DecidableEq

/-- Where a thread is. -/
inductive TrackerPhase where
  | idle
  /-- Arming: the store of the first baseline comes next. -/
  | storingStarted (id : ℕ) (started failed : BitVec 32)
  /-- Arming: the store of the second baseline comes next; `changed` says whether the call has
  changed a baseline. -/
  | storingFailed (id : ℕ) (started failed : BitVec 32) (changed : Bool)
  /-- Arming: the exchange of the state comes next. -/
  | arming (id : ℕ) (started failed : BitVec 32) (changed : Bool)
  /-- Finishing: the load of the state comes next. -/
  | finishing (id : ℕ) (status : ℤ) (observation : Option Observation)
  /-- Finishing: the exchange of the state comes next. -/
  | swapping (id : ℕ) (status : ℤ) (observation : Option Observation) (expected : TrackerState)
  /-- Finishing: the call of the completion comes next. -/
  | completing (id : ℕ) (status : ℤ) (observation : Option Observation)
  /-- Observing: the mutex comes next. -/
  | locking (observation : Observation)
  /-- Observing: the scan has come to the rest of the list. -/
  | scanning (observation : Observation) (rest : List ℕ)
  /-- Observing: an armed tracker was read; its first baseline comes next. -/
  | comparing (observation : Observation) (id : ℕ) (rest : List ℕ)
  /-- Observing: the counters have passed the tracker; its second baseline comes next. -/
  | judging (observation : Observation) (id : ℕ)
  /-- Observing: the candidate is chosen; the unlock comes next. -/
  | picked (observation : Observation) (id : ℕ) (status : ℤ)
  /-- Destroying: the state was not armed; the list comes next. -/
  | destroying (id : ℕ)
  /-- Destroying: the tracker has left the list. -/
  | freeing (id : ℕ)
  deriving DecidableEq

/-- A call of a completion function. -/
structure TrackerCompletion where
  id : ℕ
  status : ℤ
  observation : Option Observation
  deriving DecidableEq

/-- The trackers, the list behind `checkpoint_trackers` and the threads. -/
structure TrackerSystem (threads : ℕ) where
  tracker : ℕ → Tracker
  created : ℕ
  list : List ℕ
  mutex : Option (Fin threads)
  phase : Fin threads → TrackerPhase
  /-- What the last call of the thread returned. -/
  result : Fin threads → Option TrackerError
  completions : List TrackerCompletion

/-- A call, or the next step of the call that a thread is in. -/
inductive TrackerAction (threads : ℕ) where
  | create (thread : Fin threads)
  | arm (thread : Fin threads) (id : ℕ) (started failed : BitVec 32)
  | finish (thread : Fin threads) (id : ℕ) (status : ℤ)
  | observe (thread : Fin threads) (done failed : BitVec 32)
  | destroy (thread : Fin threads) (id : ℕ)
  /-- `spurious` is a weak exchange that fails for no reason. -/
  | advance (thread : Fin threads) (spurious : Bool)
  deriving DecidableEq

namespace TrackerSystem

variable {threads : ℕ}

/-- A runtime without trackers. -/
def init : TrackerSystem threads :=
  { tracker := fun _ => { Tracker.created with live := false }, created := 0, list := []
    mutex := none, phase := fun _ => .idle, result := fun _ => none, completions := [] }

def move (system : TrackerSystem threads) (thread : Fin threads) (phase : TrackerPhase) :
    TrackerSystem threads :=
  { system with phase := Function.update system.phase thread phase }

/-- A call returns. -/
def answer (system : TrackerSystem threads) (thread : Fin threads)
    (result : Option TrackerError) : TrackerSystem threads :=
  { system.move thread .idle with result := Function.update system.result thread result }

/-- An access changes a tracker. -/
def edit (system : TrackerSystem threads) (id : ℕ) (tracker : Tracker) : TrackerSystem threads :=
  { system with tracker := Function.update system.tracker id tracker }

/-- The end of `postgamma_instance_checkpoint_tracker_finish`: the caller returns, or the observer
scans again. -/
def resume (system : TrackerSystem threads) (thread : Fin threads) (result : Option TrackerError) :
    Option Observation → TrackerSystem threads
  | none => system.answer thread result
  | some observation => system.move thread (.locking observation)

/-- The armed trackers on the list whose baseline the counter has passed. -/
def dueAt (system : TrackerSystem threads) (done : BitVec 32) : List ℕ :=
  system.list.filter fun id =>
    (system.tracker id).state = .armed &&
      ((system.tracker id).given.map fun given => advanced done given.1) = some true

/-- The next step of the call that a thread is in. -/
def advance (system : TrackerSystem threads) (thread : Fin threads) (spurious : Bool) :
    TrackerPhase → Option (TrackerSystem threads)
  | .idle => none
  | .storingStarted id started failed =>
      let tracker := system.tracker id
      some ((system.edit id { tracker with baselineStarted := started }).move thread
        (.storingFailed id started failed (tracker.baselineStarted != started)))
  | .storingFailed id started failed changed =>
      let tracker := system.tracker id
      some ((system.edit id { tracker with baselineFailed := failed }).move thread
        (.arming id started failed (changed || tracker.baselineFailed != failed)))
  | .arming id started failed _ =>
      let tracker := system.tracker id
      match tracker.state with
      | .new =>
          some ((system.edit id
            { tracker with state := .armed, given := some (started, failed) }).answer thread none)
      | .terminal => some (system.answer thread (some .ECANCELED))
      | .armed => some (system.answer thread (some .EALREADY))
  | .finishing id status observation =>
      some (system.move thread (.swapping id status observation (system.tracker id).state))
  | .swapping id status observation expected =>
      if expected = .terminal then some (system.resume thread (some .EALREADY) observation)
      else if (system.tracker id).state = expected ∧ spurious = false then
        some ((system.edit id { system.tracker id with state := .terminal }).move thread
          (.completing id status observation))
      else some (system.move thread (.swapping id status observation (system.tracker id).state))
  | .completing id status observation =>
      let called : TrackerCompletion := { id := id, status := status, observation := observation }
      some (resume { system with completions := system.completions ++ [called] } thread none
        observation)
  | .locking observation =>
      if system.mutex = none then
        some { system.move thread (.scanning observation system.list) with mutex := some thread }
      else none
  | .scanning _ [] => some { system.answer thread none with mutex := none }
  | .scanning observation (id :: rest) =>
      if (system.tracker id).state = .armed then
        some (system.move thread (.comparing observation id rest))
      else some (system.move thread (.scanning observation rest))
  | .comparing observation id rest =>
      if advanced observation.done (system.tracker id).baselineStarted = true then
        some (system.move thread (.judging observation id))
      else some (system.move thread (.scanning observation rest))
  | .judging observation id =>
      some (system.move thread (.picked observation id
        (if observation.failed ≠ (system.tracker id).baselineFailed then eio else 0)))
  | .picked observation id status =>
      some { system.move thread (.finishing id status (some observation)) with mutex := none }
  | .destroying id =>
      if system.mutex = none then
        if id ∈ system.list then
          some { system.move thread (.freeing id) with list := system.list.erase id }
        else some (system.answer thread (some .ENOENT))
      else none
  | .freeing id =>
      some ((system.edit id { system.tracker id with live := false }).answer thread none)

/-- One step; `none` when the thread is elsewhere or waits for the mutex.  A caller passes a tracker
that exists. -/
def step (system : TrackerSystem threads) :
    TrackerAction threads → Option (TrackerSystem threads)
  | .create thread =>
      if system.phase thread = .idle ∧ system.mutex = none then
        some
          { system.edit system.created .created with
            created := system.created + 1, list := system.created :: system.list
            result := Function.update system.result thread none }
      else none
  | .arm thread id started failed =>
      if system.phase thread = .idle ∧ (system.tracker id).live = true then
        some (system.move thread (.storingStarted id started failed))
      else none
  | .finish thread id status =>
      if system.phase thread = .idle ∧ (system.tracker id).live = true then
        some (system.move thread (.finishing id status none))
      else none
  | .observe thread done failed =>
      if system.phase thread = .idle then
        some (system.move thread
          (.locking { done := done, failed := failed, due := system.dueAt done }))
      else none
  | .destroy thread id =>
      if system.phase thread = .idle ∧ (system.tracker id).live = true then
        if (system.tracker id).state = .armed then some (system.answer thread (some .EBUSY))
        else some (system.move thread (.destroying id))
      else none
  | .advance thread spurious => system.advance thread spurious (system.phase thread)

end TrackerSystem

end Postgamma.Runtime
