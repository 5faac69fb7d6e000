import Mathlib

/-!
# Pending signals and the pause request of a backend slot

The interrupt state of a slot is three words that several threads change without a common lock.
Publishing writes the payload and then the summary; taking acknowledges the summary and then
drains the payload; a pause writer stores the request and then the summary, under the registry
lock.  Every atomic operation is one step here, and any number of threads interleave.
-/

namespace Postgamma.Runtime

/-- `PostgammaBackendInterruptState`. -/
structure Interrupts where
  /-- Payload: one bit for each pending signal. -/
  pendingSignals : BitVec 64
  pauseRequested : Bool
  /-- Summary observed by the executor hot paths. -/
  pendingEvents : BitVec 32
  deriving DecidableEq

namespace Interrupts

/-- `POSTGAMMA_BACKEND_EVENT_SIGNAL`. -/
def eventSignal : BitVec 32 := 1

/-- `POSTGAMMA_BACKEND_EVENT_PAUSE`. -/
def eventPause : BitVec 32 := 2

/-- The interrupt state that a launch leaves in its slot. -/
def initial : Interrupts :=
  { pendingSignals := 0, pauseRequested := false, pendingEvents := 0 }

/-- The summary word has a bit of `mask`. -/
def Raised (state : Interrupts) (mask : BitVec 32) : Prop := state.pendingEvents &&& mask ≠ 0

/-- First operation of `publish_pending_signals`. -/
def publishPayload (state : Interrupts) (signals : BitVec 64) : Interrupts :=
  { state with pendingSignals := state.pendingSignals ||| signals }

/-- Second operation of `publish_pending_signals`. -/
def publishSummary (state : Interrupts) : Interrupts :=
  { state with pendingEvents := state.pendingEvents ||| eventSignal }

/-- First operation of `take_pending_signals`. -/
def acknowledge (state : Interrupts) : Interrupts :=
  { state with pendingEvents := state.pendingEvents &&& ~~~eventSignal }

/-- Second operation of `take_pending_signals`. -/
def drain (state : Interrupts) : Interrupts := { state with pendingSignals := 0 }

/-- First operation of `set_pause_requested`. -/
def storePause (state : Interrupts) (requested : Bool) : Interrupts :=
  { state with pauseRequested := requested }

/-- Second operation of `set_pause_requested`. -/
def summarizePause (state : Interrupts) (requested : Bool) : Interrupts :=
  { state with
    pendingEvents :=
      if requested then state.pendingEvents ||| eventPause
      else state.pendingEvents &&& ~~~eventPause }

theorem eventSignal_eq_twoPow : eventSignal = BitVec.twoPow 32 0 := by decide

theorem eventPause_eq_twoPow : eventPause = BitVec.twoPow 32 1 := by decide

/-- A summary bit is raised when its position of the word is set. -/
theorem raised_twoPow_iff (state : Interrupts) {index : ℕ} (below : index < 32) :
    state.Raised (BitVec.twoPow 32 index) ↔ state.pendingEvents.getLsbD index = true := by
  rw [Raised, BitVec.and_twoPow]
  have nonzero : BitVec.twoPow 32 index ≠ 0#32 := by
    intro zero
    have bit := congrArg (fun word => word.getLsbD index) zero
    simp [below] at bit
  split_ifs with set <;> simp [set, nonzero]

theorem raised_signal_iff (state : Interrupts) :
    state.Raised eventSignal ↔ state.pendingEvents.getLsbD 0 = true := by
  rw [eventSignal_eq_twoPow, raised_twoPow_iff state (by decide)]

theorem raised_pause_iff (state : Interrupts) :
    state.Raised eventPause ↔ state.pendingEvents.getLsbD 1 = true := by
  rw [eventPause_eq_twoPow, raised_twoPow_iff state (by decide)]

theorem publishSummary_raises (state : Interrupts) : state.publishSummary.Raised eventSignal := by
  rw [raised_signal_iff]
  simp [publishSummary, eventSignal]

theorem publishSummary_raised_pause (state : Interrupts) :
    state.publishSummary.Raised eventPause ↔ state.Raised eventPause := by
  rw [raised_pause_iff, raised_pause_iff]
  simp [publishSummary, eventSignal_eq_twoPow]

/-- Acknowledging signals never touches the pause bit. -/
theorem acknowledge_raised_pause (state : Interrupts) :
    state.acknowledge.Raised eventPause ↔ state.Raised eventPause := by
  rw [raised_pause_iff, raised_pause_iff]
  simp [acknowledge, eventSignal_eq_twoPow]

theorem summarizePause_raised_signal (state : Interrupts) (requested : Bool) :
    (state.summarizePause requested).Raised eventSignal ↔ state.Raised eventSignal := by
  rw [raised_signal_iff, raised_signal_iff]
  cases requested <;> simp [summarizePause, eventPause_eq_twoPow]

theorem summarizePause_raised_pause (state : Interrupts) (requested : Bool) :
    (state.summarizePause requested).Raised eventPause ↔ requested = true := by
  rw [raised_pause_iff]
  cases requested <;> simp [summarizePause, eventPause_eq_twoPow]

end Interrupts

/-- Where a thread stands between two atomic operations of one call. -/
inductive Interrupting where
  | outside
  /-- `publish_pending_signals`: the payload is in, the summary is not. -/
  | publishing
  /-- `take_pending_signals`: the summary is acknowledged, the payload is not drained. -/
  | taking
  /-- `set_pause_requested`: the request is stored, the summary is not. -/
  | pausing (requested : Bool)
  deriving DecidableEq

/-- What publishers and takers have done so far. -/
inductive SignalEvent where
  | published (signals : BitVec 64)
  | taken (signals : BitVec 64)
  deriving DecidableEq

/-- One atomic operation of a thread; pause writers also take the registry lock. -/
inductive InterruptOperation where
  | lock
  | unlock
  | publishPayload (signals : BitVec 64)
  | publishSummary
  | acknowledge
  | drain
  | storePause (requested : Bool)
  | summarizePause
  deriving DecidableEq

/-- The interrupt state of one slot with the threads that work on it. -/
structure InterruptSystem (Thread : Type) where
  interrupts : Interrupts
  activity : Thread → Interrupting
  /-- Thread holding the registry lock. -/
  owner : Option Thread
  history : List SignalEvent

namespace InterruptSystem

open Interrupts

variable {Thread : Type} [DecidableEq Thread]

/-- A launched slot before any thread has touched it. -/
def start : InterruptSystem Thread :=
  { interrupts := initial
    activity := fun _ => .outside
    owner := none
    history := [] }

/-- Change the interrupt state and the activity of one thread. -/
def moved (system : InterruptSystem Thread) (thread : Thread) (interrupts : Interrupts)
    (activity : Interrupting) : InterruptSystem Thread :=
  { system with
    interrupts := interrupts
    activity := Function.update system.activity thread activity }

/-- Execute one atomic operation of a thread, or refuse it where its call is not there. -/
def next (system : InterruptSystem Thread) (thread : Thread) :
    InterruptOperation → Option (InterruptSystem Thread)
  | .lock => if system.owner = none then some { system with owner := some thread } else none
  | .unlock =>
      if system.owner = some thread ∧ system.activity thread = .outside then
        some { system with owner := none }
      else none
  | .publishPayload signals =>
      if system.activity thread = .outside then
        some
          { system.moved thread (system.interrupts.publishPayload signals) .publishing with
            history := system.history ++ [.published signals] }
      else none
  | .publishSummary =>
      if system.activity thread = .publishing then
        some (system.moved thread system.interrupts.publishSummary .outside)
      else none
  | .acknowledge =>
      if system.activity thread = .outside then
        some (system.moved thread system.interrupts.acknowledge .taking)
      else none
  | .drain =>
      if system.activity thread = .taking then
        some
          { system.moved thread system.interrupts.drain .outside with
            history := system.history ++ [.taken system.interrupts.pendingSignals] }
      else none
  | .storePause requested =>
      if system.owner = some thread ∧ system.activity thread = .outside then
        some (system.moved thread (system.interrupts.storePause requested) (.pausing requested))
      else none
  | .summarizePause =>
      match system.activity thread with
      | .pausing requested =>
          some (system.moved thread (system.interrupts.summarizePause requested) .outside)
      | _ => none

/-- One step of any thread. -/
def Step (before after : InterruptSystem Thread) : Prop :=
  ∃ thread operation, before.next thread operation = some after

/-- States that some interleaving reaches from a launched slot. -/
def Reachable (system : InterruptSystem Thread) : Prop :=
  Relation.ReflTransGen Step start system

/-- Some thread is between the two operations of a call. -/
def Amid (system : InterruptSystem Thread) (activity : Interrupting) : Prop :=
  ∃ thread, system.activity thread = activity

/-- Every earlier publication is still pending or was handed out after it. -/
def Delivered (signals : BitVec 64) (history : List SignalEvent) : Prop :=
  ∀ earlier published later, history = earlier ++ .published published :: later →
    ∀ index, published.getLsbD index = true →
      signals.getLsbD index = true ∨
        ∃ taken, SignalEvent.taken taken ∈ later ∧ taken.getLsbD index = true

/-- What holds between any two atomic operations. -/
structure Consistent (system : InterruptSystem Thread) : Prop where
  announced : system.interrupts.pendingSignals ≠ 0 →
    system.interrupts.Raised eventSignal ∨ system.Amid .publishing ∨ system.Amid .taking
  delivered : Delivered system.interrupts.pendingSignals system.history
  written : ∀ thread requested, system.activity thread = .pausing requested →
    system.owner = some thread ∧ system.interrupts.pauseRequested = requested
  paused : (system.interrupts.Raised eventPause ↔ system.interrupts.pauseRequested = true) ∨
    ∃ requested, system.Amid (.pausing requested)

omit [DecidableEq Thread] in
theorem start_consistent : (start : InterruptSystem Thread).Consistent where
  announced nonzero := absurd rfl nonzero
  delivered := by
    intro earlier published later history
    simp [start] at history
  written := by
    intro thread requested pausing
    simp [start] at pausing
  paused := Or.inl (by simp [start, initial, Raised])

variable {system : InterruptSystem Thread}

/-- A thread that leaves one place cannot have been the one standing at another. -/
theorem Amid.moved {activity : Interrupting}
    (amid : system.Amid activity) {thread : Thread} (elsewhere : system.activity thread ≠ activity)
    (interrupts : Interrupts) (arrived : Interrupting) :
    (system.moved thread interrupts arrived).Amid activity := by
  obtain ⟨other, standing⟩ := amid
  have apart : other ≠ thread := by
    rintro rfl
    exact elsewhere standing
  exact ⟨other, by simpa [InterruptSystem.moved, apart] using standing⟩

theorem amid_moved (system : InterruptSystem Thread) (thread : Thread) (interrupts : Interrupts)
    (arrived : Interrupting) : (system.moved thread interrupts arrived).Amid arrived :=
  ⟨thread, by simp [moved]⟩

theorem Delivered.publish {signals : BitVec 64} {history : List SignalEvent}
    (delivered : Delivered signals history) (published : BitVec 64) :
    Delivered (signals ||| published) (history ++ [.published published]) := by
  intro earlier found later split index bit
  rcases List.eq_nil_or_concat later with rfl | ⟨later, last, rfl⟩
  · obtain ⟨-, same⟩ := List.append_inj' split rfl
    obtain rfl : published = found := by simpa using same
    exact Or.inl (by simp [BitVec.getLsbD_or, bit])
  · obtain ⟨before, -⟩ := List.append_inj' (split.trans (by simp :
      _ = (earlier ++ .published found :: later) ++ [last])) rfl
    rcases delivered earlier found later before index bit with still | ⟨taken, member, has⟩
    · exact Or.inl (by simp [BitVec.getLsbD_or, still])
    · exact Or.inr ⟨taken, by simp [member], has⟩

theorem Delivered.take {signals : BitVec 64} {history : List SignalEvent}
    (delivered : Delivered signals history) :
    Delivered 0 (history ++ [.taken signals]) := by
  intro earlier found later split index bit
  rcases List.eq_nil_or_concat later with rfl | ⟨later, last, rfl⟩
  · obtain ⟨-, same⟩ := List.append_inj' split rfl
    simp at same
  · obtain ⟨before, same⟩ := List.append_inj' (split.trans (by simp :
      _ = (earlier ++ .published found :: later) ++ [last])) rfl
    obtain rfl : last = .taken signals := by simpa using same.symm
    rcases delivered earlier found later before index bit with still | ⟨taken, member, has⟩
    · exact Or.inr ⟨signals, by simp, still⟩
    · exact Or.inr ⟨taken, by simp [member], has⟩

/-- A pause writer that is not the moving thread keeps what it has written. -/
theorem Consistent.written_moved (consistent : system.Consistent)
    {thread : Thread} {interrupts : Interrupts} {arrived : Interrupting}
    (kept : interrupts.pauseRequested = system.interrupts.pauseRequested)
    (unpaused : ∀ requested, arrived ≠ .pausing requested) :
    ∀ other requested, (system.moved thread interrupts arrived).activity other = .pausing requested →
      system.owner = some other ∧ interrupts.pauseRequested = requested := by
  intro other requested pausing
  by_cases same : other = thread
  · subst same
    exact absurd (by simpa [moved] using pausing) (unpaused requested)
  · rw [kept]
    exact consistent.written other requested (by simpa [moved, same] using pausing)

/-- The pause bit agrees with the request as before when neither of them changes. -/
theorem Consistent.paused_moved (consistent : system.Consistent)
    {thread : Thread} {interrupts : Interrupts} {arrived : Interrupting}
    (kept : interrupts.pauseRequested = system.interrupts.pauseRequested)
    (raised : interrupts.Raised eventPause ↔ system.interrupts.Raised eventPause)
    (unpaused : ∀ requested, system.activity thread ≠ .pausing requested) :
    (interrupts.Raised eventPause ↔ interrupts.pauseRequested = true) ∨
      ∃ requested, (system.moved thread interrupts arrived).Amid (.pausing requested) := by
  rcases consistent.paused with agree | ⟨requested, amid⟩
  · exact Or.inl (by rw [raised, kept, agree])
  · exact Or.inr ⟨requested, amid.moved (unpaused requested) interrupts arrived⟩

theorem next_consistent {before after : InterruptSystem Thread} (consistent : before.Consistent)
    {thread : Thread} {operation : InterruptOperation}
    (stepped : before.next thread operation = some after) : after.Consistent := by
  cases operation with
  | lock =>
      simp only [next, Option.ite_none_right_eq_some, Option.some.injEq] at stepped
      obtain ⟨unowned, rfl⟩ := stepped
      refine ⟨consistent.announced, consistent.delivered, ?_, consistent.paused⟩
      intro other requested pausing
      have owned := (consistent.written other requested pausing).1
      simp [unowned] at owned
  | unlock =>
      simp only [next, Option.ite_none_right_eq_some, Option.some.injEq] at stepped
      obtain ⟨⟨owned, outside⟩, rfl⟩ := stepped
      refine ⟨consistent.announced, consistent.delivered, ?_, consistent.paused⟩
      intro other requested pausing
      have owner := (consistent.written other requested pausing).1
      -- the writer would be the unlocking thread, which is outside its call
      obtain rfl : thread = other := by simpa [owned] using owner
      simp [outside] at pausing
  | publishPayload signals =>
      simp only [next, Option.ite_none_right_eq_some, Option.some.injEq] at stepped
      obtain ⟨outside, rfl⟩ := stepped
      constructor
      · intro _
        exact Or.inr (Or.inl (before.amid_moved thread (before.interrupts.publishPayload signals) _))
      · exact consistent.delivered.publish signals
      · exact consistent.written_moved rfl (by simp)
      · exact consistent.paused_moved rfl Iff.rfl (by simp [outside])
  | publishSummary =>
      simp only [next, Option.ite_none_right_eq_some, Option.some.injEq] at stepped
      obtain ⟨publishing, rfl⟩ := stepped
      constructor
      · intro _
        exact Or.inl (publishSummary_raises _)
      · exact consistent.delivered
      · exact consistent.written_moved rfl (by simp)
      · exact consistent.paused_moved rfl (publishSummary_raised_pause _) (by simp [publishing])
  | acknowledge =>
      simp only [next, Option.ite_none_right_eq_some, Option.some.injEq] at stepped
      obtain ⟨outside, rfl⟩ := stepped
      constructor
      · intro _
        exact Or.inr (Or.inr (before.amid_moved thread _ _))
      · exact consistent.delivered
      · exact consistent.written_moved rfl (by simp)
      · exact consistent.paused_moved rfl (acknowledge_raised_pause _) (by simp [outside])
  | drain =>
      simp only [next, Option.ite_none_right_eq_some, Option.some.injEq] at stepped
      obtain ⟨taking, rfl⟩ := stepped
      constructor
      · intro nonzero
        exact absurd rfl nonzero
      · exact consistent.delivered.take
      · exact consistent.written_moved rfl (by simp)
      · exact consistent.paused_moved rfl Iff.rfl (by simp [taking])
  | storePause requested =>
      simp only [next, Option.ite_none_right_eq_some, Option.some.injEq] at stepped
      obtain ⟨⟨owned, outside⟩, rfl⟩ := stepped
      constructor
      · intro nonzero
        rcases consistent.announced nonzero with raised | amid | amid
        · exact Or.inl raised
        · exact Or.inr (Or.inl (amid.moved (by simp [outside]) _ _))
        · exact Or.inr (Or.inr (amid.moved (by simp [outside]) _ _))
      · exact consistent.delivered
      · intro other found pausing
        by_cases same : other = thread
        · subst same
          obtain rfl : requested = found := by simpa [moved] using pausing
          exact ⟨owned, rfl⟩
        · -- a second writer would own the lock as well
          have owner := (consistent.written other found (by simpa [moved, same] using pausing)).1
          exact absurd (by simpa [owned] using owner.symm) same
      · exact Or.inr ⟨requested, before.amid_moved thread _ _⟩
  | summarizePause =>
      simp only [next] at stepped
      split at stepped
      · rename_i requested pausing
        obtain rfl := Option.some.inj stepped
        obtain ⟨-, stored⟩ := consistent.written thread requested pausing
        constructor
        · intro nonzero
          rcases consistent.announced nonzero with raised | amid | amid
          · exact Or.inl ((summarizePause_raised_signal _ _).mpr raised)
          · exact Or.inr (Or.inl (amid.moved (by simp [pausing]) _ _))
          · exact Or.inr (Or.inr (amid.moved (by simp [pausing]) _ _))
        · exact consistent.delivered
        · exact consistent.written_moved rfl (by simp)
        · refine Or.inl ((summarizePause_raised_pause _ _).trans ?_)
          simp [moved, summarizePause, stored]
      · simp at stepped

theorem Reachable.consistent (reachable : system.Reachable) : system.Consistent := by
  induction reachable with
  | refl => exact start_consistent
  | tail _ step induction =>
      obtain ⟨thread, operation, stepped⟩ := step
      exact next_consistent induction stepped

/-- In every interleaving: pending signals are announced between calls, every published signal is
handed out by a later take or still pending, and the pause bit is the pause request whenever no
writer is amid its call, whatever takers do. -/
theorem signals_never_lost {system : InterruptSystem Thread} (reachable : system.Reachable) :
    (¬ system.Amid .publishing → ¬ system.Amid .taking →
        system.interrupts.pendingSignals ≠ 0 → system.interrupts.Raised eventSignal) ∧
      (∀ earlier published later,
        system.history = earlier ++ .published published :: later →
          ∀ index, published.getLsbD index = true →
            system.interrupts.pendingSignals.getLsbD index = true ∨
              ∃ taken, SignalEvent.taken taken ∈ later ∧ taken.getLsbD index = true) ∧
      ((∀ requested, ¬ system.Amid (.pausing requested)) →
        (system.interrupts.Raised eventPause ↔ system.interrupts.pauseRequested = true)) ∧
      ∀ thread operation after, operation = .acknowledge ∨ operation = .drain →
        system.next thread operation = some after →
          (after.interrupts.Raised eventPause ↔ system.interrupts.Raised eventPause) := by
  have consistent := reachable.consistent
  refine ⟨?_, consistent.delivered, ?_, ?_⟩
  · intro unpublishing untaking nonzero
    rcases consistent.announced nonzero with raised | amid | amid
    · exact raised
    · exact absurd amid unpublishing
    · exact absurd amid untaking
  · intro unpaused
    rcases consistent.paused with agree | ⟨requested, amid⟩
    · exact agree
    · exact absurd amid (unpaused requested)
  · rintro thread operation after (rfl | rfl) stepped
    · simp only [next, Option.ite_none_right_eq_some, Option.some.injEq] at stepped
      obtain ⟨-, rfl⟩ := stepped
      exact acknowledge_raised_pause _
    · simp only [next, Option.ite_none_right_eq_some, Option.some.injEq] at stepped
      obtain ⟨-, rfl⟩ := stepped
      exact Iff.rfl

/-- Publish signal three with one thread and take it with another. -/
theorem signals_never_lost_handedOver :
    ∃ system : InterruptSystem Bool,
      system.history = [.published 4, .taken 4] ∧
        (¬ system.Amid .publishing → ¬ system.Amid .taking →
          system.interrupts.pendingSignals ≠ 0 → system.interrupts.Raised eventSignal) := by
  have reachable : (start : InterruptSystem Bool).Reachable := Relation.ReflTransGen.refl
  have published := reachable.tail ⟨false, .publishPayload 4, rfl⟩
  have announced := published.tail ⟨false, .publishSummary, rfl⟩
  have acknowledged := announced.tail ⟨true, .acknowledge, rfl⟩
  have drained := acknowledged.tail ⟨true, .drain, rfl⟩
  exact ⟨_, rfl, (signals_never_lost drained).1⟩

end InterruptSystem

end Postgamma.Runtime
