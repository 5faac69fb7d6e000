import Mathlib
import Postgamma.Embedded.SupervisorTickets

/-!
# The sections of a supervisor

What the state of the supervisor says about the tickets that are pending, and what the place of its
thread says about the control in flight.  Every section keeps this, in run mode and in dispatch
mode, and the sections at the exit of the thread leave no ticket behind.
-/

namespace Postgamma.Embedded

namespace Supervisor

def Shuts (supervisor : Supervisor) (sequence : ℕ) : Prop :=
  (supervisor.tickets sequence).map Ticket.kind = some .shutdown

/-- What the state says about the pending tickets: in QUIESCING the shutdown is the last one. -/
structure Staged (supervisor : Supervisor) (hand : Option ℕ) : Prop where
  early : supervisor.state.Early → supervisor.pending hand = []
  ready : supervisor.state = .ready →
    ∀ sequence ∈ supervisor.pending hand, ¬ supervisor.Shuts sequence
  quiescing : supervisor.state = .quiescing → ∃ front last,
    supervisor.pending hand = front ++ [last] ∧ supervisor.Shuts last ∧
      ∀ sequence ∈ front, ¬ supervisor.Shuts sequence
  stopping : supervisor.state = .stopping → supervisor.queued = []
  closed : supervisor.state = .closed →
    supervisor.pending hand = [] ∧ supervisor.mainExited = true

/-- A failure is recorded exactly in the failed state. -/
def Recorded (supervisor : Supervisor) : Prop :=
  supervisor.lastFailure.isSome = true ↔ supervisor.state = .failed

/-- What the place of the thread says about the supervisor. -/
def Fits (supervisor : Supervisor) : MainPhase → Prop
  | .absent => supervisor.inflight = none ∧ supervisor.mainExited = false
  | .awaiting _ => supervisor.inflight = none ∧ supervisor.mainExited = false
  | .booting =>
      (supervisor.callbacks.run = false → supervisor.inflight = none) ∧
        supervisor.mainExited = false
  | .running => supervisor.callbacks.run = true ∧ supervisor.mainExited = false
  | .waiting _ =>
      supervisor.callbacks.run = false ∧ supervisor.inflight = none ∧
        supervisor.mainExited = false
  | .dispatching sequence =>
      supervisor.callbacks.run = false ∧ supervisor.inflight = some sequence ∧
        ¬ supervisor.Shuts sequence ∧ supervisor.mainExited = false
  | .shutdownTaken sequence =>
      supervisor.callbacks.run = false ∧ supervisor.inflight = some sequence ∧
        supervisor.Shuts sequence ∧ supervisor.mainExited = false
  | .shuttingDown sequence _ =>
      supervisor.callbacks.run = false ∧ supervisor.inflight = some sequence ∧
        (supervisor.state = .stopping ∨ supervisor.state = .failed) ∧
        supervisor.mainExited = false
  | .exited =>
      supervisor.mainExited = true ∧ supervisor.pending none = [] ∧
        (supervisor.state = .closed ∨ supervisor.state = .failed)

/-- The invariant of the runs. -/
structure Sane (supervisor : Supervisor) (phase : MainPhase) : Prop where
  ledger : Ledger supervisor none
  staged : Staged supervisor none
  recorded : Recorded supervisor
  fits : Fits supervisor phase

variable {supervisor before after : Supervisor} {phase : MainPhase} {hand : Option ℕ}
  {sequence : ℕ}

/-- Nothing is asked of the pending tickets of a failed supervisor. -/
theorem Staged.of_failed (failed : supervisor.state = .failed) (hand : Option ℕ) :
    Staged supervisor hand where
  early := fun early => by
    rw [failed] at early
    exact absurd early failed_not_early
  ready := fun state => by
    rw [failed] at state
    cases state
  quiescing := fun state => by
    rw [failed] at state
    cases state
  stopping := fun state => by
    rw [failed] at state
    cases state
  closed := fun state => by
    rw [failed] at state
    cases state

/-- The tickets move without a change of state. -/
theorem Staged.congr {other : Option ℕ} (staged : Staged before hand)
    (state : after.state = before.state) (queued : before.queued = [] → after.queued = [])
    (pending : after.pending other = before.pending hand)
    (exited : after.mainExited = before.mainExited)
    (kinds : ∀ sequence ∈ before.pending hand, (after.Shuts sequence ↔ before.Shuts sequence)) :
    Staged after other where
  early := fun early => by
    rw [pending]
    exact staged.early (state ▸ early)
  ready := fun ready sequence member => by
    rw [pending] at member
    rw [kinds sequence member]
    exact staged.ready (state ▸ ready) sequence member
  quiescing := fun quiescing => by
    obtain ⟨front, last, order, shuts, calm⟩ := staged.quiescing (state ▸ quiescing)
    have inside : ∀ sequence ∈ front ++ [last], sequence ∈ before.pending hand :=
      fun sequence member => order ▸ member
    refine ⟨front, last, pending.trans order, ?_, fun sequence member => ?_⟩
    · rwa [kinds last (inside last (by simp))]
    · rw [kinds sequence (inside sequence (List.mem_append_left _ member))]
      exact calm sequence member
  stopping := fun stopping => queued (staged.stopping (state ▸ stopping))
  closed := fun closed => by
    rw [pending, exited]
    exact staged.closed (state ▸ closed)

theorem Staged.dequeue (staged : Staged before none) (ledger : Ledger before none)
    (free : before.inflight = none) (taken : before.dequeueTicket = some (sequence, after)) :
    Staged after (some sequence) := by
  obtain ⟨front, inflight⟩ := dequeueTicket_queued ledger.head taken
  obtain ⟨stands, -, tickets⟩ := dequeueTicket_stands taken
  refine staged.congr stands.state (fun empty => ?_) ?_ stands.mainExited fun other _ => ?_
  · rw [front] at empty
    cases empty
  · rw [pending, pending, inflight, free, front]
    rfl
  · rw [Shuts, Shuts, tickets]

theorem Staged.launch (staged : Staged supervisor (some sequence))
    (free : supervisor.inflight = none) :
    Staged (supervisor.withInflight (some sequence)) none := by
  refine staged.congr rfl id ?_ rfl fun _ _ => Iff.rfl
  rw [pending, pending, free]
  rfl

theorem Staged.land (staged : Staged supervisor none)
    (flying : supervisor.inflight = some sequence) :
    Staged (supervisor.withInflight none) (some sequence) := by
  refine staged.congr rfl id ?_ rfl fun _ _ => Iff.rfl
  rw [pending, pending, flying]
  rfl

theorem completeTicket_shuts (supervisor : Supervisor) (sequence : ℕ) (status : Status)
    (executed : Bool) (other : ℕ) :
    (supervisor.completeTicket sequence status executed).Shuts other ↔
      supervisor.Shuts other := by
  cases found : supervisor.tickets sequence with
  | none => simp only [completeTicket, found]
  | some ticket =>
      cases done : ticket.completed with
      | true => simp only [completeTicket, found, done, if_true]
      | false =>
          rw [completeTicket_open found done]
          change (Function.update supervisor.tickets sequence _ other).map _ = _ ↔ _
          obtain rfl | apart := eq_or_ne other sequence
          · rw [Function.update_self, Shuts, found]
            rfl
          · rw [Function.update_of_ne apart]
            rfl

/-- A completion behind which the shutdown is still the last ticket. -/
theorem Staged.complete (staged : Staged supervisor (some sequence))
    (calm : supervisor.state = .quiescing → ¬ supervisor.Shuts sequence) (status : Status)
    (executed : Bool) :
    Staged (supervisor.completeTicket sequence status executed) none := by
  have held : supervisor.pending (some sequence) = sequence :: supervisor.pending none := rfl
  have stands := completeTicket_stands supervisor sequence status executed
  obtain ⟨queued, -⟩ := completeTicket_queued supervisor sequence status executed
  have pending : (supervisor.completeTicket sequence status executed).pending none =
      supervisor.pending none := by
    rw [Supervisor.pending, Supervisor.pending, queued, completeTicket_inflight]
  refine
    { early := fun early => ?_
      ready := fun ready other member => ?_
      quiescing := fun quiescing => ?_
      stopping := fun stopping => ?_
      closed := fun closed => ?_ }
  · have none_left := staged.early (stands.state ▸ early)
    rw [held] at none_left
    cases none_left
  · rw [pending] at member
    rw [completeTicket_shuts]
    exact staged.ready (stands.state ▸ ready) other (List.mem_cons_of_mem _ member)
  · rw [stands.state] at quiescing
    obtain ⟨front, last, order, shuts, others⟩ := staged.quiescing quiescing
    cases front with
    | nil =>
        rw [held] at order
        obtain ⟨rfl, -⟩ := List.cons.inj order
        exact absurd shuts (calm quiescing)
    | cons first front =>
        rw [held] at order
        obtain ⟨-, rest⟩ := List.cons.inj order
        refine ⟨front, last, pending.trans rest, ?_, fun other member => ?_⟩
        · rwa [completeTicket_shuts]
        · rw [completeTicket_shuts]
          exact others other (List.mem_cons_of_mem _ member)
  · rw [queued]
    exact staged.stopping (stands.state ▸ stopping)
  · have none_left := (staged.closed (stands.state ▸ closed)).1
    rw [held] at none_left
    cases none_left

theorem Recorded.stands (recorded : Recorded before) (stands : Stands before after) :
    Recorded after := by
  rw [Recorded, stands.state, stands.lastFailure]
  exact recorded

theorem setFailed_failed (recorded : Recorded supervisor) (status : Status)
    (origin : FailureOrigin) (restart : Bool) (sequence : Option ℕ) :
    (supervisor.setFailed status origin restart sequence).state = .failed ∧
      Recorded (supervisor.setFailed status origin restart sequence) ∧
      (supervisor.setFailed status origin restart sequence).callbacks = supervisor.callbacks ∧
      (supervisor.setFailed status origin restart sequence).mainExited =
        supervisor.mainExited := by
  cases found : supervisor.lastFailure with
  | none =>
      have recorded_now : (supervisor.setFailed status origin restart sequence).lastFailure.isSome =
          true ∧ (supervisor.setFailed status origin restart sequence).state = .failed := by
        simp only [setFailed, found]
        exact ⟨rfl, trivial⟩
      refine ⟨recorded_now.2, ⟨fun _ => recorded_now.2, fun _ => recorded_now.1⟩, ?_, ?_⟩
      · simp only [setFailed, found]
      · simp only [setFailed, found]
  | some record =>
      have failed := recorded.1 (by rw [found]; rfl)
      cases restart with
      | true =>
          simp only [setFailed, found, if_true]
          exact ⟨failed, ⟨fun _ => failed, fun _ => rfl⟩, trivial, trivial⟩
      | false =>
          simp only [setFailed, found, Bool.false_eq_true, if_false]
          exact ⟨failed, recorded, trivial, trivial⟩

theorem Recorded.withState {state : SupervisorState} (recorded : Recorded supervisor)
    (running : supervisor.state ≠ .failed) (next : state ≠ .failed) :
    Recorded (supervisor.withState state) := by
  rw [Recorded]
  exact ⟨fun found => absurd (recorded.1 found) running, fun failed => absurd failed next⟩

/-- Nothing changes that the place of the thread speaks of, or the supervisor fails. -/
theorem Fits.congr (fits : Fits before phase) (inflight : after.inflight = before.inflight)
    (callbacks : after.callbacks = before.callbacks)
    (exited : after.mainExited = before.mainExited)
    (pending : before.mainExited = true → after.pending none = before.pending none)
    (kinds : ∀ sequence, before.inflight = some sequence →
      (after.Shuts sequence ↔ before.Shuts sequence))
    (state : after.state = before.state ∨ after.state = .failed ∨
      before.state ≠ .stopping ∧ before.state ≠ .closed ∧ before.state ≠ .failed) :
    Fits after phase := by
  cases phase with
  | absent => exact ⟨inflight.trans fits.1, exited.trans fits.2⟩
  | awaiting => exact ⟨inflight.trans fits.1, exited.trans fits.2⟩
  | booting =>
      exact ⟨fun mode => inflight.trans (fits.1 (callbacks ▸ mode)), exited.trans fits.2⟩
  | running => exact ⟨callbacks ▸ fits.1, exited.trans fits.2⟩
  | waiting => exact ⟨callbacks ▸ fits.1, inflight.trans fits.2.1, exited.trans fits.2.2⟩
  | dispatching sequence =>
      obtain ⟨mode, flying, calm, running⟩ := fits
      refine ⟨callbacks ▸ mode, inflight.trans flying, ?_, exited.trans running⟩
      rwa [kinds sequence flying]
  | shutdownTaken sequence =>
      obtain ⟨mode, flying, shuts, running⟩ := fits
      refine ⟨callbacks ▸ mode, inflight.trans flying, ?_, exited.trans running⟩
      rwa [kinds sequence flying]
  | shuttingDown sequence =>
      obtain ⟨mode, flying, stopped, running⟩ := fits
      refine ⟨callbacks ▸ mode, inflight.trans flying, ?_, exited.trans running⟩
      obtain same | failed | ⟨first, -, second⟩ := state
      · rwa [same]
      · exact .inr failed
      · exact absurd stopped (not_or.2 ⟨first, second⟩)
  | exited =>
      obtain ⟨gone, empty, ended⟩ := fits
      refine ⟨exited.trans gone, (pending gone).trans empty, ?_⟩
      obtain same | failed | ⟨-, first, second⟩ := state
      · rwa [same]
      · exact .inr failed
      · exact absurd ended (not_or.2 ⟨first, second⟩)

/-- In run mode the callbacks may take and complete controls. -/
theorem Fits.callback (fits : Fits before phase) (called : phase.inCallback = true)
    (mode : before.callbacks.run = true) (callbacks : after.callbacks = before.callbacks)
    (exited : after.mainExited = before.mainExited) : Fits after phase := by
  cases phase with
  | booting =>
      refine ⟨fun other => ?_, exited.trans fits.2⟩
      rw [callbacks, mode] at other
      cases other
  | running => exact ⟨callbacks ▸ mode, exited.trans fits.2⟩
  | dispatching =>
      rw [fits.1] at mode
      cases mode
  | shuttingDown =>
      rw [fits.1] at mode
      cases mode
  | absent => cases called
  | awaiting => cases called
  | waiting => cases called
  | shutdownTaken => cases called
  | exited => cases called

/-- A section that changes neither books nor state. -/
theorem Sane.same (sane : Sane before phase) (books : SameBooks before after)
    (stands : Stands before after) : Sane after phase where
  ledger := books.ledger sane.ledger
  staged := sane.staged.congr stands.state (fun empty => books.queued.trans empty)
    (books.pending none) stands.mainExited fun _ _ => by rw [Shuts, Shuts, books.tickets]
  recorded := sane.recorded.stands stands
  fits := sane.fits.congr books.inflight stands.callbacks stands.mainExited
    (fun _ => books.pending none) (fun _ _ => by rw [Shuts, Shuts, books.tickets])
    (.inl stands.state)

theorem Sane.setFailed (sane : Sane supervisor phase) (status : Status) (origin : FailureOrigin)
    (restart : Bool) (sequence : Option ℕ) :
    Sane (supervisor.setFailed status origin restart sequence) phase := by
  have books := setFailed_books supervisor status origin restart sequence
  obtain ⟨failed, recorded, callbacks, exited⟩ :=
    setFailed_failed sane.recorded status origin restart sequence
  exact
    { ledger := books.ledger sane.ledger
      staged := .of_failed failed none
      recorded := recorded
      fits := sane.fits.congr books.inflight callbacks exited (fun _ => books.pending none)
        (fun _ _ => by rw [Shuts, Shuts, books.tickets]) (.inr (.inl failed)) }

/-- The section at the exit completes the control in flight and rejects the queue. -/
theorem Sane.finish (ledger : Ledger supervisor none) (recorded : Recorded supervisor)
    (ended : supervisor.state = .failed ∨
      supervisor.state = .closed ∧ supervisor.pending none = []) :
    Sane supervisor.finish.supervisor supervisor.finish.phase := by
  -- The supervisor behind the rejections, from one without a control in flight.
  have exits : ∀ settled : Supervisor, Ledger settled none → Recorded settled →
      settled.inflight = none →
      (settled.state = .failed ∨ settled.state = .closed ∧ settled.pending none = []) →
      Sane { (if settled.state = .failed then settled.rejectQueuedTickets eshutdown
        else settled) with mainExited := true } .exited := by
    intro settled ledger recorded free ended
    by_cases failed : settled.state = .failed
    · obtain ⟨emptied, empty, stands⟩ := rejectLoop_empties eshutdown ledger free le_rfl
      rw [if_pos failed]
      have still := stands.state.trans failed
      have kept := recorded.stands stands
      rw [rejectQueuedTickets]
      generalize rejectLoop eshutdown settled.depth settled = rejected at *
      have books : SameBooks rejected { rejected with mainExited := true } :=
        ⟨rfl, rfl, rfl, rfl, rfl, rfl, rfl, rfl, rfl, rfl, rfl, rfl, rfl⟩
      have exited : ({ rejected with mainExited := true } : Supervisor).state = .failed := still
      exact ⟨books.ledger emptied, .of_failed exited none, kept, rfl, empty, .inr still⟩
    · obtain ⟨closed, empty⟩ := ended.resolve_left failed
      rw [if_neg failed]
      have books : SameBooks settled { settled with mainExited := true } :=
        ⟨rfl, rfl, rfl, rfl, rfl, rfl, rfl, rfl, rfl, rfl, rfl, rfl, rfl⟩
      refine ⟨books.ledger ledger, ?_, recorded, rfl, empty, .inl closed⟩
      have none_left : settled.queued = [] := by
        rw [pending, free] at empty
        exact empty
      have other (state : SupervisorState) (apart : state ≠ .closed) :
          ({ settled with mainExited := true } : Supervisor).state ≠ state :=
        fun same => apart (same.symm.trans closed)
      exact
        { early := fun _ => empty
          ready := fun ready => absurd ready (other _ (by decide))
          quiescing := fun quiescing => absurd quiescing (other _ (by decide))
          stopping := fun _ => none_left
          closed := fun _ => ⟨empty, rfl⟩ }
  cases flying : supervisor.inflight with
  | none =>
      simp only [Supervisor.finish, flying]
      exact exits supervisor ledger recorded flying ended
  | some sequence =>
      have landed := (ledger.land flying).complete eshutdown false
      have stands := completeTicket_stands (supervisor.withInflight none) sequence eshutdown false
      have kept : Recorded (supervisor.withInflight none) := recorded
      obtain ⟨failed, recorded', -⟩ := setFailed_failed (kept.stands stands)
        ((supervisor.withInflight none).completeTicket sequence eshutdown false).failureOr
        .contract false (some sequence)
      have books := setFailed_books
        ((supervisor.withInflight none).completeTicket sequence eshutdown false)
        ((supervisor.withInflight none).completeTicket sequence eshutdown false).failureOr
        .contract false (some sequence)
      have free := books.inflight.trans (completeTicket_inflight (supervisor.withInflight none)
        sequence eshutdown false)
      simp only [Supervisor.finish, flying, completeTicket_withInflight]
      exact exits _ (books.ledger landed) recorded' free (.inl failed)

/-- A failure in front of the exit. -/
theorem Sane.fail_finish (ledger : Ledger supervisor none) (recorded : Recorded supervisor)
    (status : Status) (origin : FailureOrigin) (sequence : Option ℕ) :
    Sane (supervisor.setFailed status origin false sequence).finish.supervisor
      (supervisor.setFailed status origin false sequence).finish.phase := by
  obtain ⟨failed, recorded', -⟩ := setFailed_failed recorded status origin false sequence
  exact Sane.finish ((setFailed_books supervisor status origin false sequence).ledger ledger)
    recorded' (.inl failed)

theorem Sane.loop (ledger : Ledger supervisor none) (staged : Staged supervisor none)
    (recorded : Recorded supervisor) (mode : supervisor.callbacks.run = false)
    (free : supervisor.inflight = none) (running : supervisor.mainExited = false) :
    Sane supervisor.loop.supervisor supervisor.loop.phase := by
  rw [Supervisor.loop]
  split_ifs with failed
  · exact Sane.finish ledger recorded (.inl failed)
  · cases taken : supervisor.dequeueTicket with
    | none => exact ⟨ledger, staged, recorded, mode, free, running⟩
    | some pair =>
        obtain ⟨sequence, rest⟩ := pair
        obtain ⟨stands, -⟩ := dequeueTicket_stands taken
        have freed := (dequeueTicket_queued ledger.head taken).2.trans free
        have launched := (ledger.dequeue free taken).launch freed
        have next := (staged.dequeue ledger free taken).launch freed
        have kept : Recorded (rest.withInflight (some sequence)) :=
          recorded.stands (stands.trans ⟨rfl, rfl, rfl, rfl⟩)
        have mode' : rest.callbacks.run = false := by rw [stands.callbacks, mode]
        have running' := stands.mainExited.trans running
        simp only
        split_ifs with shuts
        · exact ⟨launched, next, kept, mode', rfl, shuts, running'⟩
        · exact ⟨launched, next, kept, mode', rfl, shuts, running'⟩

theorem Sane.awaitThread {asleep : Bool} (sane : Sane supervisor (.awaiting asleep)) :
    Sane supervisor.awaitThread.supervisor supervisor.awaitThread.phase := by
  obtain ⟨ledger, staged, recorded, free, running⟩ := sane
  rw [Supervisor.awaitThread]
  split_ifs with waits failed
  · exact ⟨ledger, staged, recorded, free, running⟩
  · exact Sane.finish ledger recorded (.inl failed)
  · exact ⟨ledger, staged, recorded, fun _ => free, running⟩

theorem Staged.readied (staged : Staged supervisor none) (early : supervisor.state.Early) :
    Staged (supervisor.withState .ready) none where
  early := fun early => by simp [withState, SupervisorState.Early] at early
  ready := fun _ sequence member => by
    have empty : (supervisor.withState .ready).pending none = [] := staged.early early
    rw [empty] at member
    cases member
  quiescing := fun quiescing => by cases quiescing
  stopping := fun stopping => by cases stopping
  closed := fun closed => by cases closed

/-- The thread goes on behind the boot, as the mode says. -/
theorem Sane.settled {mode : Bool} (ledger : Ledger supervisor none)
    (staged : Staged supervisor none) (recorded : Recorded supervisor)
    (same : supervisor.callbacks.run = mode) (free : mode = false → supervisor.inflight = none)
    (running : supervisor.mainExited = false) :
    let next : MainSection := if supervisor.state = .failed then supervisor.finish
      else if mode then ⟨supervisor, .running, .everybody⟩
      else { supervisor.loop with wake := .everybody }
    Sane next.supervisor next.phase := by
  split_ifs with failed run
  · exact Sane.finish ledger recorded (.inl failed)
  · exact ⟨ledger, staged, recorded, same.trans run, running⟩
  · have dispatch := eq_false_of_ne_true run
    exact Sane.loop ledger staged recorded (same.trans dispatch) (free dispatch) running

/-- The supervisor behind the boot callback. -/
def settleBoot (supervisor : Supervisor) (status : Status) : Supervisor :=
  if status ≠ 0 then supervisor.setFailed status .boot false none
  else if supervisor.callbacks.run = false ∧
      (supervisor.state = .starting ∨ supervisor.state = .recovering) then
    supervisor.withState .ready
  else if supervisor.callbacks.run = true ∧
      (supervisor.state = .starting ∨ supervisor.state = .recovering) then supervisor
  else if supervisor.state ≠ .failed then supervisor.setFailed eproto .contract false none
  else supervisor

theorem booted_eq (supervisor : Supervisor) (status : Status) :
    supervisor.booted status =
      if (supervisor.settleBoot status).state = .failed then (supervisor.settleBoot status).finish
      else if supervisor.callbacks.run then ⟨supervisor.settleBoot status, .running, .everybody⟩
      else { (supervisor.settleBoot status).loop with wake := .everybody } := rfl

/-- The boot leaves the books alone. -/
theorem Sane.settleBoot (sane : Sane supervisor .booting) (status : Status) :
    SameBooks supervisor (supervisor.settleBoot status) ∧
      Staged (supervisor.settleBoot status) none ∧ Recorded (supervisor.settleBoot status) ∧
      (supervisor.settleBoot status).callbacks = supervisor.callbacks ∧
      (supervisor.settleBoot status).mainExited = supervisor.mainExited := by
  obtain ⟨ledger, staged, recorded, -⟩ := sane
  have failing (status : Status) (origin : FailureOrigin) :
      let failed := supervisor.setFailed status origin false none
      SameBooks supervisor failed ∧ Staged failed none ∧ Recorded failed ∧
        failed.callbacks = supervisor.callbacks ∧ failed.mainExited = supervisor.mainExited := by
    obtain ⟨now, recorded', callbacks, exited⟩ :=
      setFailed_failed recorded status origin false none
    exact ⟨setFailed_books supervisor status origin false none, .of_failed now none, recorded',
      callbacks, exited⟩
  rw [Supervisor.settleBoot]
  split_ifs with failed mode mode' other
  · exact failing status .boot
  · have awake : supervisor.state ≠ .failed := by
      obtain starting | recovering := mode.2
      · rw [starting]
        decide
      · rw [recovering]
        decide
    exact ⟨withState_books supervisor .ready, staged.readied (.inr mode.2),
      recorded.withState awake (by decide), rfl, rfl⟩
  · exact ⟨.refl supervisor, staged, recorded, rfl, rfl⟩
  · exact failing eproto .contract
  · exact ⟨.refl supervisor, staged, recorded, rfl, rfl⟩

theorem Sane.booted (sane : Sane supervisor .booting) (status : Status) :
    Sane (supervisor.booted status).supervisor (supervisor.booted status).phase := by
  obtain ⟨books, staged, recorded, callbacks, exited⟩ := sane.settleBoot status
  rw [booted_eq]
  exact Sane.settled (books.ledger sane.ledger) staged recorded (by rw [callbacks])
    (fun mode => books.inflight.trans (sane.fits.1 mode)) (exited.trans sane.fits.2)

theorem pending_eq_nil (free : supervisor.inflight = none) (empty : supervisor.queued = []) :
    supervisor.pending none = [] := by
  rw [pending, free, empty]
  rfl

theorem Sane.ran (sane : Sane supervisor .running) (status : Status) :
    Sane (supervisor.ran status).supervisor (supervisor.ran status).phase := by
  obtain ⟨ledger, staged, recorded, -⟩ := sane
  rw [Supervisor.ran]
  split_ifs with failed done running
  · exact Sane.fail_finish ledger recorded status .run none
  · have books := withState_books supervisor .closed
    have empty : supervisor.pending none = [] := pending_eq_nil done.2.1 (staged.stopping done.1)
    have kept : Recorded (supervisor.withState .closed) :=
      recorded.withState (by rw [done.1]; decide) (by decide)
    exact Sane.finish (books.ledger ledger) kept (.inr ⟨rfl, (books.pending none).trans empty⟩)
  · exact Sane.fail_finish ledger recorded eproto .contract none
  · exact Sane.finish ledger recorded (.inl (not_not.1 running))

/-- The completion of the control in flight by the thread. -/
theorem Sane.completed (sane : Sane supervisor phase)
    (flying : supervisor.inflight = some sequence)
    (calm : supervisor.state = .quiescing → ¬ supervisor.Shuts sequence) (status : Status)
    (executed : Bool) :
    let next := (supervisor.completeTicket sequence status executed).withInflight none
    Ledger next none ∧ Staged next none ∧ Recorded next ∧ next.inflight = none ∧
      Stands supervisor next := by
  obtain ⟨ledger, staged, recorded, -⟩ := sane
  have stands := completeTicket_stands (supervisor.withInflight none) sequence status executed
  have kept : Recorded (supervisor.withInflight none) := recorded
  simp only [completeTicket_withInflight]
  exact ⟨(ledger.land flying).complete status executed,
    (staged.land flying).complete calm status executed, kept.stands stands,
    completeTicket_inflight _ sequence status executed,
    ⟨stands.state, stands.lastFailure, stands.callbacks, stands.mainExited⟩⟩

theorem Sane.dispatched (sane : Sane supervisor (.dispatching sequence)) (status : Status) :
    Sane (supervisor.dispatched sequence status).supervisor
      (supervisor.dispatched sequence status).phase := by
  obtain ⟨mode, flying, calm, running⟩ := sane.fits
  obtain ⟨ledger, staged, recorded, free, stands⟩ := sane.completed flying (fun _ => calm)
    (supervisor.reported (if supervisor.callbacks.dispatch then status else enotsup)) true
  exact Sane.loop ledger staged recorded (by rw [stands.callbacks, mode]) free
    (stands.mainExited.trans running)

/-- The shutdown is the only ticket when it is the one in flight. -/
theorem Staged.alone (staged : Staged supervisor none) (quiescing : supervisor.state = .quiescing)
    (flying : supervisor.inflight = some sequence) (shuts : supervisor.Shuts sequence) :
    supervisor.queued = [] := by
  obtain ⟨front, last, order, -, calm⟩ := staged.quiescing quiescing
  rw [pending, flying] at order
  cases front with
  | nil => exact (List.cons.inj order).2
  | cons first front =>
      have same : sequence = first := (List.cons.inj order).1
      exact absurd (same ▸ shuts) (calm first List.mem_cons_self)

/-- QUIESCING becomes STOPPING when the shutdown is taken. -/
theorem Staged.stopped (empty : supervisor.queued = []) :
    Staged (supervisor.withState .stopping) none where
  early := fun early => by simp [withState, SupervisorState.Early] at early
  ready := fun ready => by cases ready
  quiescing := fun quiescing => by cases quiescing
  stopping := fun _ => empty
  closed := fun closed => by cases closed

theorem Sane.allowShutdown (sane : Sane supervisor (.shutdownTaken sequence)) :
    Sane (supervisor.allowShutdown sequence).supervisor
      (supervisor.allowShutdown sequence).phase := by
  obtain ⟨mode, flying, shuts, running⟩ := sane.fits
  rw [Supervisor.allowShutdown]
  split_ifs with quiescing
  · have books := withState_books supervisor .stopping
    exact
      { ledger := books.ledger sane.ledger
        staged := .stopped (sane.staged.alone quiescing flying shuts)
        recorded := sane.recorded.withState (by rw [quiescing]; decide) (by decide)
        fits := ⟨mode, flying, .inl rfl, running⟩ }
  · obtain ⟨failed, -, callbacks, exited⟩ :=
      setFailed_failed sane.recorded eproto .contract false (some sequence)
    have failing := sane.setFailed eproto .contract false (some sequence)
    have books := setFailed_books supervisor eproto .contract false (some sequence)
    exact
      { ledger := failing.ledger
        staged := failing.staged
        recorded := failing.recorded
        fits := ⟨by rw [callbacks, mode], books.inflight.trans flying, .inr failed,
          exited.trans running⟩ }

theorem Sane.leave (ledger : Ledger supervisor none) (staged : Staged supervisor none)
    (recorded : Recorded supervisor) (free : supervisor.inflight = none) (sequence : ℕ)
    (status : Status) :
    Sane (supervisor.leave sequence status).supervisor
      (supervisor.leave sequence status).phase := by
  rw [Supervisor.leave]
  split_ifs with done running failed
  · have books := withState_books supervisor .closed
    have empty := pending_eq_nil free (staged.stopping done.2)
    have kept : Recorded (supervisor.withState .closed) :=
      recorded.withState (by rw [done.2]; decide) (by decide)
    exact Sane.finish (books.ledger ledger) kept (.inr ⟨rfl, (books.pending none).trans empty⟩)
  · exact Sane.fail_finish ledger recorded _ .shutdown (some sequence)
  · exact Sane.fail_finish ledger recorded _ .shutdown (some sequence)
  · exact Sane.finish ledger recorded (.inl (by simpa using running))

theorem Sane.shutDown {allowed : Bool} (sane : Sane supervisor (.shuttingDown sequence allowed))
    (status : Status) :
    Sane (supervisor.shutDown sequence allowed status).supervisor
      (supervisor.shutDown sequence allowed status).phase := by
  obtain ⟨-, flying, stopped, -⟩ := sane.fits
  have calm : supervisor.state = .quiescing → ¬ supervisor.Shuts sequence := by
    intro quiescing
    rw [quiescing] at stopped
    obtain stopping | failed := stopped
    · cases stopping
    · cases failed
  obtain ⟨ledger, staged, recorded, free, -⟩ := sane.completed flying calm
    (supervisor.reported (if !allowed then eproto else if supervisor.callbacks.shutdown then status
      else 0)) true
  exact Sane.leave ledger staged recorded free sequence _

/-- Every section of the thread keeps the invariant. -/
theorem Sane.mainSection {status : Status} {next : MainSection} (sane : Sane supervisor phase)
    (done : supervisor.mainSection status phase = some next) :
    Sane next.supervisor next.phase := by
  cases phase with
  | absent => cases done
  | awaiting asleep =>
      cases asleep with
      | true => cases done
      | false =>
          obtain rfl := Option.some.inj done
          split_ifs
          · exact Sane.fail_finish sane.ledger sane.recorded status .wait none
          · exact sane.awaitThread
  | booting =>
      obtain rfl := Option.some.inj done
      exact sane.booted _
  | running =>
      obtain rfl := Option.some.inj done
      exact sane.ran status
  | waiting asleep =>
      cases asleep with
      | true => cases done
      | false =>
          obtain rfl := Option.some.inj done
          obtain ⟨mode, free, running⟩ := sane.fits
          split_ifs
          · exact Sane.fail_finish sane.ledger sane.recorded status .wait none
          · exact Sane.loop sane.ledger sane.staged sane.recorded mode free running
  | dispatching sequence =>
      obtain rfl := Option.some.inj done
      exact sane.dispatched status
  | shutdownTaken sequence =>
      obtain rfl := Option.some.inj done
      exact sane.allowShutdown
  | shuttingDown sequence allowed =>
      obtain rfl := Option.some.inj done
      exact sane.shutDown status
  | exited => cases done

/-! ## The sections of the clients -/

/-- A move among the states up to QUIESCING. -/
theorem Sane.withState {state : SupervisorState} (sane : Sane supervisor phase)
    (first : supervisor.state ≠ .stopping ∧ supervisor.state ≠ .closed ∧
      supervisor.state ≠ .failed) (next : state ≠ .failed)
    (staged : Staged (supervisor.withState state) none) :
    Sane (supervisor.withState state) phase where
  ledger := (withState_books supervisor state).ledger sane.ledger
  staged := staged
  recorded := sane.recorded.withState first.2.2 next
  fits := sane.fits.congr rfl rfl rfl (fun _ => rfl) (fun _ _ => Iff.rfl) (.inr (.inr first))

/-- The states in front of READY follow one another. -/
theorem Sane.early {state : SupervisorState} (sane : Sane supervisor phase)
    (early : supervisor.state.Early) (next : state.Early) :
    Sane (supervisor.withState state) phase := by
  have empty := sane.staged.early early
  have not_late {late : SupervisorState} (apart : ¬ late.Early) : supervisor.state ≠ late :=
    fun same => apart (same ▸ early)
  have other {late : SupervisorState} (apart : ¬ late.Early) : state ≠ late :=
    fun same => apart (same ▸ next)
  refine sane.withState ⟨not_late (by simp [SupervisorState.Early]),
    not_late (by simp [SupervisorState.Early]), not_late failed_not_early⟩
    (other failed_not_early)
    { early := fun _ => empty
      ready := fun ready => absurd ready (other (by simp [SupervisorState.Early]))
      quiescing := fun quiescing => absurd quiescing (other (by simp [SupervisorState.Early]))
      stopping := fun stopping => absurd stopping (other (by simp [SupervisorState.Early]))
      closed := fun closed => absurd closed (other (by simp [SupervisorState.Early])) }

theorem Sane.startSection (sane : Sane supervisor phase) :
    Sane supervisor.startSection.supervisor phase := by
  rw [Supervisor.startSection]
  split_ifs with refused
  · exact sane
  · exact sane.early (.inl (by simpa using (not_or.1 refused).1)) (.inr (.inl rfl))

theorem Sane.markRecovering (sane : Sane supervisor phase) :
    Sane supervisor.markRecovering.supervisor phase := by
  rw [Supervisor.markRecovering]
  split_ifs with early
  · exact sane
  · exact sane.early (.inr (.inl (not_not.1 early))) (.inr (.inr rfl))

theorem Sane.markReady (sane : Sane supervisor phase) :
    Sane supervisor.markReady.supervisor phase := by
  rw [Supervisor.markReady]
  split_ifs with late
  · exact sane
  · have early : supervisor.state = .starting ∨ supervisor.state = .recovering := by
      by_contra other
      exact late (not_or.1 other)
    have apart {state : SupervisorState} (first : state ≠ .starting)
        (second : state ≠ .recovering) : supervisor.state ≠ state := by
      rintro rfl
      exact early.elim first second
    exact sane.withState ⟨apart (by decide) (by decide), apart (by decide) (by decide),
      apart (by decide) (by decide)⟩ (by decide) (sane.staged.readied (.inr early))

/-- A ticket that is accepted in READY. -/
theorem Sane.enqueued {memory : Bool} {allocated : Supervisor} {ticket : Ticket}
    (sane : Sane supervisor phase) (ready : supervisor.state = .ready)
    (incomplete : ticket.completed = false)
    (allocates : supervisor.allocateTicket memory = .ok (sequence, allocated))
    (enqueues : allocated.enqueueTicket sequence ticket = .ok after) :
    Ledger after none ∧ Recorded after ∧ Fits after phase ∧ after.state = .ready ∧
      after.pending none = supervisor.pending none ++ [sequence] ∧
      after.tickets sequence = some ticket ∧
      ∀ other ∈ supervisor.pending none, ¬ after.Shuts other := by
  obtain ⟨ledger, order, tickets, state, failure, callbacks, exited⟩ :=
    sane.ledger.enqueue incomplete allocates enqueues
  have fresh : ∀ other ∈ supervisor.pending none, other ≠ sequence := by
    have increasing := ledger.increasing
    rw [ledger.order, order, ← List.append_assoc] at increasing
    have last := (List.pairwise_append.1 increasing).2.2
    intro other member
    exact Nat.ne_of_lt (last other (List.mem_append_right _ member) sequence
      (List.mem_singleton_self _))
  have kinds : ∀ other ∈ supervisor.pending none, (after.Shuts other ↔ supervisor.Shuts other) := by
    intro other member
    rw [Shuts, Shuts, tickets, Function.update_of_ne (fresh other member)]
  have inflight : after.inflight = supervisor.inflight := by
    rw [allocateTicket] at allocates
    split_ifs at allocates
    obtain ⟨rfl, rfl⟩ := Prod.mk.inj (Except.ok.inj allocates)
    rw [enqueueTicket] at enqueues
    split_ifs at enqueues
    obtain rfl := Except.ok.inj enqueues
    rfl
  have running : supervisor.mainExited ≠ true := by
    intro gone
    cases phase with
    | exited =>
        obtain ⟨-, -, closed | failed⟩ := sane.fits
        · rw [ready] at closed
          cases closed
        · rw [ready] at failed
          cases failed
    | absent => exact absurd (sane.fits.2.symm.trans gone) (by decide)
    | awaiting => exact absurd (sane.fits.2.symm.trans gone) (by decide)
    | booting => exact absurd (sane.fits.2.symm.trans gone) (by decide)
    | running => exact absurd (sane.fits.2.symm.trans gone) (by decide)
    | waiting => exact absurd (sane.fits.2.2.symm.trans gone) (by decide)
    | dispatching => exact absurd (sane.fits.2.2.2.symm.trans gone) (by decide)
    | shutdownTaken => exact absurd (sane.fits.2.2.2.symm.trans gone) (by decide)
    | shuttingDown => exact absurd (sane.fits.2.2.2.symm.trans gone) (by decide)
  have fits := sane.fits.congr inflight callbacks exited (fun gone => absurd gone running)
    (fun other flying => kinds other (by simp [pending, flying])) (.inl state)
  refine ⟨ledger, ?_, fits, state.trans ready, order, ?_, fun other member => ?_⟩
  · exact sane.recorded.stands ⟨state, failure, callbacks, exited⟩
  · rw [tickets, Function.update_self]
  · rw [kinds other member]
    exact sane.staged.ready ready other member

theorem Staged.of_ready (ready : supervisor.state = .ready)
    (calm : ∀ other ∈ supervisor.pending none, ¬ supervisor.Shuts other) :
    Staged supervisor none where
  early := fun early => by
    rw [ready] at early
    simp [SupervisorState.Early] at early
  ready := fun _ => calm
  quiescing := fun state => by
    rw [ready] at state
    cases state
  stopping := fun state => by
    rw [ready] at state
    cases state
  closed := fun state => by
    rw [ready] at state
    cases state

theorem Sane.submit (sane : Sane supervisor phase) (reserved : supervisor.Reserved)
    (generation : ℕ) (kind : ControlKind) (payload : ℕ) (wake : Status) (memory : Bool) :
    Sane (supervisor.submit generation kind payload wake memory).supervisor phase := by
  rw [Supervisor.submit]
  split_ifs with shutdown stale ready full woken
  · exact sane
  · exact sane
  · exact sane
  · exact sane
  · exact sane
  · cases allocates : supervisor.allocateTicket memory with
    | error status => exact sane
    | ok pair =>
        obtain ⟨sequence, allocated⟩ := pair
        obtain ⟨-, capacity, depth, -⟩ := allocateTicket_state allocates
        have room := reserved.ready (not_not.1 ready)
        obtain ⟨enqueued, done, -⟩ := @enqueueTicket_ok allocated (by omega) sequence
          ⟨kind, .smart, payload, 0, false⟩
        obtain ⟨ledger, recorded, fits, state, order, ticket, calm⟩ :=
          sane.enqueued (not_not.1 ready) rfl allocates done
        simp only [done]
        refine ⟨ledger, .of_ready state fun other member => ?_, recorded, fits⟩
        rw [order] at member
        obtain old | new := List.mem_append.1 member
        · exact calm other old
        · rw [List.mem_singleton.1 new, Shuts, ticket]
          exact fun same => shutdown (Option.some.inj same)

theorem Sane.requestShutdown (sane : Sane supervisor phase) (reserved : supervisor.Reserved)
    (generation : ℕ) (mode : ShutdownMode) (wake : Status) (memory : Bool) :
    Sane (supervisor.requestShutdown generation mode wake memory).supervisor phase := by
  rw [Supervisor.requestShutdown]
  split_ifs with stale ready full woken
  · exact sane
  · exact sane
  · exact sane
  · exact sane
  · cases allocates : supervisor.allocateTicket memory with
    | error status => exact sane
    | ok pair =>
        obtain ⟨sequence, allocated⟩ := pair
        obtain ⟨-, capacity, depth, -⟩ := allocateTicket_state allocates
        have room := reserved.ready (not_not.1 ready)
        obtain ⟨enqueued, done, -⟩ := @enqueueTicket_ok allocated (by omega) sequence
          ⟨.shutdown, mode, 0, 0, false⟩
        obtain ⟨ledger, recorded, fits, state, order, ticket, calm⟩ :=
          sane.enqueued (not_not.1 ready) rfl allocates done
        simp only [done]
        have shuts : enqueued.Shuts sequence := by rw [Shuts, ticket]; rfl
        have apart {other : SupervisorState} (first : .ready ≠ other) : enqueued.state ≠ other := by
          rwa [state]
        have books := withState_books enqueued .quiescing
        exact
          { ledger := books.ledger ledger
            staged :=
              { early := fun early => by simp [Supervisor.withState, SupervisorState.Early] at early
                ready := fun ready => by cases ready
                quiescing := fun _ =>
                  ⟨_, sequence, (books.pending none).trans order, shuts, calm⟩
                stopping := fun stopping => by cases stopping
                closed := fun closed => by cases closed }
            recorded := recorded.withState (apart (by decide)) (by decide)
            fits := fits.congr rfl rfl rfl (fun _ => rfl) (fun _ _ => Iff.rfl)
              (.inr (.inr ⟨apart (by decide), apart (by decide), apart (by decide)⟩)) }

theorem Sane.ticketDestroy (sane : Sane supervisor phase) (sequence : ℕ) :
    Sane (supervisor.ticketDestroy sequence).supervisor phase := by
  cases found : supervisor.tickets sequence with
  | none =>
      simp only [Supervisor.ticketDestroy, found]
      exact sane
  | some ticket =>
      simp only [Supervisor.ticketDestroy, found]
      split_ifs with open_ idle
      · exact sane
      · exact sane
      · have done : ticket.completed = true := by simpa using open_
        have away : ∀ other ∈ supervisor.pending none, other ≠ sequence := by
          rintro other member rfl
          obtain ⟨held, same, incomplete⟩ := sane.ledger.incomplete other member
          rw [found] at same
          rw [← Option.some.inj same, done] at incomplete
          cases incomplete
        have kinds : ∀ other ∈ supervisor.pending none,
            (Function.update supervisor.tickets sequence none other).map Ticket.kind =
              some .shutdown ↔ supervisor.Shuts other := by
          intro other member
          rw [Function.update_of_ne (away other member), Shuts]
        exact
          { ledger := sane.ledger.destroy found done idle
            staged := sane.staged.congr rfl id rfl rfl kinds
            recorded := sane.recorded
            fits := sane.fits.congr rfl rfl rfl (fun _ => rfl)
              (fun other flying => kinds other (by simp [pending, flying])) (.inl rfl) }

theorem Sane.fail (sane : Sane supervisor phase) (status : Status) (restart : Bool) :
    Sane (supervisor.fail status restart).supervisor phase := by
  rw [Supervisor.fail]
  split_ifs
  · exact sane
  · exact sane
  · exact sane.setFailed status .hostFailStop restart supervisor.inflight

/-! ## The sections of the callbacks in run mode -/

/-- A violation of the contract completes the control that was just dequeued. -/
theorem Sane.violated {rest : Supervisor} (ledger : Ledger rest (some sequence))
    (recorded : Recorded rest) (fits : ∀ next : Supervisor, next.callbacks = rest.callbacks →
      next.mainExited = rest.mainExited → Fits next phase) :
    Sane (rest.violated sequence).supervisor phase := by
  have books := setFailed_books rest eproto .contract false (some sequence)
  obtain ⟨failed, recorded', callbacks, exited⟩ :=
    setFailed_failed recorded eproto .contract false (some sequence)
  have stands := completeTicket_stands (rest.setFailed eproto .contract false (some sequence))
    sequence eproto false
  exact
    { ledger := (books.ledger ledger).complete eproto false
      staged := .of_failed (stands.state.trans failed) none
      recorded := recorded'.stands stands
      fits := fits _ (stands.callbacks.trans callbacks) (stands.mainExited.trans exited) }

theorem Sane.controlTake (sane : Sane supervisor phase) (called : phase.inCallback = true)
    (mode : supervisor.callbacks.run = true) : Sane supervisor.controlTake.supervisor phase := by
  rw [Supervisor.controlTake]
  split_ifs with failed busy
  · exact sane
  · exact sane
  · have free : supervisor.inflight = none := not_not.1 busy
    cases taken : supervisor.dequeueTicket with
    | none => exact sane
    | some pair =>
        obtain ⟨sequence, rest⟩ := pair
        obtain ⟨stands, -⟩ := dequeueTicket_stands taken
        have freed := (dequeueTicket_queued sane.ledger.head taken).2.trans free
        have held := sane.ledger.dequeue free taken
        have staged := (sane.staged.dequeue sane.ledger free taken).launch freed
        have recorded := sane.recorded.stands stands
        have fits : ∀ next : Supervisor, next.callbacks = rest.callbacks →
            next.mainExited = rest.mainExited → Fits next phase := fun next callbacks exited =>
          sane.fits.callback called mode (callbacks.trans stands.callbacks)
            (exited.trans stands.mainExited)
        simp only
        split_ifs with shuts early late
        · exact Sane.violated held recorded fits
        · have quiescing : rest.state = .quiescing := not_not.1 early
          have kept : Recorded ((rest.withState .stopping).withInflight (some sequence)) :=
            @Recorded.withState rest .stopping recorded (by rw [quiescing]; decide) (by decide)
          have empty := staged.alone quiescing rfl shuts
          have books := withState_books (rest.withInflight (some sequence)) .stopping
          exact ⟨books.ledger (held.launch freed), .stopped empty, kept, fits _ rfl rfl⟩
        · exact Sane.violated held recorded fits
        · have kept : Recorded (rest.withInflight (some sequence)) := recorded
          exact ⟨held.launch freed, staged, kept, fits _ rfl rfl⟩

theorem Sane.controlComplete (sane : Sane supervisor phase) (called : phase.inCallback = true)
    (mode : supervisor.callbacks.run = true) (sequence : ℕ) (operationStatus : Status) :
    Sane (supervisor.controlComplete sequence operationStatus).supervisor phase := by
  rw [Supervisor.controlComplete]
  split_ifs with other
  · exact sane
  · have flying : supervisor.inflight = some sequence := not_not.1 other
    cases found : supervisor.tickets sequence with
    | none => exact sane
    | some ticket =>
        have completes : ∀ failed : Supervisor, Sane failed phase →
            failed.inflight = some sequence → failed.callbacks = supervisor.callbacks →
            (failed.state = .quiescing → ¬ failed.Shuts sequence) → ∀ status : Status,
            Sane ((failed.completeTicket sequence status true).withInflight none) phase := by
          intro failed sane flying callbacks calm status
          obtain ⟨ledger, staged, recorded, -, stands⟩ := sane.completed flying calm status true
          exact ⟨ledger, staged, recorded, sane.fits.callback called (by rw [callbacks, mode])
            stands.callbacks stands.mainExited⟩
        simp only
        split
        · exact sane
        · split
          · exact sane
          · rename_i early
            have calm : supervisor.state = .quiescing → ¬ supervisor.Shuts sequence := by
              intro quiescing shuts
              rw [Shuts, found] at shuts
              refine early ⟨Option.some.inj shuts, ?_⟩
              rw [quiescing]
              decide
            have books := setFailed_books supervisor operationStatus .shutdown false
              (some sequence)
            obtain ⟨failed, -, callbacks, -⟩ := setFailed_failed sane.recorded operationStatus
              .shutdown false (some sequence)
            by_cases failing : operationStatus ≠ 0 ∧ ticket.kind = .shutdown
            · rw [if_pos failing]
              refine completes _ (sane.setFailed ..) (books.inflight.trans flying) callbacks
                (fun quiescing => ?_) _
              rw [failed] at quiescing
              cases quiescing
            · rw [if_neg failing]
              exact completes supervisor sane flying rfl calm _

end Supervisor
end Postgamma.Embedded
