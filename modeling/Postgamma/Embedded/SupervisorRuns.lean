import Mathlib
import Postgamma.Embedded.SupervisorSections

/-!
# Runs of a supervisor

The life cycle of a supervisor: a section moves the state by at most one step forward or into the
failed state, and the first failure stays.  With that the invariant of the sections holds over every
run, and so do the books over the tickets.
-/

namespace Postgamma.Embedded

/-- The moves of the life cycle. -/
inductive SupervisorState.Follows : SupervisorState → SupervisorState → Prop
  | start : Follows .new .starting
  | recover : Follows .starting .recovering
  | boot : Follows .starting .ready
  | recovered : Follows .recovering .ready
  | quiesce : Follows .ready .quiescing
  | stop : Follows .quiescing .stopping
  | close : Follows .stopping .closed
  | fail {state : SupervisorState} : state ≠ .closed → Follows state .failed

theorem closed_not_follows (state : SupervisorState) : ¬ SupervisorState.closed.Follows state := by
  intro follows
  cases follows with
  | fail alive => exact alive rfl

theorem failed_follows {state : SupervisorState} (follows : SupervisorState.failed.Follows state) :
    state = .failed := by
  cases follows
  rfl

theorem not_follows_new (state : SupervisorState) : ¬ state.Follows .new := by
  intro follows
  cases follows

namespace Supervisor

/-- The recorded failure is the same, but for the demand of a restart. -/
def Remembers (before after : Option FailureRecord) : Prop :=
  ∀ record, before = some record →
    after = some record ∨ after = some { record with processRestartRequired := true }

/-- A section moves the state at most once and keeps the first failure. -/
structure Goes (before after : Supervisor) : Prop where
  state : after.state = before.state ∨ before.state.Follows after.state
  failure : Remembers before.lastFailure after.lastFailure

variable {supervisor before middle after : Supervisor} {phase : MainPhase} {sequence : ℕ}

theorem Remembers.refl (failure : Option FailureRecord) : Remembers failure failure :=
  fun _ found => .inl found

theorem Remembers.trans {first second third : Option FailureRecord} (left : Remembers first second)
    (right : Remembers second third) : Remembers first third := by
  intro record found
  obtain same | restart := left record found
  · exact right record same
  · obtain same | restart' := right _ restart
    · exact .inr same
    · exact .inr restart'

theorem Goes.refl (supervisor : Supervisor) : Goes supervisor supervisor :=
  ⟨.inl rfl, .refl _⟩

theorem Goes.of_stands (stands : Stands before after) : Goes before after :=
  ⟨.inl stands.state, stands.lastFailure ▸ .refl _⟩

/-- What only moves tickets may come behind a move of the state. -/
theorem Goes.stands (goes : Goes before middle) (stands : Stands middle after) :
    Goes before after :=
  ⟨stands.state ▸ goes.state, stands.lastFailure ▸ goes.failure⟩

/-- And in front of it. -/
theorem Stands.goes (stands : Stands before middle) (goes : Goes middle after) :
    Goes before after :=
  ⟨stands.state ▸ goes.state, stands.lastFailure ▸ goes.failure⟩

theorem Goes.withState {state : SupervisorState} (follows : supervisor.state.Follows state) :
    Goes supervisor (supervisor.withState state) :=
  ⟨.inr follows, .refl _⟩

theorem setFailed_goes (alive : supervisor.state ≠ .closed) (status : Status)
    (origin : FailureOrigin) (restart : Bool) (sequence : Option ℕ) :
    Goes supervisor (supervisor.setFailed status origin restart sequence) := by
  cases found : supervisor.lastFailure with
  | none =>
      simp only [setFailed, found]
      refine ⟨.inr (.fail alive), fun record same => ?_⟩
      rw [found] at same
      cases same
  | some record =>
      simp only [setFailed, found]
      split_ifs
      · refine ⟨.inl rfl, fun other same => .inr ?_⟩
        rw [found] at same
        rw [← Option.some.inj same]
      · exact .refl supervisor

theorem setFailed_recorded (failed : supervisor.lastFailure.isSome = true) (status : Status)
    (origin : FailureOrigin) (sequence : Option ℕ) :
    supervisor.setFailed status origin false sequence = supervisor := by
  obtain ⟨record, found⟩ := Option.isSome_iff_exists.1 failed
  simp only [setFailed, found]
  rfl

/-- The thread that has not exited belongs to a supervisor that is not closed. -/
theorem Sane.alive (sane : Sane supervisor phase) (running : phase ≠ .exited) :
    supervisor.state ≠ .closed := by
  intro closed
  have gone := (sane.staged.closed closed).2
  cases phase with
  | exited => exact running rfl
  | absent => exact absurd (sane.fits.2.symm.trans gone) (by decide)
  | awaiting => exact absurd (sane.fits.2.symm.trans gone) (by decide)
  | booting => exact absurd (sane.fits.2.symm.trans gone) (by decide)
  | running => exact absurd (sane.fits.2.symm.trans gone) (by decide)
  | waiting => exact absurd (sane.fits.2.2.symm.trans gone) (by decide)
  | dispatching => exact absurd (sane.fits.2.2.2.symm.trans gone) (by decide)
  | shutdownTaken => exact absurd (sane.fits.2.2.2.symm.trans gone) (by decide)
  | shuttingDown => exact absurd (sane.fits.2.2.2.symm.trans gone) (by decide)

/-- The exit of the thread moves tickets only. -/
theorem finish_goes (ledger : Ledger supervisor none) (recorded : Recorded supervisor)
    (ended : supervisor.state = .failed ∨
      supervisor.state = .closed ∧ supervisor.pending none = []) :
    supervisor.finish.supervisor.state = supervisor.state ∧
      supervisor.finish.supervisor.lastFailure = supervisor.lastFailure := by
  have exits : ∀ settled : Supervisor, Ledger settled none → settled.inflight = none →
      settled.state = supervisor.state → settled.lastFailure = supervisor.lastFailure →
      ({ (if settled.state = .failed then settled.rejectQueuedTickets eshutdown else settled) with
        mainExited := true } : Supervisor).state = supervisor.state ∧
      ({ (if settled.state = .failed then settled.rejectQueuedTickets eshutdown else settled) with
        mainExited := true } : Supervisor).lastFailure = supervisor.lastFailure := by
    intro settled ledger free state failure
    split_ifs
    · obtain ⟨-, -, stands⟩ := rejectLoop_empties eshutdown ledger free le_rfl
      exact ⟨stands.state.trans state, stands.lastFailure.trans failure⟩
    · exact ⟨state, failure⟩
  cases flying : supervisor.inflight with
  | none =>
      simp only [Supervisor.finish, flying]
      exact exits supervisor ledger flying rfl rfl
  | some sequence =>
      have failed : supervisor.state = .failed := by
        refine ended.resolve_right fun closed => ?_
        have empty := closed.2
        rw [pending, flying] at empty
        cases empty
      have stands := completeTicket_stands (supervisor.withInflight none) sequence eshutdown false
      have found : ((supervisor.withInflight none).completeTicket sequence eshutdown
          false).lastFailure.isSome = true := by
        rw [stands.lastFailure]
        exact recorded.2 failed
      simp only [Supervisor.finish, flying, completeTicket_withInflight]
      rw [setFailed_recorded found]
      exact exits _ ((ledger.land flying).complete eshutdown false)
        (completeTicket_inflight _ sequence eshutdown false) stands.state stands.lastFailure

theorem Goes.finish (goes : Goes before supervisor) (ledger : Ledger supervisor none)
    (recorded : Recorded supervisor) (ended : supervisor.state = .failed ∨
      supervisor.state = .closed ∧ supervisor.pending none = []) :
    Goes before supervisor.finish.supervisor := by
  obtain ⟨state, failure⟩ := finish_goes ledger recorded ended
  exact ⟨state ▸ goes.state, failure ▸ goes.failure⟩

/-- A failure in front of the exit. -/
theorem fail_finish_goes (alive : supervisor.state ≠ .closed) (ledger : Ledger supervisor none)
    (recorded : Recorded supervisor) (status : Status) (origin : FailureOrigin)
    (sequence : Option ℕ) :
    Goes supervisor (supervisor.setFailed status origin false sequence).finish.supervisor := by
  obtain ⟨failed, recorded', -⟩ := setFailed_failed recorded status origin false sequence
  exact (setFailed_goes alive status origin false sequence).finish
    ((setFailed_books supervisor status origin false sequence).ledger ledger) recorded'
    (.inl failed)

/-- The head of the loop moves tickets only. -/
theorem loop_stands (running : supervisor.state ≠ .failed) :
    Stands supervisor supervisor.loop.supervisor := by
  rw [Supervisor.loop, if_neg running]
  cases taken : supervisor.dequeueTicket with
  | none => exact .refl supervisor
  | some pair =>
      obtain ⟨sequence, rest⟩ := pair
      exact (dequeueTicket_stands taken).1.trans ⟨rfl, rfl, rfl, rfl⟩

theorem Goes.loop (goes : Goes before supervisor) (ledger : Ledger supervisor none)
    (recorded : Recorded supervisor) : Goes before supervisor.loop.supervisor := by
  by_cases failed : supervisor.state = .failed
  · rw [Supervisor.loop, if_pos failed]
    exact goes.finish ledger recorded (.inl failed)
  · exact goes.stands (loop_stands failed)

theorem Sane.awaitThread_goes {asleep : Bool} (sane : Sane supervisor (.awaiting asleep)) :
    Goes supervisor supervisor.awaitThread.supervisor := by
  rw [Supervisor.awaitThread]
  split_ifs with waits failed
  · exact .refl supervisor
  · exact (Goes.refl supervisor).finish sane.ledger sane.recorded (.inl failed)
  · exact .refl supervisor

theorem Sane.booted_goes (sane : Sane supervisor .booting) (status : Status) :
    Goes supervisor (supervisor.booted status).supervisor := by
  have alive := sane.alive (by simp)
  obtain ⟨books, -, recorded, -⟩ := sane.settleBoot status
  have goes : Goes supervisor (supervisor.settleBoot status) := by
    rw [Supervisor.settleBoot]
    split_ifs with failed mode mode' other
    · exact setFailed_goes alive status .boot false none
    · obtain starting | recovering := mode.2
      · exact Goes.withState (starting ▸ .boot)
      · exact Goes.withState (recovering ▸ .recovered)
    · exact .refl supervisor
    · exact setFailed_goes alive eproto .contract false none
    · exact .refl supervisor
  rw [booted_eq]
  split_ifs with failed
  · exact goes.finish (books.ledger sane.ledger) recorded (.inl failed)
  · exact goes
  · exact goes.loop (books.ledger sane.ledger) recorded

/-- STOPPING becomes CLOSED when nothing is left. -/
theorem close_goes (stopping : supervisor.state = .stopping) (ledger : Ledger supervisor none)
    (recorded : Recorded supervisor) (empty : supervisor.pending none = []) :
    Goes supervisor (supervisor.withState .closed).finish.supervisor := by
  have books := withState_books supervisor .closed
  have kept : Recorded (supervisor.withState .closed) :=
    recorded.withState (by rw [stopping]; decide) (by decide)
  have goes : Goes supervisor (supervisor.withState .closed) :=
    Goes.withState (stopping ▸ .close)
  exact goes.finish (books.ledger ledger) kept (.inr ⟨rfl, (books.pending none).trans empty⟩)

theorem Sane.ran_goes (sane : Sane supervisor .running) (status : Status) :
    Goes supervisor (supervisor.ran status).supervisor := by
  have alive := sane.alive (by simp)
  rw [Supervisor.ran]
  split_ifs with failed done running
  · exact fail_finish_goes alive sane.ledger sane.recorded status .run none
  · exact close_goes done.1 sane.ledger sane.recorded
      (pending_eq_nil done.2.1 (sane.staged.stopping done.1))
  · exact fail_finish_goes alive sane.ledger sane.recorded eproto .contract none
  · exact (Goes.refl supervisor).finish sane.ledger sane.recorded (.inl (not_not.1 running))

theorem Sane.dispatched_goes (sane : Sane supervisor (.dispatching sequence)) (status : Status) :
    Goes supervisor (supervisor.dispatched sequence status).supervisor := by
  obtain ⟨-, flying, calm, -⟩ := sane.fits
  obtain ⟨ledger, -, recorded, -, stands⟩ := sane.completed flying (fun _ => calm)
    (supervisor.reported (if supervisor.callbacks.dispatch then status else enotsup)) true
  exact (Goes.of_stands stands).loop ledger recorded

theorem Sane.allowShutdown_goes (sane : Sane supervisor (.shutdownTaken sequence)) :
    Goes supervisor (supervisor.allowShutdown sequence).supervisor := by
  rw [Supervisor.allowShutdown]
  split_ifs with quiescing
  · exact Goes.withState (quiescing ▸ .stop)
  · exact setFailed_goes (sane.alive (by simp)) eproto .contract false (some sequence)

theorem leave_goes (alive : supervisor.state ≠ .closed) (ledger : Ledger supervisor none)
    (staged : Staged supervisor none) (recorded : Recorded supervisor)
    (free : supervisor.inflight = none) (sequence : ℕ) (status : Status) :
    Goes supervisor (supervisor.leave sequence status).supervisor := by
  rw [Supervisor.leave]
  split_ifs with done running failed
  · exact close_goes done.2 ledger recorded (pending_eq_nil free (staged.stopping done.2))
  · exact fail_finish_goes alive ledger recorded _ .shutdown (some sequence)
  · exact fail_finish_goes alive ledger recorded _ .shutdown (some sequence)
  · exact (Goes.refl _).finish ledger recorded (.inl (not_not.1 running))

theorem Sane.shutDown_goes {allowed : Bool}
    (sane : Sane supervisor (.shuttingDown sequence allowed)) (status : Status) :
    Goes supervisor (supervisor.shutDown sequence allowed status).supervisor := by
  obtain ⟨-, flying, stopped, -⟩ := sane.fits
  have alive := sane.alive (by simp)
  have calm : supervisor.state = .quiescing → ¬ supervisor.Shuts sequence := by
    intro quiescing
    rw [quiescing] at stopped
    obtain stopping | failed := stopped
    · cases stopping
    · cases failed
  obtain ⟨ledger, staged, recorded, free, stands⟩ := sane.completed flying calm
    (supervisor.reported (if !allowed then eproto else if supervisor.callbacks.shutdown then status
      else 0)) true
  rw [← stands.state] at alive
  exact stands.goes (leave_goes alive ledger staged recorded free sequence _)

theorem Sane.mainSection_goes {status : Status} {next : MainSection} (sane : Sane supervisor phase)
    (done : supervisor.mainSection status phase = some next) : Goes supervisor next.supervisor := by
  cases phase with
  | absent => cases done
  | awaiting asleep =>
      cases asleep with
      | true => cases done
      | false =>
          obtain rfl := Option.some.inj done
          split_ifs
          · exact fail_finish_goes (sane.alive (by simp)) sane.ledger sane.recorded status .wait
              none
          · exact sane.awaitThread_goes
  | booting =>
      obtain rfl := Option.some.inj done
      exact sane.booted_goes _
  | running =>
      obtain rfl := Option.some.inj done
      exact sane.ran_goes status
  | waiting asleep =>
      cases asleep with
      | true => cases done
      | false =>
          obtain rfl := Option.some.inj done
          split_ifs
          · exact fail_finish_goes (sane.alive (by simp)) sane.ledger sane.recorded status .wait
              none
          · exact (Goes.refl supervisor).loop sane.ledger sane.recorded
  | dispatching sequence =>
      obtain rfl := Option.some.inj done
      exact sane.dispatched_goes status
  | shutdownTaken sequence =>
      obtain rfl := Option.some.inj done
      exact sane.allowShutdown_goes
  | shuttingDown sequence allowed =>
      obtain rfl := Option.some.inj done
      exact sane.shutDown_goes status
  | exited => cases done

theorem startSection_goes (supervisor : Supervisor) :
    Goes supervisor supervisor.startSection.supervisor := by
  rw [Supervisor.startSection]
  split_ifs with refused
  · exact .refl supervisor
  · have fresh : supervisor.state = .new := by simpa using (not_or.1 refused).1
    exact Goes.withState (fresh ▸ .start)

theorem markRecovering_goes (supervisor : Supervisor) :
    Goes supervisor supervisor.markRecovering.supervisor := by
  rw [Supervisor.markRecovering]
  split_ifs with early
  · exact .refl supervisor
  · exact Goes.withState (not_not.1 early ▸ .recover)

theorem markReady_goes (supervisor : Supervisor) :
    Goes supervisor supervisor.markReady.supervisor := by
  rw [Supervisor.markReady]
  split_ifs with late
  · exact .refl supervisor
  · obtain starting | recovering := not_and_or.1 late
    · exact Goes.withState (not_not.1 starting ▸ .boot)
    · exact Goes.withState (not_not.1 recovering ▸ .recovered)

/-- An accepted ticket moves no state. -/
theorem enqueue_stands {memory : Bool} {allocated : Supervisor} {ticket : Ticket}
    (allocates : supervisor.allocateTicket memory = .ok (sequence, allocated))
    (enqueues : allocated.enqueueTicket sequence ticket = .ok after) :
    Stands supervisor after := by
  rw [allocateTicket] at allocates
  split_ifs at allocates
  obtain ⟨rfl, rfl⟩ := Prod.mk.inj (Except.ok.inj allocates)
  rw [enqueueTicket] at enqueues
  split_ifs at enqueues
  obtain rfl := Except.ok.inj enqueues
  exact ⟨rfl, rfl, rfl, rfl⟩

theorem allocate_stands {memory : Bool} {allocated : Supervisor}
    (allocates : supervisor.allocateTicket memory = .ok (sequence, allocated)) :
    Stands supervisor allocated := by
  rw [allocateTicket] at allocates
  split_ifs at allocates
  obtain ⟨-, rfl⟩ := Prod.mk.inj (Except.ok.inj allocates)
  exact ⟨rfl, rfl, rfl, rfl⟩

theorem submit_stands (supervisor : Supervisor) (generation : ℕ) (kind : ControlKind)
    (payload : ℕ) (wake : Status) (memory : Bool) :
    Stands supervisor (supervisor.submit generation kind payload wake memory).supervisor := by
  rw [Supervisor.submit]
  split_ifs
  · exact .refl supervisor
  · exact .refl supervisor
  · exact .refl supervisor
  · exact .refl supervisor
  · exact .refl supervisor
  · cases allocates : supervisor.allocateTicket memory with
    | error status => exact .refl supervisor
    | ok pair =>
        obtain ⟨sequence, allocated⟩ := pair
        simp only
        cases enqueues : allocated.enqueueTicket sequence ⟨kind, .smart, payload, 0, false⟩ with
        | error status => exact allocate_stands allocates
        | ok enqueued => exact enqueue_stands allocates enqueues

theorem requestShutdown_goes (supervisor : Supervisor) (generation : ℕ) (mode : ShutdownMode)
    (wake : Status) (memory : Bool) :
    Goes supervisor (supervisor.requestShutdown generation mode wake memory).supervisor := by
  rw [Supervisor.requestShutdown]
  split_ifs with stale ready
  · exact .refl supervisor
  · exact .refl supervisor
  · exact .refl supervisor
  · exact .refl supervisor
  · cases allocates : supervisor.allocateTicket memory with
    | error status => exact .refl supervisor
    | ok pair =>
        obtain ⟨sequence, allocated⟩ := pair
        simp only
        cases enqueues : allocated.enqueueTicket sequence ⟨.shutdown, mode, 0, 0, false⟩ with
        | error status => exact .of_stands (allocate_stands allocates)
        | ok enqueued =>
            have stands := enqueue_stands allocates enqueues
            have follows : enqueued.state.Follows .quiescing := by
              rw [stands.state, not_not.1 ready]
              exact .quiesce
            exact stands.goes (Goes.withState follows)

theorem ticketDestroy_goes (supervisor : Supervisor) (sequence : ℕ) :
    Goes supervisor (supervisor.ticketDestroy sequence).supervisor := by
  rw [Supervisor.ticketDestroy]
  cases supervisor.tickets sequence with
  | none => exact .refl supervisor
  | some ticket =>
      simp only
      split_ifs
      · exact .refl supervisor
      · exact .refl supervisor
      · exact .of_stands ⟨rfl, rfl, rfl, rfl⟩

theorem fail_goes (supervisor : Supervisor) (status : Status) (restart : Bool) :
    Goes supervisor (supervisor.fail status restart).supervisor := by
  rw [Supervisor.fail]
  split_ifs with success closed
  · exact .refl supervisor
  · exact .refl supervisor
  · exact setFailed_goes closed status .hostFailStop restart supervisor.inflight

theorem violated_goes {rest : Supervisor} (alive : rest.state ≠ .closed) (sequence : ℕ) :
    Goes rest (rest.violated sequence).supervisor :=
  (setFailed_goes alive eproto .contract false (some sequence)).stands
    (completeTicket_stands _ sequence eproto false)

theorem controlTake_goes (alive : supervisor.state ≠ .closed) :
    Goes supervisor supervisor.controlTake.supervisor := by
  rw [Supervisor.controlTake]
  split_ifs
  · exact .refl supervisor
  · exact .refl supervisor
  · cases taken : supervisor.dequeueTicket with
    | none => exact .refl supervisor
    | some pair =>
        obtain ⟨sequence, rest⟩ := pair
        obtain ⟨stands, -⟩ := dequeueTicket_stands taken
        have alive' : rest.state ≠ .closed := by rwa [stands.state]
        refine stands.goes ?_
        simp only
        split_ifs with shuts early late
        · exact violated_goes alive' sequence
        · have follows : rest.state.Follows .stopping := not_not.1 early ▸ .stop
          exact (Goes.withState follows).stands ⟨rfl, rfl, rfl, rfl⟩
        · exact violated_goes alive' sequence
        · exact .of_stands ⟨rfl, rfl, rfl, rfl⟩

theorem controlComplete_goes (alive : supervisor.state ≠ .closed) (sequence : ℕ)
    (status : Status) :
    Goes supervisor (supervisor.controlComplete sequence status).supervisor := by
  rw [Supervisor.controlComplete]
  split_ifs
  · exact .refl supervisor
  · cases supervisor.tickets sequence with
    | none => exact .refl supervisor
    | some ticket =>
        have completed (failed : Supervisor) (goes : Goes supervisor failed) (reported : Status) :
            Goes supervisor ((failed.completeTicket sequence reported true).withInflight none) :=
          (goes.stands (completeTicket_stands failed sequence reported true)).stands
            ⟨rfl, rfl, rfl, rfl⟩
        simp only
        split
        · exact .refl supervisor
        · split
          · exact .refl supervisor
          · refine completed _ ?_ _
            split_ifs
            · exact setFailed_goes alive status .shutdown false (some sequence)
            · exact .refl supervisor

end Supervisor

namespace Supervisor

/-- A wakeup of the thread does not move it. -/
theorem Sane.woken {supervisor : Supervisor} {phase : MainPhase}
    (sane : supervisor.Sane phase) : supervisor.Sane phase.woken := by
  cases phase with
  | awaiting asleep => exact ⟨sane.ledger, sane.staged, sane.recorded, sane.fits⟩
  | waiting asleep => exact ⟨sane.ledger, sane.staged, sane.recorded, sane.fits⟩
  | absent => exact sane
  | booting => exact sane
  | running => exact sane
  | dispatching => exact sane
  | shutdownTaken => exact sane
  | shuttingDown => exact sane
  | exited => exact sane

/-- The ends of a join change neither books nor state. -/
theorem joinDone_same (supervisor : Supervisor) (status : Status) :
    SameBooks supervisor (supervisor.joinDone status).supervisor ∧
      Stands supervisor (supervisor.joinDone status).supervisor := by
  rw [joinDone]
  split_ifs
  · exact ⟨⟨rfl, rfl, rfl, rfl, rfl, rfl, rfl, rfl, rfl, rfl, rfl, rfl, rfl⟩, ⟨rfl, rfl, rfl, rfl⟩⟩
  · exact ⟨⟨rfl, rfl, rfl, rfl, rfl, rfl, rfl, rfl, rfl, rfl, rfl, rfl, rfl⟩, ⟨rfl, rfl, rfl, rfl⟩⟩

theorem joinSection_same {before after : Supervisor} (joined : before.joinSection = .ok after) :
    SameBooks before after ∧ Stands before after := by
  rw [joinSection] at joined
  split_ifs at joined
  obtain rfl := Except.ok.inj joined
  exact ⟨⟨rfl, rfl, rfl, rfl, rfl, rfl, rfl, rfl, rfl, rfl, rfl, rfl, rfl⟩, ⟨rfl, rfl, rfl, rfl⟩⟩

theorem create_sane {options : SupervisorOptions} {supervisor : Supervisor}
    (created : create options = .ok supervisor) : supervisor.Sane .absent := by
  rw [create] at created
  split_ifs at created with refused
  obtain rfl := Except.ok.inj created
  have room : 0 < options.capacity := by
    have least := (not_or.1 (not_or.1 refused).2).1
    omega
  exact
    { ledger :=
        { order := rfl
          increasing := List.Pairwise.nil
          below := fun _ member => absurd member List.not_mem_nil
          head := room
          full := Nat.zero_le _
          incomplete := fun _ member => absurd member List.not_mem_nil
          known := fun _ _ found => by cases found
          gone := fun _ member => absurd member List.not_mem_nil
          once := List.nodup_nil
          submitted := rfl
          limit := Nat.zero_le _
          completed := rfl
          active := rfl }
      staged :=
        { early := fun _ => rfl
          ready := fun ready => by cases ready
          quiescing := fun quiescing => by cases quiescing
          stopping := fun stopping => by cases stopping
          closed := fun closed => by cases closed }
      recorded := ⟨fun found => (by cases found), fun failed => (by cases failed)⟩
      fits := ⟨rfl, rfl⟩ }

end Supervisor

namespace SupervisorSystem

variable {ι : Type} [DecidableEq ι] {system after : SupervisorSystem ι}

open Supervisor

/-- The invariant of the runs: at most one client creates the thread, and only once. -/
structure Orderly (system : SupervisorSystem ι) : Prop where
  sane : system.supervisor.Sane system.main
  reserved : system.supervisor.Reserved
  fresh : system.supervisor.state = .new →
    system.main = .absent ∧ ∀ client, system.clients client ≠ .creating
  creating : ∀ client, system.clients client = .creating → system.main = .absent ∧
    ∀ other, system.clients other = .creating → other = client

/-- No client begins to create the thread, and nothing happens to a thread that is absent. -/
structure Settles (system after : SupervisorSystem ι) : Prop where
  clients : ∀ client, after.clients client = .creating → system.clients client = .creating
  main : system.main = .absent → after.main = .absent

theorem woken_creating {phase : ClientPhase} (creating : phase.woken = .creating) :
    phase = .creating := by
  cases phase with
  | creating => rfl
  | idle => cases creating
  | created => cases creating
  | readyWait => cases creating
  | ticketWait => cases creating
  | joinWait => cases creating
  | joinThread => cases creating

theorem move_settles {phase : ClientPhase} (client : ι) (apart : phase ≠ .creating) :
    Settles system (system.move client phase) := by
  refine ⟨fun other creating => ?_, id⟩
  obtain rfl | different := eq_or_ne other client
  · exact absurd ((Function.update_self ..).symm.trans creating) apart
  · exact (Function.update_of_ne different ..).symm.trans creating

theorem Woken.settles {wake : Wake} {woken : Option (Option ι)}
    (wakes : Woken system wake woken after) : Settles system after := by
  have main_woken : system.main = .absent → system.main.woken = .absent := fun absent => by
    rw [absent]
    rfl
  cases wakes with
  | nobody => exact ⟨fun _ => id, id⟩
  | @one sleeper asleep =>
      cases sleeper with
      | none => exact ⟨fun _ => id, main_woken⟩
      | some client =>
          refine ⟨fun other creating => ?_, id⟩
          obtain rfl | different := eq_or_ne other client
          · exact woken_creating ((Function.update_self ..).symm.trans creating)
          · exact (Function.update_of_ne different ..).symm.trans creating
  | lost => exact ⟨fun _ => id, id⟩
  | everybody => exact ⟨fun _ creating => woken_creating creating, main_woken⟩

theorem evaluate_settles (client : ι) (phase : ClientPhase) :
    Settles system (system.evaluate client phase) := by
  cases phase with
  | readyWait =>
      refine move_settles client ?_
      split_ifs <;> simp
  | ticketWait =>
      refine move_settles client ?_
      split_ifs <;> simp
  | joinWait =>
      refine move_settles client ?_
      split_ifs <;> simp
  | idle => exact ⟨fun _ => id, id⟩
  | creating => exact ⟨fun _ => id, id⟩
  | created => exact ⟨fun _ => id, id⟩
  | joinThread => exact ⟨fun _ => id, id⟩

omit [DecidableEq ι] in
theorem Settles.trans {middle : SupervisorSystem ι} (first : Settles system middle)
    (second : Settles middle after) : Settles system after :=
  ⟨fun client creating => first.clients client (second.clients client creating),
    fun absent => second.main (first.main absent)⟩

/-- What a section does to the supervisor and its thread. -/
structure Advances (system after : SupervisorSystem ι) : Prop where
  sane : after.supervisor.Sane after.main
  goes : Goes system.supervisor after.supervisor

theorem Woken.advances {supervisor : Supervisor} {wake : Wake} {woken : Option (Option ι)}
    (wakes : Woken (system.put supervisor) wake woken after)
    (sane : supervisor.Sane system.main) (goes : Goes system.supervisor supervisor) :
    Advances system after := by
  refine ⟨?_, by rw [wakes.supervisor]; exact goes⟩
  cases wakes with
  | nobody => exact sane
  | @one sleeper asleep =>
      cases sleeper with
      | none => exact Sane.woken sane
      | some client => exact sane
  | lost => exact sane
  | everybody => exact Sane.woken sane

theorem evaluate_advances {middle : SupervisorSystem ι} (advances : Advances system middle)
    (client : ι) (phase : ClientPhase) : Advances system (middle.evaluate client phase) := by
  have main : (middle.evaluate client phase).main = middle.main := by
    cases phase <;> rfl
  exact ⟨by rw [evaluate_supervisor, main]; exact advances.sane,
    by rw [evaluate_supervisor]; exact advances.goes⟩

/-- Every step but the creation of the thread keeps the invariant of the sections. -/
theorem Step.advances {action : SupervisorAction ι} (step : Step system action after)
    (orderly : system.Orderly) : Advances system after := by
  have sane := orderly.sane
  have reserved := orderly.reserved
  have running (called : system.main.inCallback = true) : system.supervisor.state ≠ .closed := by
    refine sane.alive fun exited => ?_
    rw [exited] at called
    cases called
  cases step with
  | start => exact ⟨Sane.startSection sane, startSection_goes _⟩
  | @createThread client creating =>
      have absent := (orderly.creating client creating).1
      rw [absent] at sane
      exact ⟨⟨sane.ledger, sane.staged, sane.recorded, sane.fits⟩, .refl _⟩
  | startFailed creating =>
      rename_i client status failed
      have absent := (orderly.creating client creating).1
      have alive : system.supervisor.state ≠ .closed := sane.alive (by rw [absent]; simp)
      exact ⟨Sane.woken (sane.setFailed ..), setFailed_goes alive ..⟩
  | startThread =>
      have recorded : system.supervisor.startThread.supervisor.Sane system.main := sane.same
        ⟨rfl, rfl, rfl, rfl, rfl, rfl, rfl, rfl, rfl, rfl, rfl, rfl, rfl⟩ ⟨rfl, rfl, rfl, rfl⟩
      have middle : Advances system
          (system.put system.supervisor.startThread.supervisor).wakeAll :=
        ⟨Sane.woken recorded, .of_stands ⟨rfl, rfl, rfl, rfl⟩⟩
      exact evaluate_advances middle _ _
  | submit wakes => exact wakes.advances (sane.submit reserved ..) (.of_stands (submit_stands ..))
  | requestShutdown wakes =>
      exact wakes.advances (sane.requestShutdown reserved ..) (requestShutdown_goes ..)
  | ticketWait => exact evaluate_advances ⟨sane, .refl _⟩ _ _
  | ticketDestroy => exact ⟨sane.ticketDestroy _, ticketDestroy_goes ..⟩
  | fail wakes => exact wakes.advances (sane.fail ..) (fail_goes ..)
  | @join client waited idle joined =>
      obtain ⟨books, stands⟩ := joinSection_same joined
      have middle : Advances system (system.put waited) :=
        ⟨sane.same books stands, .of_stands stands⟩
      exact evaluate_advances middle _ _
  | @joined client status =>
      obtain ⟨books, stands⟩ := joinDone_same system.supervisor status
      exact ⟨sane.same books stands, .of_stands stands⟩
  | awake => exact evaluate_advances ⟨sane, .refl _⟩ _ _
  | @timeout client waits =>
      cases phase : system.clients client with
      | joinWait asleep =>
          exact ⟨sane.same ⟨rfl, rfl, rfl, rfl, rfl, rfl, rfl, rfl, rfl, rfl, rfl, rfl, rfl⟩
            ⟨rfl, rfl, rfl, rfl⟩, .of_stands ⟨rfl, rfl, rfl, rfl⟩⟩
      | _ => exact ⟨sane, .refl _⟩
  | @spurious sleeper asleep =>
      cases sleeper with
      | none => exact ⟨Sane.woken sane, .refl _⟩
      | some client => exact ⟨sane, .refl _⟩
  | markRecovering called wakes =>
      exact wakes.advances sane.markRecovering (markRecovering_goes _)
  | markReady called mode wakes => exact wakes.advances sane.markReady (markReady_goes _)
  | controlTake called mode wakes =>
      exact wakes.advances (sane.controlTake called mode) (controlTake_goes (running called))
  | controlComplete called mode wakes =>
      exact wakes.advances (sane.controlComplete called mode ..)
        (controlComplete_goes (running called) ..)
  | @main status next woken done wakes =>
      have same : woken.supervisor = next.supervisor := wakes.supervisor
      refine ⟨?_, ?_⟩
      · change woken.supervisor.Sane next.phase
        rw [same]
        exact sane.mainSection done
      · change Goes system.supervisor woken.supervisor
        rw [same]
        exact sane.mainSection_goes done

/-- Every step but the first two of a start settles. -/
theorem Step.settles {action : SupervisorAction ι} (step : Step system action after) :
    (∃ client, action = .start client ∨ action = .createThread client) ∨ Settles system after := by
  cases step with
  | @start client => exact .inl ⟨client, .inl rfl⟩
  | @createThread client => exact .inl ⟨client, .inr rfl⟩
  | @startFailed client status =>
      have left : Settles system ((system.put
          (system.supervisor.startFailed status).supervisor).move client .idle) :=
        ⟨(move_settles client (by simp)).clients, id⟩
      exact .inr (left.trans (Woken.everybody none).settles)
  | @startThread client =>
      have woken : Settles system (system.put system.supervisor.startThread.supervisor).wakeAll :=
        ⟨(Woken.everybody none).settles.clients, (Woken.everybody none).settles.main⟩
      exact .inr (woken.trans (evaluate_settles _ _))
  | submit wakes => exact .inr ⟨wakes.settles.clients, wakes.settles.main⟩
  | requestShutdown wakes => exact .inr ⟨wakes.settles.clients, wakes.settles.main⟩
  | ticketWait => exact .inr (evaluate_settles _ _)
  | ticketDestroy => exact .inr ⟨fun _ => id, id⟩
  | fail wakes => exact .inr ⟨wakes.settles.clients, wakes.settles.main⟩
  | @join client waited =>
      have stored : Settles system (system.put waited) := ⟨fun _ => id, id⟩
      exact .inr (stored.trans (evaluate_settles _ _))
  | @joined client status =>
      have stored : Settles system (system.put (system.supervisor.joinDone status).supervisor) :=
        ⟨fun _ => id, id⟩
      exact .inr (stored.trans (move_settles client (by simp)))
  | awake => exact .inr (evaluate_settles _ _)
  | @timeout client waits =>
      cases phase : system.clients client with
      | joinWait asleep =>
          have stored : Settles system
              (system.put { system.supervisor with joining := false }) := ⟨fun _ => id, id⟩
          exact .inr (stored.trans (move_settles client (by simp)))
      | _ => exact .inr (move_settles client (by simp))
  | spurious asleep => exact .inr (Woken.one asleep).settles
  | markRecovering called wakes => exact .inr ⟨wakes.settles.clients, wakes.settles.main⟩
  | markReady called mode wakes => exact .inr ⟨wakes.settles.clients, wakes.settles.main⟩
  | controlTake called mode wakes => exact .inr ⟨wakes.settles.clients, wakes.settles.main⟩
  | controlComplete called mode wakes => exact .inr ⟨wakes.settles.clients, wakes.settles.main⟩
  | @main status next woken done wakes =>
      refine .inr ⟨wakes.settles.clients, fun absent => ?_⟩
      rw [absent] at done
      cases done

/-- A step keeps the invariant. -/
theorem Step.orderly {action : SupervisorAction ι} (step : Step system action after)
    (orderly : system.Orderly) : after.Orderly := by
  have advances := step.advances orderly
  have reserved := (step.reserved orderly.reserved).1
  have was_new (now : after.supervisor.state = .new) : system.supervisor.state = .new := by
    obtain same | follows := advances.goes.state
    · exact same.symm.trans now
    · exact absurd (now ▸ follows) (not_follows_new _)
  obtain ⟨client, rfl | rfl⟩ | settles := step.settles
  · cases step with
    | start idle success =>
        have fresh : system.supervisor.state = .new ∧
            system.supervisor.startSection.supervisor.state = .starting := by
          rw [startSection] at success ⊢
          split_ifs at success ⊢ with refused
          · exact absurd success (by simp [refuse, ealready])
          · exact ⟨not_not.1 (not_or.1 refused).1, rfl⟩
        obtain ⟨absent, others⟩ := orderly.fresh fresh.1
        have alone (other : ι)
            (creating : Function.update system.clients client .creating other = .creating) :
            other = client := by
          by_contra apart
          rw [Function.update_of_ne apart] at creating
          exact others other creating
        refine ⟨advances.sane, reserved, fun now => ?_, fun first creating => ⟨absent, ?_⟩⟩
        · exact absurd (fresh.2.symm.trans now) (by decide)
        · intro second creating'
          rw [alone first creating, alone second creating']
  · cases step with
    | createThread creating =>
        obtain ⟨absent, alone⟩ := orderly.creating client creating
        refine ⟨advances.sane, reserved, fun now => ?_, fun first creating' => ?_⟩
        · exact absurd creating ((orderly.fresh now).2 client)
        · have apart : first ≠ client := by
            rintro rfl
            have moved := (Function.update_self ..).symm.trans creating'
            cases moved
          have before : system.clients first = .creating :=
            (Function.update_of_ne apart ..).symm.trans creating'
          exact absurd (alone first before) apart
  · refine ⟨advances.sane, reserved, fun now => ?_, fun client creating => ?_⟩
    · obtain ⟨absent, none_creating⟩ := orderly.fresh (was_new now)
      exact ⟨settles.main absent, fun client creating =>
        none_creating client (settles.clients client creating)⟩
    · obtain ⟨absent, alone⟩ := orderly.creating client (settles.clients client creating)
      exact ⟨settles.main absent, fun other creating' =>
        alone other (settles.clients other creating')⟩

theorem Reachable.orderly {options : SupervisorOptions} (reachable : Reachable options system) :
    system.Orderly := by
  induction reachable with
  | init created =>
      exact ⟨create_sane created, (create_reserved created).1,
        fun _ => ⟨rfl, fun _ creating => by cases creating⟩, fun _ creating => by cases creating⟩
  | step reachable step induction => exact step.orderly induction

/-! ## The tickets and the life cycle of a run -/

/-- Behind any run the completions, the control in flight and the queue are the accepted tickets in
the order of their sequence numbers; all of them are completed when the thread has exited; executed
tickets are completed in increasing order; and the counters count the lists. -/
theorem tickets_conserved {options : SupervisorOptions} (reachable : Reachable options system) :
    (system.supervisor.accepted = system.supervisor.log.map Prod.fst ++
      (system.supervisor.inflight.toList ++ system.supervisor.queued)) ∧
    system.supervisor.accepted.Pairwise (· < ·) ∧
    (system.supervisor.mainExited = true →
      system.supervisor.log.map Prod.fst = system.supervisor.accepted) ∧
    ((system.supervisor.log.filter Prod.snd).map Prod.fst).Pairwise (· < ·) ∧
    system.supervisor.submitted = system.supervisor.accepted.length ∧
    system.supervisor.completed = system.supervisor.log.length ∧
    system.supervisor.activeTickets + system.supervisor.destroyed.length =
      system.supervisor.accepted.length ∧
    system.supervisor.destroyed.Nodup ∧
    ∀ sequence ∈ system.supervisor.destroyed, sequence ∈ system.supervisor.log.map Prod.fst := by
  have sane := reachable.orderly.sane
  have ledger := sane.ledger
  have order : system.supervisor.accepted = system.supervisor.log.map Prod.fst ++
      (system.supervisor.inflight.toList ++ system.supervisor.queued) := ledger.order
  refine ⟨order, ledger.increasing, fun gone => ?_, ?_, ledger.submitted, ledger.completed,
    ledger.active, ledger.once, fun sequence member => (ledger.gone sequence member).1⟩
  · have empty : system.supervisor.pending none = [] := by
      cases place : system.main with
      | exited =>
          have fits := sane.fits
          rw [place] at fits
          exact fits.2.1
      | _ =>
          have fits := sane.fits
          rw [place] at fits
          simp [Fits, gone] at fits
    rw [ledger.order, empty, List.append_nil]
  · have increasing := ledger.increasing
    rw [order] at increasing
    have logged := (List.pairwise_append.1 increasing).1
    exact logged.sublist ((List.filter_sublist).map Prod.fst)

/-- A client submits a control to a supervisor that waits, and the thread dispatches it. -/
theorem dispatched_reachable : ∃ system : SupervisorSystem Unit,
    Reachable smallOptions system ∧ system.supervisor.accepted = [1] ∧
      system.supervisor.depth = 0 ∧ system.supervisor.inflight = none ∧
      system.supervisor.state = .ready ∧ system.main = .waiting true := by
  have created := @Reachable.init Unit _ smallOptions _ rfl
  have started := created.step (@Step.start Unit _ _ () rfl rfl)
  have threaded := started.step (@Step.createThread Unit _ _ () rfl)
  have recorded := threaded.step (@Step.startThread Unit _ _ () rfl)
  have booting := recorded.step (@Step.main Unit _ _ 0 _ _ rfl (.nobody none))
  have waiting := booting.step (@Step.main Unit _ _ 0 _ _ rfl (.everybody none))
  have submitted := waiting.step
    (@Step.submit Unit _ _ 1 .connect 0 0 true (some none) _ (@Woken.one Unit _ _ none rfl))
  have taken := submitted.step (@Step.main Unit _ _ 0 _ _ rfl (.nobody none))
  have dispatched := taken.step (@Step.main Unit _ _ 0 _ _ rfl (.everybody none))
  exact ⟨_, dispatched, rfl, rfl, rfl, rfl, rfl⟩

/-- The dispatched ticket is completed. -/
theorem tickets_conserved_dispatched : ∃ system : SupervisorSystem Unit,
    system.supervisor.log.map Prod.fst = [1] := by
  obtain ⟨system, reachable, accepted, depth, inflight, -⟩ := dispatched_reachable
  have order := (tickets_conserved reachable).1
  rw [accepted, inflight, queued, depth] at order
  exact ⟨system, by simpa using order.symm⟩

end SupervisorSystem
end Postgamma.Embedded
