import Mathlib
import Postgamma.Embedded.Supervisor

/-!
# The slot that is kept for the shutdown

Only `submit` and `request_shutdown` put a ticket into the queue, both of a supervisor that is
ready, and `submit` leaves one slot free.  All other sections shrink the queue and lead to READY only
from the states in front of it.
-/

namespace Postgamma.Embedded

/-- The states in front of READY. -/
def SupervisorState.Early (state : SupervisorState) : Prop :=
  state = .new ∨ state = .starting ∨ state = .recovering

namespace Supervisor

/-- What holds of the queue: it is empty in front of READY, and a slot is free in READY. -/
structure Reserved (supervisor : Supervisor) : Prop where
  capacity : 2 ≤ supervisor.capacity
  full : supervisor.depth ≤ supervisor.capacity
  early : supervisor.state.Early → supervisor.depth = 0
  ready : supervisor.state = .ready → supervisor.depth + 1 ≤ supervisor.capacity

/-- A section that adds no ticket and does not go back to READY. -/
structure Shrinks (before after : Supervisor) : Prop where
  capacity : after.capacity = before.capacity
  depth : after.depth ≤ before.depth
  early : after.state.Early → before.state.Early
  ready : after.state = .ready → before.state.Early ∨ before.state = .ready

variable {supervisor before middle after : Supervisor}

theorem Shrinks.refl (supervisor : Supervisor) : Shrinks supervisor supervisor :=
  ⟨rfl, le_rfl, id, .inr⟩

theorem Shrinks.trans (first : Shrinks before middle) (second : Shrinks middle after) :
    Shrinks before after where
  capacity := second.capacity.trans first.capacity
  depth := second.depth.trans first.depth
  early := first.early ∘ second.early
  ready := fun ready => (second.ready ready).elim (fun early => .inl (first.early early)) first.ready

theorem Reserved.shrinks (reserved : Reserved before) (shrinks : Shrinks before after) :
    Reserved after where
  capacity := shrinks.capacity ▸ reserved.capacity
  full := by
    rw [shrinks.capacity]
    exact shrinks.depth.trans reserved.full
  early := fun early => by
    have empty := reserved.early (shrinks.early early)
    have less := shrinks.depth
    omega
  ready := fun ready => by
    have less := shrinks.depth
    have room := reserved.capacity
    rw [shrinks.capacity]
    rcases shrinks.ready ready with early | ready
    · have empty := reserved.early early
      omega
    · have free := reserved.ready ready
      omega

theorem create_reserved {options : SupervisorOptions} (created : create options = .ok supervisor) :
    supervisor.Reserved ∧ supervisor.capacity = options.capacity := by
  rw [create] at created
  split_ifs at created with refused
  obtain rfl := Except.ok.inj created
  simp only [not_or, not_lt] at refused
  exact ⟨⟨refused.2.1, Nat.zero_le _, fun _ => rfl, by rintro ⟨⟩⟩, rfl⟩

theorem failed_not_early : ¬SupervisorState.failed.Early := by
  rintro (new | starting | recovering)
  · cases new
  · cases starting
  · cases recovering

theorem setFailed_shrinks (supervisor : Supervisor) (status : Status) (origin : FailureOrigin)
    (restart : Bool) (sequence : Option ℕ) :
    Shrinks supervisor (supervisor.setFailed status origin restart sequence) := by
  cases recorded : supervisor.lastFailure with
  | none =>
      simp only [setFailed, recorded]
      exact ⟨rfl, le_rfl, fun early => absurd early failed_not_early, by rintro ⟨⟩⟩
  | some record =>
      simp only [setFailed, recorded]
      split_ifs
      · exact ⟨rfl, le_rfl, id, .inr⟩
      · exact Shrinks.refl supervisor

theorem completeTicket_shrinks (supervisor : Supervisor) (sequence : ℕ) (status : Status)
    (executed : Bool) :
    Shrinks supervisor (supervisor.completeTicket sequence status executed) := by
  cases found : supervisor.tickets sequence with
  | none =>
      simp only [completeTicket, found]
      exact Shrinks.refl supervisor
  | some ticket =>
      simp only [completeTicket, found]
      split_ifs <;> exact ⟨rfl, le_rfl, id, .inr⟩

theorem dequeueTicket_shrinks {sequence : ℕ}
    (taken : before.dequeueTicket = some (sequence, after)) : Shrinks before after := by
  rw [dequeueTicket] at taken
  split_ifs at taken
  cases taken
  exact ⟨rfl, Nat.sub_le _ _, id, .inr⟩

theorem rejectLoop_shrinks (status : Status) (count : ℕ) (supervisor : Supervisor) :
    Shrinks supervisor (rejectLoop status count supervisor) := by
  induction count generalizing supervisor with
  | zero => exact Shrinks.refl supervisor
  | succ count induction =>
      rw [rejectLoop]
      cases taken : supervisor.dequeueTicket with
      | none => exact Shrinks.refl supervisor
      | some pair =>
          obtain ⟨sequence, rest⟩ := pair
          exact (dequeueTicket_shrinks taken).trans
            ((completeTicket_shrinks rest sequence status false).trans (induction _))

theorem setInflight_shrinks (supervisor : Supervisor) (inflight : Option ℕ) :
    Shrinks supervisor (supervisor.withInflight inflight) :=
  ⟨rfl, le_rfl, id, .inr⟩

/-- A move to a state behind READY. -/
theorem setState_shrinks (supervisor : Supervisor) {state : SupervisorState}
    (late : ¬state.Early) (behind : state ≠ .ready) :
    Shrinks supervisor (supervisor.withState state) :=
  ⟨rfl, le_rfl, fun early => absurd early late, fun ready => absurd ready behind⟩

/-- A move among the states up to READY from one in front of it. -/
theorem setState_early (supervisor : Supervisor) {state : SupervisorState}
    (early : supervisor.state.Early) : Shrinks supervisor (supervisor.withState state) :=
  ⟨rfl, le_rfl, fun _ => early, fun _ => .inl early⟩

theorem finish_shrinks (supervisor : Supervisor) :
    Shrinks supervisor supervisor.finish.supervisor := by
  have exits : ∀ state : Supervisor, Shrinks state
      { (if state.state = .failed then state.rejectQueuedTickets eshutdown else state) with
        mainExited := true } := by
    intro state
    split_ifs
    · have rejected := rejectLoop_shrinks eshutdown state.depth state
      exact ⟨rejected.capacity, rejected.depth, rejected.early, rejected.ready⟩
    · exact ⟨rfl, le_rfl, id, .inr⟩
  cases taken : supervisor.inflight with
  | none =>
      simp only [finish, taken]
      exact exits supervisor
  | some sequence =>
      simp only [finish, taken]
      exact (completeTicket_shrinks supervisor sequence eshutdown false).trans
        ((setInflight_shrinks _ none).trans ((setFailed_shrinks _ _ _ _ _).trans (exits _)))

theorem loop_shrinks (supervisor : Supervisor) : Shrinks supervisor supervisor.loop.supervisor := by
  rw [loop]
  split_ifs
  · exact finish_shrinks supervisor
  · cases taken : supervisor.dequeueTicket with
    | none => exact Shrinks.refl supervisor
    | some pair =>
        obtain ⟨sequence, rest⟩ := pair
        exact (dequeueTicket_shrinks taken).trans (setInflight_shrinks rest (some sequence))

theorem awaitThread_shrinks (supervisor : Supervisor) :
    Shrinks supervisor supervisor.awaitThread.supervisor := by
  rw [awaitThread]
  split_ifs
  · exact Shrinks.refl supervisor
  · exact finish_shrinks supervisor
  · exact Shrinks.refl supervisor

theorem waitFailed_shrinks (supervisor : Supervisor) (status : Status) :
    Shrinks supervisor (supervisor.waitFailed status).supervisor :=
  (setFailed_shrinks supervisor status .wait false none).trans (finish_shrinks _)

theorem booted_shrinks (supervisor : Supervisor) (status : Status) :
    Shrinks supervisor (supervisor.booted status).supervisor := by
  have goes : ∀ settled : Supervisor, Shrinks settled
      (if settled.state = .failed then settled.finish
        else if supervisor.callbacks.run then ⟨settled, .running, .everybody⟩
        else { settled.loop with wake := .everybody } : MainSection).supervisor := by
    intro settled
    split_ifs
    · exact finish_shrinks settled
    · exact Shrinks.refl settled
    · exact loop_shrinks settled
  rw [booted]
  refine Shrinks.trans ?_ (goes _)
  split_ifs with failed ready
  · exact setFailed_shrinks supervisor status .boot false none
  · exact setState_early supervisor (.inr ready.2)
  · exact Shrinks.refl supervisor
  · exact setFailed_shrinks supervisor eproto .contract false none
  · exact Shrinks.refl supervisor

theorem ran_shrinks (supervisor : Supervisor) (status : Status) :
    Shrinks supervisor (supervisor.ran status).supervisor := by
  rw [ran]
  split_ifs
  · exact (setFailed_shrinks supervisor status .run false none).trans (finish_shrinks _)
  · exact (setState_shrinks supervisor (by simp [SupervisorState.Early]) (by simp)).trans
      (finish_shrinks _)
  · exact (setFailed_shrinks supervisor eproto .contract false none).trans (finish_shrinks _)
  · exact finish_shrinks supervisor

theorem dispatched_shrinks (supervisor : Supervisor) (sequence : ℕ) (status : Status) :
    Shrinks supervisor (supervisor.dispatched sequence status).supervisor :=
  (completeTicket_shrinks supervisor sequence _ true).trans
    ((setInflight_shrinks _ none).trans (loop_shrinks _))

theorem allowShutdown_shrinks (supervisor : Supervisor) (sequence : ℕ) :
    Shrinks supervisor (supervisor.allowShutdown sequence).supervisor := by
  rw [allowShutdown]
  split_ifs
  · exact setState_shrinks supervisor (by simp [SupervisorState.Early]) (by simp)
  · exact setFailed_shrinks supervisor eproto .contract false (some sequence)

theorem leave_shrinks (supervisor : Supervisor) (sequence : ℕ) (status : Status) :
    Shrinks supervisor (supervisor.leave sequence status).supervisor := by
  rw [leave]
  split_ifs
  · exact (setState_shrinks supervisor (by simp [SupervisorState.Early]) (by simp)).trans
      (finish_shrinks _)
  all_goals
    first
    | exact finish_shrinks supervisor
    | exact (setFailed_shrinks supervisor _ .shutdown false (some sequence)).trans
        (finish_shrinks _)

theorem shutDown_shrinks (supervisor : Supervisor) (sequence : ℕ) (allowed : Bool)
    (status : Status) :
    Shrinks supervisor (supervisor.shutDown sequence allowed status).supervisor :=
  (completeTicket_shrinks supervisor sequence _ true).trans
    ((setInflight_shrinks _ none).trans (leave_shrinks _ sequence _))

theorem mainSection_shrinks {status : Status} {phase : MainPhase} {next : MainSection}
    (done : supervisor.mainSection status phase = some next) :
    Shrinks supervisor next.supervisor := by
  cases phase with
  | absent => cases done
  | awaiting asleep =>
      cases asleep with
      | true => cases done
      | false =>
          obtain rfl := Option.some.inj done
          split_ifs
          · exact waitFailed_shrinks supervisor status
          · exact awaitThread_shrinks supervisor
  | booting =>
      obtain rfl := Option.some.inj done
      exact booted_shrinks supervisor _
  | running =>
      obtain rfl := Option.some.inj done
      exact ran_shrinks supervisor status
  | waiting asleep =>
      cases asleep with
      | true => cases done
      | false =>
          obtain rfl := Option.some.inj done
          split_ifs
          · exact waitFailed_shrinks supervisor status
          · exact loop_shrinks supervisor
  | dispatching sequence =>
      obtain rfl := Option.some.inj done
      exact dispatched_shrinks supervisor sequence status
  | shutdownTaken sequence =>
      obtain rfl := Option.some.inj done
      exact allowShutdown_shrinks supervisor sequence
  | shuttingDown sequence allowed =>
      obtain rfl := Option.some.inj done
      exact shutDown_shrinks supervisor sequence allowed status
  | exited => cases done

theorem startSection_shrinks (supervisor : Supervisor) :
    Shrinks supervisor supervisor.startSection.supervisor := by
  rw [startSection]
  split_ifs with refused
  · exact Shrinks.refl supervisor
  · simp only [not_or, not_not] at refused
    exact setState_early supervisor (.inl refused.1)

theorem ticketDestroy_shrinks (supervisor : Supervisor) (sequence : ℕ) :
    Shrinks supervisor (supervisor.ticketDestroy sequence).supervisor := by
  cases found : supervisor.tickets sequence with
  | none =>
      simp only [ticketDestroy, found]
      exact Shrinks.refl supervisor
  | some ticket =>
      simp only [ticketDestroy, found]
      split_ifs <;> exact ⟨rfl, le_rfl, id, .inr⟩

theorem fail_shrinks (supervisor : Supervisor) (status : Status) (restart : Bool) :
    Shrinks supervisor (supervisor.fail status restart).supervisor := by
  rw [fail]
  split_ifs
  · exact Shrinks.refl supervisor
  · exact Shrinks.refl supervisor
  · exact setFailed_shrinks supervisor status .hostFailStop restart supervisor.inflight

theorem joinSection_shrinks (joined : before.joinSection = .ok after) : Shrinks before after := by
  rw [joinSection] at joined
  split_ifs at joined
  obtain rfl := Except.ok.inj joined
  exact ⟨rfl, le_rfl, id, .inr⟩

theorem joinDone_shrinks (supervisor : Supervisor) (status : Status) :
    Shrinks supervisor (supervisor.joinDone status).supervisor := by
  rw [joinDone]
  split_ifs <;> exact ⟨rfl, le_rfl, id, .inr⟩

theorem markRecovering_shrinks (supervisor : Supervisor) :
    Shrinks supervisor supervisor.markRecovering.supervisor := by
  rw [markRecovering]
  split_ifs with early
  · exact Shrinks.refl supervisor
  · exact setState_early supervisor (.inr (.inl (not_not.mp early)))

theorem markReady_shrinks (supervisor : Supervisor) :
    Shrinks supervisor supervisor.markReady.supervisor := by
  rw [markReady]
  split_ifs with early
  · exact Shrinks.refl supervisor
  · refine setState_early supervisor ?_
    by_contra late
    exact early ⟨fun starting => late (.inr (.inl starting)),
      fun recovering => late (.inr (.inr recovering))⟩

theorem violated_shrinks (supervisor : Supervisor) (sequence : ℕ) :
    Shrinks supervisor (supervisor.violated sequence).supervisor :=
  (setFailed_shrinks supervisor eproto .contract false (some sequence)).trans
    (completeTicket_shrinks _ sequence eproto false)

theorem controlTake_shrinks (supervisor : Supervisor) :
    Shrinks supervisor supervisor.controlTake.supervisor := by
  rw [controlTake]
  split_ifs
  · exact Shrinks.refl supervisor
  · exact Shrinks.refl supervisor
  · cases taken : supervisor.dequeueTicket with
    | none => exact Shrinks.refl supervisor
    | some pair =>
        obtain ⟨sequence, rest⟩ := pair
        refine (dequeueTicket_shrinks taken).trans ?_
        simp only
        split_ifs
        · exact violated_shrinks rest sequence
        · exact (setState_shrinks rest (by simp [SupervisorState.Early]) (by simp)).trans
            (setInflight_shrinks _ (some sequence))
        · exact violated_shrinks rest sequence
        · exact setInflight_shrinks rest (some sequence)

theorem controlComplete_shrinks (supervisor : Supervisor) (sequence : ℕ) (status : Status) :
    Shrinks supervisor (supervisor.controlComplete sequence status).supervisor := by
  rw [controlComplete]
  split_ifs
  · exact Shrinks.refl supervisor
  · cases found : supervisor.tickets sequence with
    | none => exact Shrinks.refl supervisor
    | some ticket =>
        simp only
        split_ifs
        · exact Shrinks.refl supervisor
        · exact Shrinks.refl supervisor
        all_goals
          first
          | exact (setFailed_shrinks supervisor status .shutdown false (some sequence)).trans
              ((completeTicket_shrinks _ sequence _ true).trans (setInflight_shrinks _ none))
          | exact (completeTicket_shrinks supervisor sequence _ true).trans
              (setInflight_shrinks _ none)

theorem allocateTicket_shrinks {memory : Bool} {sequence : ℕ}
    (allocated : before.allocateTicket memory = .ok (sequence, after)) : Shrinks before after := by
  rw [allocateTicket] at allocated
  split_ifs at allocated
  obtain ⟨-, rfl⟩ := Prod.mk.inj (Except.ok.inj allocated)
  exact ⟨rfl, le_rfl, id, .inr⟩

theorem allocateTicket_state {memory : Bool} {sequence : ℕ}
    (allocated : before.allocateTicket memory = .ok (sequence, after)) :
    after.state = before.state ∧ after.capacity = before.capacity ∧ after.depth = before.depth ∧
      after.queue = before.queue ∧ after.head = before.head := by
  rw [allocateTicket] at allocated
  split_ifs at allocated
  obtain ⟨-, rfl⟩ := Prod.mk.inj (Except.ok.inj allocated)
  exact ⟨rfl, rfl, rfl, rfl, rfl⟩

theorem submit_reserved (reserved : supervisor.Reserved) (generation : ℕ) (kind : ControlKind)
    (payload : ℕ) (wake : Status) (memory : Bool) :
    (supervisor.submit generation kind payload wake memory).supervisor.Reserved ∧
      (supervisor.submit generation kind payload wake memory).supervisor.capacity =
        supervisor.capacity := by
  rw [submit]
  split_ifs with shutdown stale ready full woken
  · exact ⟨reserved, rfl⟩
  · exact ⟨reserved, rfl⟩
  · exact ⟨reserved, rfl⟩
  · exact ⟨reserved, rfl⟩
  · exact ⟨reserved, rfl⟩
  · cases allocates : supervisor.allocateTicket memory with
    | error status => exact ⟨reserved, rfl⟩
    | ok pair =>
        obtain ⟨sequence, allocated⟩ := pair
        obtain ⟨state, capacity, depth, -⟩ := allocateTicket_state allocates
        have kept := reserved.shrinks (allocateTicket_shrinks allocates)
        simp only [enqueueTicket]
        split_ifs
        · exact ⟨kept, capacity⟩
        · have room := reserved.capacity
          refine ⟨⟨kept.capacity, ?_, fun early => ?_, fun _ => ?_⟩, capacity⟩
          · simp only [setTicket]
            omega
          · rw [setTicket, state, not_not.mp ready] at early
            simp [SupervisorState.Early] at early
          · simp only [setTicket]
            omega

/-- A queue that is not full takes a ticket. -/
theorem enqueueTicket_ok (room : before.depth < before.capacity) (sequence : ℕ) (ticket : Ticket) :
    ∃ after, before.enqueueTicket sequence ticket = .ok after ∧
      after.queued = before.queued ++ [sequence] ∧ after.capacity = before.capacity ∧
      after.depth = before.depth + 1 :=
  ⟨_, if_neg (not_le.mpr room), window_push before.queue sequence room, rfl, rfl⟩

/-- A supervisor that is ready accepts the request of a shutdown whenever the ticket can be
allocated and the thread can be woken. -/
theorem requestShutdown_accepted (reserved : supervisor.Reserved)
    (ready : supervisor.state = .ready) (mode : ShutdownMode) {memory : Bool} {sequence : ℕ}
    {allocated : Supervisor}
    (allocates : supervisor.allocateTicket memory = .ok (sequence, allocated)) :
    ∃ after, supervisor.requestShutdown supervisor.generation mode 0 memory =
        ⟨0, after, .everybody⟩ ∧
      after.queued = supervisor.queued ++ [sequence] ∧ after.state = .quiescing := by
  obtain ⟨state, capacity, depth, queue, head⟩ := allocateTicket_state allocates
  have free := reserved.ready ready
  obtain ⟨enqueued, done, queued, -⟩ :=
    @enqueueTicket_ok allocated (by omega) sequence ⟨.shutdown, mode, 0, 0, false⟩
  refine ⟨enqueued.withState .quiescing, ?_, ?_, rfl⟩
  · simp only [requestShutdown, ready, ne_eq, not_true_eq_false, if_false,
      if_neg (show ¬supervisor.capacity ≤ supervisor.depth by omega), allocates, done]
  · have same : allocated.queued = supervisor.queued := by
      simp only [Supervisor.queued, queue, capacity, head, depth]
    rw [← same, ← queued]
    rfl

theorem requestShutdown_reserved (reserved : supervisor.Reserved) (generation : ℕ)
    (mode : ShutdownMode) (wake : Status) (memory : Bool) :
    (supervisor.requestShutdown generation mode wake memory).supervisor.Reserved ∧
      (supervisor.requestShutdown generation mode wake memory).supervisor.capacity =
        supervisor.capacity := by
  rw [requestShutdown]
  split_ifs with stale ready full woken
  · exact ⟨reserved, rfl⟩
  · exact ⟨reserved, rfl⟩
  · exact ⟨reserved, rfl⟩
  · exact ⟨reserved, rfl⟩
  · cases allocates : supervisor.allocateTicket memory with
    | error status => exact ⟨reserved, rfl⟩
    | ok pair =>
        obtain ⟨sequence, allocated⟩ := pair
        obtain ⟨-, capacity, depth, -⟩ := allocateTicket_state allocates
        obtain ⟨enqueued, done, -, room, more⟩ :=
          @enqueueTicket_ok allocated (by omega) sequence ⟨.shutdown, mode, 0, 0, false⟩
        simp only [done]
        refine ⟨⟨?_, ?_, fun early => ?_, by rintro ⟨⟩⟩, room.trans capacity⟩
        · have least := reserved.capacity
          simp only [withState]
          omega
        · simp only [withState]
          omega
        · simp [withState, SupervisorState.Early] at early

end Supervisor

namespace SupervisorSystem

variable {ι : Type} [DecidableEq ι] {system after : SupervisorSystem ι}

theorem Woken.supervisor {wake : Wake} {woken : Option (Option ι)}
    (wakes : Woken system wake woken after) : after.supervisor = system.supervisor := by
  cases wakes with
  | nobody => rfl
  | @one sleeper asleep => cases sleeper <;> rfl
  | lost => rfl
  | everybody => rfl

theorem evaluate_supervisor (system : SupervisorSystem ι) (client : ι) (phase : ClientPhase) :
    (system.evaluate client phase).supervisor = system.supervisor := by
  cases phase <;> rfl

theorem Step.reserved {action : SupervisorAction ι} (step : Step system action after)
    (reserved : system.supervisor.Reserved) :
    after.supervisor.Reserved ∧ after.supervisor.capacity = system.supervisor.capacity := by
  have shrunk : ∀ {next : Supervisor}, Supervisor.Shrinks system.supervisor next →
      after.supervisor = next →
      after.supervisor.Reserved ∧ after.supervisor.capacity = system.supervisor.capacity := by
    rintro next shrinks rfl
    exact ⟨reserved.shrinks shrinks, shrinks.capacity⟩
  cases step with
  | start => exact shrunk (Supervisor.startSection_shrinks _) rfl
  | createThread => exact ⟨reserved, rfl⟩
  | startFailed => exact shrunk (Supervisor.setFailed_shrinks _ _ _ _ _) rfl
  | startThread =>
      exact @shrunk system.supervisor.startThread.supervisor ⟨rfl, le_rfl, id, .inr⟩
        (evaluate_supervisor _ _ _)
  | submit wakes =>
      rw [wakes.supervisor]
      exact Supervisor.submit_reserved reserved ..
  | requestShutdown wakes =>
      rw [wakes.supervisor]
      exact Supervisor.requestShutdown_reserved reserved ..
  | ticketWait =>
      rw [evaluate_supervisor]
      exact ⟨reserved, rfl⟩
  | ticketDestroy => exact shrunk (Supervisor.ticketDestroy_shrinks _ _) rfl
  | fail wakes => exact shrunk (Supervisor.fail_shrinks _ _ _) wakes.supervisor
  | join idle joined =>
      exact shrunk (Supervisor.joinSection_shrinks joined) (evaluate_supervisor _ _ _)
  | joined => exact shrunk (Supervisor.joinDone_shrinks _ _) rfl
  | awake =>
      rw [evaluate_supervisor]
      exact ⟨reserved, rfl⟩
  | @timeout client waits =>
      cases phase : system.clients client with
      | joinWait asleep =>
          rw [phase] at shrunk
          exact @shrunk { system.supervisor with joining := false } ⟨rfl, le_rfl, id, .inr⟩ rfl
      | _ => exact ⟨reserved, rfl⟩
  | @spurious sleeper asleep => cases sleeper <;> exact ⟨reserved, rfl⟩
  | markRecovering called wakes =>
      exact shrunk (Supervisor.markRecovering_shrinks _) wakes.supervisor
  | markReady called mode wakes => exact shrunk (Supervisor.markReady_shrinks _) wakes.supervisor
  | controlTake called mode wakes =>
      exact shrunk (Supervisor.controlTake_shrinks _) wakes.supervisor
  | controlComplete called mode wakes =>
      exact shrunk (Supervisor.controlComplete_shrinks _ _ _) wakes.supervisor
  | main done wakes => exact shrunk (Supervisor.mainSection_shrinks done) wakes.supervisor

theorem Reachable.reserved {options : SupervisorOptions} (reachable : Reachable options system) :
    system.supervisor.Reserved ∧ system.supervisor.capacity = options.capacity := by
  induction reachable with
  | init created => exact Supervisor.create_reserved created
  | step reachable step induction =>
      obtain ⟨kept, capacity⟩ := step.reserved induction.1
      exact ⟨kept, capacity.trans induction.2⟩

/-- A supervisor that is ready has a free slot behind any run, so that a shutdown is accepted unless
the thread cannot be woken or the ticket cannot be allocated. -/
theorem shutdown_slot_reserved {options : SupervisorOptions}
    (reachable : Reachable options system) (ready : system.supervisor.state = .ready) :
    system.supervisor.depth ≤ options.capacity - 1 ∧
      ∀ (mode : ShutdownMode) (memory : Bool) (sequence : ℕ) (allocated : Supervisor),
        system.supervisor.allocateTicket memory = .ok (sequence, allocated) →
        ∃ shut, system.supervisor.requestShutdown system.supervisor.generation mode 0 memory =
            ⟨0, shut, .everybody⟩ ∧
          shut.queued = system.supervisor.queued ++ [sequence] ∧ shut.state = .quiescing := by
  obtain ⟨reserved, capacity⟩ := reachable.reserved
  have free := reserved.ready ready
  exact ⟨by omega, fun mode memory sequence allocated allocates =>
    Supervisor.requestShutdown_accepted reserved ready mode allocates⟩

/-- A supervisor without callbacks and with the smallest queue. -/
def smallOptions : SupervisorOptions := ⟨1, 2, ⟨false, false, false, false, by simp⟩⟩

/-- A client starts the supervisor, whose thread then waits for a control, and submits one. -/
theorem ready_reachable : ∃ system : SupervisorSystem Unit,
    Reachable smallOptions system ∧ system.supervisor.state = .ready ∧
      system.supervisor.generation = 1 ∧ system.supervisor.queued = [1] ∧
      ∃ allocated, system.supervisor.allocateTicket true = .ok (2, allocated) := by
  have created := @Reachable.init Unit _ smallOptions _ rfl
  have started := created.step (@Step.start Unit _ _ () rfl rfl)
  have threaded := started.step (@Step.createThread Unit _ _ () rfl)
  have recorded := threaded.step (@Step.startThread Unit _ _ () rfl)
  have booting := recorded.step (@Step.main Unit _ _ 0 _ _ rfl (.nobody none))
  have waiting := booting.step (@Step.main Unit _ _ 0 _ _ rfl (.everybody none))
  have submitted := waiting.step
    (@Step.submit Unit _ _ 1 .checkpoint 0 0 true _ _ (@Woken.one _ _ _ none rfl))
  exact ⟨_, submitted, rfl, rfl, rfl, _, rfl⟩

/-- The queue holds all that submissions may put there, and a shutdown is still accepted. -/
theorem shutdown_slot_reserved_small :
    ∃ system : SupervisorSystem Unit, system.supervisor.queued = [1] ∧
      system.supervisor.depth ≤ 1 ∧
      ∃ shut, system.supervisor.requestShutdown 1 .fast 0 true = ⟨0, shut, .everybody⟩ ∧
        shut.queued = [1, 2] := by
  obtain ⟨system, reachable, ready, generation, queued, allocated, allocates⟩ := ready_reachable
  obtain ⟨depth, accepts⟩ := shutdown_slot_reserved reachable ready
  obtain ⟨shut, requests, behind, -⟩ := accepts .fast true 2 allocated allocates
  exact ⟨system, queued, depth, shut, generation ▸ requests, by rw [behind, queued]; rfl⟩

end SupervisorSystem
end Postgamma.Embedded
