import Mathlib
import Postgamma.Embedded.SupervisorRuns

/-!
# Wakeups of a supervisor

The supervisor thread, the clients that wait for tickets, for READY and for the end of the thread
share one condition.  All sections broadcast but `submit`, which signals one sleeper: a supervisor
that is ready and whose thread sleeps has no other sleeper.
-/

namespace Postgamma.Embedded

/-- The states in which a client may wait for the end of the thread. -/
def SupervisorState.Late (state : SupervisorState) : Prop :=
  state = .quiescing ∨ state = .stopping ∨ state = .closed ∨ state = .failed

namespace Supervisor

/-- A client that sleeps has a reason to. -/
def ClientRests (supervisor : Supervisor) : ClientPhase → Prop
  | .readyWait asleep =>
      asleep = true → supervisor.state = .starting ∨ supervisor.state = .recovering
  | .ticketWait sequence asleep => asleep = true →
      ∃ ticket, supervisor.tickets sequence = some ticket ∧ ticket.completed = false
  | .joinWait asleep => supervisor.state.Late ∧ (asleep = true → supervisor.mainExited = false)
  | _ => True

/-- The thread has a reason to sleep, and its place fits to the state. -/
def MainRests (supervisor : Supervisor) : MainPhase → Prop
  | .absent =>
      supervisor.state = .new ∨ supervisor.state = .starting ∨ supervisor.state = .failed
  | .awaiting asleep => (supervisor.state = .starting ∨ supervisor.state = .failed) ∧
      (asleep = true → supervisor.state ≠ .failed)
  | .waiting asleep => asleep = true → supervisor.depth = 0 ∧ supervisor.state ≠ .failed
  | _ => True

/-- What the sleepers look at is as it was. -/
structure Unseen (before after : Supervisor) : Prop where
  state : after.state = before.state
  exited : after.mainExited = before.mainExited
  depth : after.depth ≤ before.depth
  tickets : ∀ sequence ticket, before.tickets sequence = some ticket → ticket.completed = false →
    after.tickets sequence = some ticket

variable {supervisor before after : Supervisor} {phase : MainPhase} {place : ClientPhase}
  {sequence : ℕ}

theorem Unseen.refl (supervisor : Supervisor) : Unseen supervisor supervisor :=
  ⟨rfl, rfl, le_rfl, fun _ _ found _ => found⟩

theorem Unseen.client (unseen : Unseen before after) (rests : before.ClientRests place) :
    after.ClientRests place := by
  cases place with
  | readyWait asleep =>
      intro asleep
      rw [unseen.state]
      exact rests asleep
  | ticketWait sequence asleep =>
      intro asleep
      obtain ⟨ticket, found, incomplete⟩ := rests asleep
      exact ⟨ticket, unseen.tickets sequence ticket found incomplete, incomplete⟩
  | joinWait asleep =>
      refine ⟨?_, fun asleep => ?_⟩
      · rw [unseen.state]
        exact rests.1
      · rw [unseen.exited]
        exact rests.2 asleep
  | idle => trivial
  | creating => trivial
  | created => trivial
  | joinThread => trivial

theorem Unseen.thread (unseen : Unseen before after) (rests : before.MainRests phase) :
    after.MainRests phase := by
  cases phase with
  | absent =>
      change after.state = _ ∨ after.state = _ ∨ after.state = _
      rw [unseen.state]
      exact rests
  | awaiting asleep =>
      change (after.state = _ ∨ after.state = _) ∧ (_ → after.state ≠ _)
      rw [unseen.state]
      exact rests
  | waiting asleep =>
      intro asleep
      obtain ⟨empty, running⟩ := rests asleep
      have less := unseen.depth
      exact ⟨by omega, by rwa [unseen.state]⟩
  | booting => trivial
  | running => trivial
  | dispatching => trivial
  | shutdownTaken => trivial
  | shuttingDown => trivial
  | exited => trivial

/-- The late states are never left for an earlier one. -/
theorem Goes.late (goes : Goes before after) (late : before.state.Late) : after.state.Late := by
  obtain same | follows := goes.state
  · rwa [same]
  · obtain quiescing | stopping | closed | failed := late
    · rw [quiescing] at follows
      generalize after.state = state at *
      cases follows with
      | stop => exact .inr (.inl rfl)
      | fail => exact .inr (.inr (.inr rfl))
    · rw [stopping] at follows
      generalize after.state = state at *
      cases follows with
      | close => exact .inr (.inr (.inl rfl))
      | fail => exact .inr (.inr (.inr rfl))
    · exact absurd (closed ▸ follows) (closed_not_follows _)
    · exact .inr (.inr (.inr (failed_follows (failed ▸ follows))))

/-- A woken client has no reason left but the state of the supervisor. -/
theorem Goes.woken_client (goes : Goes before after) (rests : before.ClientRests place) :
    after.ClientRests place.woken := by
  cases place with
  | readyWait => exact fun asleep => by cases asleep
  | ticketWait => exact fun asleep => by cases asleep
  | joinWait => exact ⟨goes.late rests.1, fun asleep => by cases asleep⟩
  | idle => trivial
  | creating => trivial
  | created => trivial
  | joinThread => trivial

/-! ## Sections -/

/-- A submission either changes nothing that sleepers look at, or adds a ticket in READY. -/
theorem submit_cases (supervisor : Supervisor) (generation : ℕ) (kind : ControlKind)
    (payload : ℕ) (wake : Status) (memory : Bool) :
    ((supervisor.submit generation kind payload wake memory).wake = .nobody ∧
      Unseen supervisor (supervisor.submit generation kind payload wake memory).supervisor) ∨
    ((supervisor.submit generation kind payload wake memory).wake = .one ∧
      supervisor.state = .ready) := by
  rw [Supervisor.submit]
  split_ifs with shutdown stale ready
  · exact .inl ⟨rfl, .refl _⟩
  · exact .inl ⟨rfl, .refl _⟩
  · exact .inl ⟨rfl, .refl _⟩
  · exact .inl ⟨rfl, .refl _⟩
  · exact .inl ⟨rfl, .refl _⟩
  · cases allocates : supervisor.allocateTicket memory with
    | error status => exact .inl ⟨rfl, .refl _⟩
    | ok pair =>
        obtain ⟨sequence, allocated⟩ := pair
        simp only
        cases enqueues : allocated.enqueueTicket sequence ⟨kind, .smart, payload, 0, false⟩ with
        | error status =>
            rw [allocateTicket] at allocates
            split_ifs at allocates
            obtain ⟨-, rfl⟩ := Prod.mk.inj (Except.ok.inj allocates)
            exact .inl ⟨rfl, rfl, rfl, le_rfl, fun _ _ found _ => found⟩
        | ok enqueued => exact .inr ⟨rfl, not_not.1 ready⟩

theorem submit_tickets (sane : Sane supervisor phase) (generation : ℕ) (kind : ControlKind)
    (payload : ℕ) (wake : Status) (memory : Bool) {ticket : Ticket}
    (found : supervisor.tickets sequence = some ticket) :
    (supervisor.submit generation kind payload wake memory).supervisor.tickets sequence =
      some ticket := by
  rw [Supervisor.submit]
  split_ifs
  · exact found
  · exact found
  · exact found
  · exact found
  · exact found
  · rw [allocateTicket]
    split_ifs
    · exact found
    · exact found
    · simp only [enqueueTicket]
      split_ifs
      · exact found
      · have older : sequence ≠ supervisor.nextSequence :=
          Nat.ne_of_lt (sane.ledger.below _ (sane.ledger.known _ _ found).1)
        exact (Function.update_of_ne older ..).trans found

/-- A request of a shutdown either changes nothing that sleepers look at, or broadcasts. -/
theorem requestShutdown_cases (supervisor : Supervisor) (generation : ℕ) (mode : ShutdownMode)
    (wake : Status) (memory : Bool) :
    ((supervisor.requestShutdown generation mode wake memory).wake = .nobody ∧
      Unseen supervisor (supervisor.requestShutdown generation mode wake memory).supervisor) ∨
    ((supervisor.requestShutdown generation mode wake memory).wake = .everybody ∧
      supervisor.state = .ready) := by
  rw [Supervisor.requestShutdown]
  split_ifs with stale ready
  · exact .inl ⟨rfl, .refl _⟩
  · exact .inl ⟨rfl, .refl _⟩
  · exact .inl ⟨rfl, .refl _⟩
  · exact .inl ⟨rfl, .refl _⟩
  · cases allocates : supervisor.allocateTicket memory with
    | error status => exact .inl ⟨rfl, .refl _⟩
    | ok pair =>
        obtain ⟨sequence, allocated⟩ := pair
        simp only
        cases enqueues : allocated.enqueueTicket sequence ⟨.shutdown, mode, 0, 0, false⟩ with
        | error status =>
            rw [allocateTicket] at allocates
            split_ifs at allocates
            obtain ⟨-, rfl⟩ := Prod.mk.inj (Except.ok.inj allocates)
            exact .inl ⟨rfl, rfl, rfl, le_rfl, fun _ _ found _ => found⟩
        | ok enqueued => exact .inr ⟨rfl, not_not.1 ready⟩

/-- A section that wakes nobody shows the sleepers nothing new, and none signals one sleeper. -/
structure Announces (before after : Supervisor) (wake : Wake) : Prop where
  quiet : wake = .nobody → Unseen before after
  shared : wake ≠ .one

theorem Announces.refuse (supervisor : Supervisor) (status : Status) :
    Announces supervisor (supervisor.refuse status).supervisor
      (supervisor.refuse status).wake :=
  ⟨fun _ => .refl supervisor, fun one => (by cases one)⟩

theorem Announces.everybody (before after : Supervisor) : Announces before after .everybody :=
  ⟨fun quiet => (by cases quiet), fun one => (by cases one)⟩

theorem requestShutdown_announces (supervisor : Supervisor) (generation : ℕ)
    (mode : ShutdownMode) (wake : Status) (memory : Bool) :
    Announces supervisor (supervisor.requestShutdown generation mode wake memory).supervisor
      (supervisor.requestShutdown generation mode wake memory).wake := by
  obtain ⟨quiet, unseen⟩ | ⟨loud, -⟩ :=
    requestShutdown_cases supervisor generation mode wake memory
  · rw [quiet]
    exact ⟨fun _ => unseen, fun one => (by cases one)⟩
  · rw [loud]
    exact .everybody ..

theorem fail_announces (supervisor : Supervisor) (status : Status) (restart : Bool) :
    Announces supervisor (supervisor.fail status restart).supervisor
      (supervisor.fail status restart).wake := by
  rw [Supervisor.fail]
  split_ifs
  · exact .refuse ..
  · exact .refuse ..
  · exact .everybody ..

theorem markRecovering_announces (supervisor : Supervisor) :
    Announces supervisor supervisor.markRecovering.supervisor supervisor.markRecovering.wake := by
  rw [Supervisor.markRecovering]
  split_ifs
  · exact .refuse ..
  · exact .everybody ..

theorem markReady_announces (supervisor : Supervisor) :
    Announces supervisor supervisor.markReady.supervisor supervisor.markReady.wake := by
  rw [Supervisor.markReady]
  split_ifs
  · exact .refuse ..
  · exact .everybody ..

theorem controlTake_announces (supervisor : Supervisor) :
    Announces supervisor supervisor.controlTake.supervisor supervisor.controlTake.wake := by
  rw [Supervisor.controlTake]
  split_ifs
  · exact .refuse ..
  · exact .refuse ..
  · cases supervisor.dequeueTicket with
    | none => exact .refuse ..
    | some pair =>
        simp only
        split_ifs
        · exact .everybody ..
        · exact .everybody ..
        · exact .everybody ..
        · exact .everybody ..

theorem controlComplete_announces (supervisor : Supervisor) (sequence : ℕ) (status : Status) :
    Announces supervisor (supervisor.controlComplete sequence status).supervisor
      (supervisor.controlComplete sequence status).wake := by
  rw [Supervisor.controlComplete]
  split_ifs
  · exact .refuse ..
  · cases supervisor.tickets sequence with
    | none => exact .refuse ..
    | some ticket =>
        simp only
        split
        · exact .refuse ..
        · split
          · exact .refuse ..
          · exact .everybody ..

/-- The head of the loop sleeps on an empty queue. -/
theorem loop_rests (supervisor : Supervisor) :
    supervisor.loop.supervisor.MainRests supervisor.loop.phase ∧
      (supervisor.loop.wake = .nobody → Unseen supervisor supervisor.loop.supervisor) := by
  rw [Supervisor.loop]
  split_ifs with failed
  · exact ⟨trivial, fun quiet => (by cases quiet)⟩
  · cases taken : supervisor.dequeueTicket with
    | none =>
        have empty : supervisor.depth = 0 := by
          rw [dequeueTicket] at taken
          split_ifs at taken with empty
          exact empty
        exact ⟨fun _ => ⟨empty, failed⟩, fun _ => .refl supervisor⟩
    | some pair =>
        obtain ⟨sequence, rest⟩ := pair
        obtain ⟨stands, less, tickets⟩ := dequeueTicket_stands taken
        refine ⟨?_, fun _ => ⟨stands.state, stands.mainExited, ?_, fun other ticket found _ => ?_⟩⟩
        · simp only
          split_ifs <;> trivial
        · change rest.depth ≤ supervisor.depth
          omega
        · change rest.tickets other = some ticket
          rw [tickets, found]

/-- A section of the thread that does not broadcast shows the clients nothing new. -/
theorem mainSection_rests {status : Status} {next : MainSection}
    (rests : supervisor.MainRests phase)
    (done : supervisor.mainSection status phase = some next) :
    next.supervisor.MainRests next.phase ∧
      Announces supervisor next.supervisor next.wake := by
  have looped (settled : Supervisor) : settled.loop.wake ≠ .one := by
    rw [Supervisor.loop]
    split_ifs
    · exact fun same => by cases same
    · cases settled.dequeueTicket <;> exact fun same => by cases same
  cases phase with
  | absent => cases done
  | awaiting asleep =>
      cases asleep with
      | true => cases done
      | false =>
          obtain rfl := Option.some.inj done
          split_ifs
          · exact ⟨trivial, .everybody ..⟩
          · rw [Supervisor.awaitThread]
            split_ifs with waits failed
            · exact ⟨⟨rests.1, fun _ => waits.2⟩, fun _ => .refl supervisor,
                fun one => (by cases one)⟩
            · exact ⟨trivial, .everybody ..⟩
            · exact ⟨trivial, fun _ => .refl supervisor, fun one => (by cases one)⟩
  | booting =>
      obtain rfl := Option.some.inj done
      generalize (if supervisor.callbacks.boot then status else 0) = called
      rw [booted_eq]
      split_ifs
      · exact ⟨trivial, .everybody ..⟩
      · exact ⟨trivial, .everybody ..⟩
      · exact ⟨(loop_rests _).1, .everybody ..⟩
  | running =>
      obtain rfl := Option.some.inj done
      rw [Supervisor.ran]
      split_ifs
      · exact ⟨trivial, .everybody ..⟩
      · exact ⟨trivial, .everybody ..⟩
      · exact ⟨trivial, .everybody ..⟩
      · exact ⟨trivial, .everybody ..⟩
  | waiting asleep =>
      cases asleep with
      | true => cases done
      | false =>
          obtain rfl := Option.some.inj done
          split_ifs
          · exact ⟨trivial, .everybody ..⟩
          · exact ⟨(loop_rests supervisor).1, (loop_rests supervisor).2, looped supervisor⟩
  | dispatching sequence =>
      obtain rfl := Option.some.inj done
      exact ⟨(loop_rests _).1, .everybody ..⟩
  | shutdownTaken sequence =>
      obtain rfl := Option.some.inj done
      rw [Supervisor.allowShutdown]
      split_ifs
      · exact ⟨trivial, .everybody ..⟩
      · exact ⟨trivial, .everybody ..⟩
  | shuttingDown sequence allowed =>
      obtain rfl := Option.some.inj done
      simp only [Supervisor.shutDown, Supervisor.leave]
      split_ifs <;> exact ⟨trivial, .everybody ..⟩
  | exited => cases done

/-- The thread behind a broadcast of a section that leaves the state. -/
theorem MainRests.woken (rests : before.MainRests phase) (state : after.state = before.state) :
    after.MainRests phase.woken := by
  cases phase with
  | absent =>
      change after.state = _ ∨ after.state = _ ∨ after.state = _
      rw [state]
      exact rests
  | awaiting =>
      refine ⟨?_, fun asleep => (by cases asleep)⟩
      rw [state]
      exact rests.1
  | waiting => exact fun asleep => (by cases asleep)
  | booting => trivial
  | running => trivial
  | dispatching => trivial
  | shutdownTaken => trivial
  | shuttingDown => trivial
  | exited => trivial

/-- The thread behind the broadcast of a failure. -/
theorem MainRests.of_failed (failed : supervisor.state = .failed) (phase : MainPhase) :
    supervisor.MainRests phase.woken := by
  cases phase with
  | absent => exact .inr (.inr failed)
  | awaiting => exact ⟨.inr failed, fun asleep => (by cases asleep)⟩
  | waiting => exact fun asleep => (by cases asleep)
  | booting => trivial
  | running => trivial
  | dispatching => trivial
  | shutdownTaken => trivial
  | shuttingDown => trivial
  | exited => trivial

/-- Behind the start the thread is in its callbacks or its loop. -/
theorem MainRests.of_started (rests : before.MainRests phase) (started : before.state = .ready) :
    after.MainRests phase.woken := by
  cases phase with
  | absent =>
      obtain new | starting | failed := rests
      · cases started.symm.trans new
      · cases started.symm.trans starting
      · cases started.symm.trans failed
  | awaiting =>
      obtain starting | failed := rests.1
      · cases started.symm.trans starting
      · cases started.symm.trans failed
  | waiting => exact fun asleep => (by cases asleep)
  | booting => trivial
  | running => trivial
  | dispatching => trivial
  | shutdownTaken => trivial
  | shuttingDown => trivial
  | exited => trivial

theorem MainRests.of_callback (called : phase.inCallback = true) (supervisor : Supervisor) :
    supervisor.MainRests phase.woken := by
  cases phase with
  | booting => trivial
  | running => trivial
  | dispatching => trivial
  | shuttingDown => trivial
  | absent => cases called
  | awaiting => cases called
  | waiting => cases called
  | shutdownTaken => cases called
  | exited => cases called

/-- A thread that does not sleep rests over any supervisor of the same state. -/
theorem MainRests.awake (rests : before.MainRests phase) (awake : phase.asleep = false)
    (state : after.state = before.state) : after.MainRests phase := by
  have same : phase.woken = phase := by
    cases phase with
    | awaiting asleep => exact congrArg MainPhase.awaiting awake.symm
    | waiting asleep => exact congrArg MainPhase.waiting awake.symm
    | absent => rfl
    | booting => rfl
    | running => rfl
    | dispatching => rfl
    | shutdownTaken => rfl
    | shuttingDown => rfl
    | exited => rfl
  exact same ▸ rests.woken state

/-- While the thread sleeps, every ticket is completed. -/
theorem Sane.tickets_completed (sane : Sane supervisor phase) (rests : supervisor.MainRests phase)
    (asleep : phase.asleep = true) {ticket : Ticket}
    (found : supervisor.tickets sequence = some ticket) : ticket.completed = true := by
  have empty : supervisor.pending none = [] := by
    cases phase with
    | awaiting =>
        obtain starting | failed := rests.1
        · exact sane.staged.early (.inr (.inl starting))
        · exact absurd failed (rests.2 asleep)
    | waiting =>
        have depth := (rests asleep).1
        rw [pending, sane.fits.2.1, queued, depth]
        rfl
    | absent => cases asleep
    | booting => cases asleep
    | running => cases asleep
    | dispatching => cases asleep
    | shutdownTaken => cases asleep
    | shuttingDown => cases asleep
    | exited => cases asleep
  cases done : ticket.completed with
  | true => rfl
  | false =>
      have waits := (sane.ledger.known sequence ticket found).2 done
      rw [empty] at waits
      cases waits

end Supervisor

namespace SupervisorSystem

variable {ι : Type} [DecidableEq ι] {system after : SupervisorSystem ι}

open Supervisor

/-- All sleepers have a reason to sleep. -/
structure Resting (system : SupervisorSystem ι) : Prop where
  clients : ∀ client, system.supervisor.ClientRests (system.clients client)
  main : system.supervisor.MainRests system.main

variable {supervisor : Supervisor}

/-- A section that announces what it changes. -/
theorem Woken.resting {wake : Wake} {woken : Option (Option ι)}
    (wakes : Woken (system.put supervisor) wake woken after) (resting : Resting system)
    (goes : Goes system.supervisor supervisor)
    (announces : Announces system.supervisor supervisor wake)
    (loud : wake = .everybody → supervisor.MainRests system.main.woken) : Resting after := by
  cases wakes with
  | nobody =>
      have unseen := announces.quiet rfl
      exact ⟨fun client => unseen.client (resting.clients client), unseen.thread resting.main⟩
  | one => exact absurd rfl announces.shared
  | lost => exact absurd rfl announces.shared
  | everybody => exact ⟨fun client => goes.woken_client (resting.clients client), loud rfl⟩

theorem Resting.move {phase : ClientPhase} (resting : Resting system) (client : ι)
    (rests : system.supervisor.ClientRests phase) : Resting (system.move client phase) := by
  refine ⟨fun other => ?_, resting.main⟩
  change system.supervisor.ClientRests (Function.update system.clients client phase other)
  obtain rfl | apart := eq_or_ne other client
  · rwa [Function.update_self]
  · rw [Function.update_of_ne apart]
    exact resting.clients other

omit [DecidableEq ι] in
theorem Resting.put (resting : Resting system)
    (unseen : Unseen system.supervisor supervisor) : Resting (system.put supervisor) :=
  ⟨fun client => unseen.client (resting.clients client), unseen.thread resting.main⟩

/-- A wait that sleeps on has a reason to. -/
theorem Resting.evaluate (resting : Resting system) (client : ι) {phase : ClientPhase}
    (late : ∀ asleep, phase = .joinWait asleep → system.supervisor.state.Late) :
    Resting (system.evaluate client phase) := by
  cases phase with
  | readyWait asleep =>
      refine resting.move client ?_
      split_ifs with early
      · exact fun _ => early
      · trivial
  | ticketWait sequence asleep =>
      refine resting.move client ?_
      cases found : system.supervisor.tickets sequence with
      | none => trivial
      | some ticket =>
          cases done : ticket.completed with
          | true =>
              simp only [Option.map_some, Option.getD_some, done]
              trivial
          | false =>
              simp only [Option.map_some, Option.getD_some, done]
              exact fun _ => ⟨ticket, found, done⟩
  | joinWait asleep =>
      refine resting.move client ?_
      split_ifs with exited
      · trivial
      · exact ⟨late asleep rfl, fun _ => Bool.eq_false_iff.2 exited⟩
  | idle => exact resting
  | creating => exact resting
  | created => exact resting
  | joinThread => exact resting

omit [DecidableEq ι] in
/-- A signal for a submission reaches the sleeping thread: no client sleeps beside it. -/
theorem Resting.sleeps_alone (resting : Resting system)
    (sane : system.supervisor.Sane system.main) (ready : system.supervisor.state = .ready)
    (asleep : system.main.asleep = true) (client : ι) :
    (system.clients client).asleep = false := by
  have rests := resting.clients client
  cases phase : system.clients client with
  | readyWait sleeps =>
      rw [phase] at rests
      cases sleeps with
      | false => rfl
      | true =>
          obtain starting | recovering := rests rfl
          · cases ready.symm.trans starting
          · cases ready.symm.trans recovering
  | ticketWait sequence sleeps =>
      rw [phase] at rests
      cases sleeps with
      | false => rfl
      | true =>
          obtain ⟨ticket, found, incomplete⟩ := rests rfl
          have completed := sane.tickets_completed resting.main asleep found
          cases incomplete.symm.trans completed
  | joinWait sleeps =>
      rw [phase] at rests
      obtain quiescing | stopping | closed | failed := rests.1
      · cases ready.symm.trans quiescing
      · cases ready.symm.trans stopping
      · cases ready.symm.trans closed
      · cases ready.symm.trans failed
  | idle => rfl
  | creating => rfl
  | created => rfl
  | joinThread => rfl

/-- A client that a signal wakes for nothing rests. -/
theorem woken_rests {place : ClientPhase}
    (rests : supervisor.ClientRests place) : supervisor.ClientRests place.woken :=
  (Goes.refl supervisor).woken_client rests

theorem submit_client {phase : MainPhase} {place : ClientPhase}
    (sane : supervisor.Sane phase) (rests : supervisor.ClientRests place) (generation : ℕ)
    (kind : ControlKind) (payload : ℕ) (wake : Status) (memory : Bool) :
    (supervisor.submit generation kind payload wake memory).supervisor.ClientRests place := by
  have stands := submit_stands supervisor generation kind payload wake memory
  cases place with
  | readyWait sleeps =>
      intro asleep
      rw [stands.state]
      exact rests asleep
  | ticketWait sequence sleeps =>
      intro asleep
      obtain ⟨ticket, found, incomplete⟩ := rests asleep
      exact ⟨ticket, submit_tickets sane generation kind payload wake memory found, incomplete⟩
  | joinWait sleeps =>
      change SupervisorState.Late _ ∧ (_ → _ = false)
      rw [stands.state, stands.mainExited]
      exact rests
  | idle => trivial
  | creating => trivial
  | created => trivial
  | joinThread => trivial

theorem submit_resting {generation : ℕ} {kind : ControlKind} {payload : ℕ} {wake : Status}
    {memory : Bool} {woken : Option (Option ι)} (orderly : system.Orderly)
    (resting : Resting system)
    (wakes : Woken (system.put
        (system.supervisor.submit generation kind payload wake memory).supervisor)
      (system.supervisor.submit generation kind payload wake memory).wake woken after) :
    Resting after := by
  have stands := submit_stands system.supervisor generation kind payload wake memory
  obtain ⟨quiet, unseen⟩ | ⟨signal, ready⟩ :=
    submit_cases system.supervisor generation kind payload wake memory
  · rw [quiet] at wakes
    cases wakes with
    | nobody => exact resting.put unseen
  · rw [signal] at wakes
    have clients (client : ι) := submit_client orderly.sane (resting.clients client) generation
      kind payload wake memory
    have main (awake : system.main.asleep = false) :
        (system.supervisor.submit generation kind payload wake memory).supervisor.MainRests
          system.main :=
      resting.main.awake awake stands.state
    cases wakes with
    | @one sleeper asleep =>
        cases sleeper with
        | none => exact ⟨clients, resting.main.woken stands.state⟩
        | some client =>
            have awake : system.main.asleep = false := by
              cases sleeps : system.main.asleep with
              | false => rfl
              | true =>
                  have alone := resting.sleeps_alone orderly.sane ready sleeps client
                  cases asleep.symm.trans alone
            have put : Resting (system.put
                (system.supervisor.submit generation kind payload wake memory).supervisor) :=
              ⟨clients, main awake⟩
            exact put.move client (woken_rests (clients client))
    | lost silent => exact ⟨clients, main (silent none)⟩

theorem ticketDestroy_unseen (supervisor : Supervisor) (sequence : ℕ) :
    Unseen supervisor (supervisor.ticketDestroy sequence).supervisor := by
  rw [Supervisor.ticketDestroy]
  cases found : supervisor.tickets sequence with
  | none => exact .refl supervisor
  | some ticket =>
      simp only
      split_ifs with open_ inactive
      · exact .refl supervisor
      · exact .refl supervisor
      · refine ⟨rfl, rfl, le_rfl, fun other held same incomplete => ?_⟩
        have apart : other ≠ sequence := by
          rintro rfl
          rw [found] at same
          rw [Option.some.inj same, incomplete] at open_
          exact open_ rfl
        exact (Function.update_of_ne apart ..).trans same

theorem joinDone_unseen (supervisor : Supervisor) (status : Status) :
    Unseen supervisor (supervisor.joinDone status).supervisor := by
  rw [joinDone]
  split_ifs
  · exact ⟨rfl, rfl, le_rfl, fun _ _ found _ => found⟩
  · exact ⟨rfl, rfl, le_rfl, fun _ _ found _ => found⟩

theorem joinSection_unseen {supervisor waited : Supervisor}
    (joined : supervisor.joinSection = .ok waited) :
    Unseen supervisor waited ∧ waited.state.Late := by
  rw [joinSection] at joined
  split_ifs at joined with absent busy early
  obtain rfl := Except.ok.inj joined
  refine ⟨⟨rfl, rfl, le_rfl, fun _ _ found _ => found⟩, ?_⟩
  change supervisor.state.Late
  by_contra late
  simp only [SupervisorState.Late, not_or] at late
  exact early late

theorem Step.resting {action : SupervisorAction ι} (step : Step system action after)
    (orderly : system.Orderly) (resting : Resting system) : Resting after := by
  have sane := orderly.sane
  have running (called : system.main.inCallback = true) : system.supervisor.state ≠ .closed := by
    refine sane.alive fun exited => ?_
    rw [exited] at called
    cases called
  cases step with
  | @start client idle success =>
      rw [startSection] at success ⊢
      split_ifs at success ⊢ with refused
      · exact absurd success (by simp [refuse, ealready])
      · have new : system.supervisor.state = .new := not_not.1 (not_or.1 refused).1
        have absent := (orderly.fresh new).1
        have started : Resting (system.put (system.supervisor.withState .starting)) := by
          refine ⟨fun other => ?_, ?_⟩
          · have rests := resting.clients other
            change ClientRests _ (system.clients other)
            cases phase : system.clients other with
            | readyWait => exact fun _ => .inl rfl
            | ticketWait =>
                rw [phase] at rests
                exact rests
            | joinWait =>
                rw [phase] at rests
                obtain quiescing | stopping | closed | failed := rests.1
                · cases new.symm.trans quiescing
                · cases new.symm.trans stopping
                · cases new.symm.trans closed
                · cases new.symm.trans failed
            | idle => trivial
            | creating => trivial
            | created => trivial
            | joinThread => trivial
          · change MainRests _ system.main
            rw [absent]
            exact .inr (.inl rfl)
        exact started.move client trivial
  | @createThread client creating =>
      have moved : Resting (system.move client .created) := resting.move client trivial
      have absent := (orderly.creating client creating).1
      refine ⟨moved.clients, ?_, fun asleep => (by cases asleep)⟩
      have rests := resting.main
      rw [absent] at rests
      obtain new | starting | failed := rests
      · exact absurd creating ((orderly.fresh new).2 client)
      · exact .inl starting
      · exact .inr failed
  | @startFailed client status creating failure =>
      have absent := (orderly.creating client creating).1
      have alive : system.supervisor.state ≠ .closed := sane.alive (by rw [absent]; simp)
      have failed : (system.supervisor.startFailed status).supervisor.state = .failed :=
        (setFailed_failed sane.recorded status .threadStart false none).1
      have moved : Resting (system.move client .idle) := resting.move client trivial
      exact ⟨fun other => (setFailed_goes alive status .threadStart false none).woken_client
        (moved.clients other), .of_failed failed system.main⟩
  | @startThread client =>
      have woken : Resting (system.put system.supervisor.startThread.supervisor).wakeAll :=
        ⟨fun other => (Goes.of_stands ⟨rfl, rfl, rfl, rfl⟩).woken_client (resting.clients other),
          resting.main.woken rfl⟩
      exact woken.evaluate client (fun _ same => by cases same)
  | submit wakes => exact submit_resting orderly resting wakes
  | requestShutdown wakes =>
      rename_i generation mode wake memory
      refine wakes.resting resting (requestShutdown_goes ..) (requestShutdown_announces ..) ?_
      intro loud
      obtain ⟨quiet, -⟩ | ⟨-, ready⟩ :=
        requestShutdown_cases system.supervisor generation mode wake memory
      · cases quiet.symm.trans loud
      · exact resting.main.of_started ready
  | ticketWait => exact resting.evaluate _ (fun _ same => by cases same)
  | ticketDestroy => exact resting.put (ticketDestroy_unseen ..)
  | @fail status restart after wakes =>
      refine wakes.resting resting (fail_goes ..) (fail_announces ..) fun loud => ?_
      rw [Supervisor.fail] at loud ⊢
      split_ifs at loud ⊢
      · cases loud
      · cases loud
      · exact .of_failed (setFailed_failed sane.recorded status .hostFailStop restart _).1 _
  | @join client waited idle joined =>
      obtain ⟨unseen, late⟩ := joinSection_unseen joined
      exact (resting.put unseen).evaluate client fun _ _ => late
  | joined => exact (resting.put (joinDone_unseen ..)).move _ trivial
  | @awake client waits =>
      refine resting.evaluate client fun asleep same => ?_
      have rests := resting.clients client
      rw [same] at rests
      exact rests.1
  | @timeout client waits =>
      cases phase : system.clients client with
      | joinWait asleep =>
          have stored : Resting (system.put { system.supervisor with joining := false }) :=
            resting.put ⟨rfl, rfl, le_rfl, fun _ _ found _ => found⟩
          exact stored.move client trivial
      | _ => exact resting.move client trivial
  | @spurious sleeper asleep =>
      cases sleeper with
      | none => exact ⟨resting.clients, resting.main.woken rfl⟩
      | some client => exact resting.move client (woken_rests (resting.clients client))
  | markRecovering called wakes =>
      exact wakes.resting resting (markRecovering_goes _) (markRecovering_announces _)
        fun _ => .of_callback called _
  | markReady called mode wakes =>
      exact wakes.resting resting (markReady_goes _) (markReady_announces _)
        fun _ => .of_callback called _
  | controlTake called mode wakes =>
      exact wakes.resting resting (controlTake_goes (running called)) (controlTake_announces _)
        fun _ => .of_callback called _
  | controlComplete called mode wakes =>
      exact wakes.resting resting (controlComplete_goes (running called) ..)
        (controlComplete_announces ..) fun _ => .of_callback called _
  | @main status next woken done wakes =>
      obtain ⟨rests, announces⟩ := mainSection_rests resting.main done
      have goes := sane.mainSection_goes done
      have same : woken.supervisor = next.supervisor := wakes.supervisor
      refine ⟨?_, same.symm ▸ rests⟩
      change ∀ client, woken.supervisor.ClientRests (woken.clients client)
      cases wake : next.wake with
      | nobody =>
          rw [wake] at wakes
          cases wakes with
          | nobody => exact fun client => (announces.quiet wake).client (resting.clients client)
      | one => exact absurd wake announces.shared
      | everybody =>
          rw [wake] at wakes
          cases wakes with
          | everybody => exact fun client => goes.woken_client (resting.clients client)

theorem Reachable.resting {options : SupervisorOptions} (reachable : Reachable options system) :
    Resting system := by
  induction reachable with
  | init created =>
      rw [create] at created
      split_ifs at created
      obtain rfl := Except.ok.inj created
      exact ⟨fun _ => trivial, .inl rfl⟩
  | step reachable step induction => exact step.resting reachable.orderly induction

/-- No wakeup is lost: behind any run, whoever sleeps on the condition and is not signalled has a
reason to.  The thread sleeps only over an empty queue and not in the failed state, and then no
client sleeps for a ticket; a client sleeps for a ticket only while it is in flight or in the queue,
for READY only while the supervisor starts, and for the end of the thread only before its exit. -/
theorem supervisor_wakeups {options : SupervisorOptions} (reachable : Reachable options system) :
    (system.main.asleep = true →
      system.supervisor.depth = 0 ∧ system.supervisor.state ≠ .failed ∧
        ∀ client sequence, system.clients client ≠ .ticketWait sequence true) ∧
    ∀ client,
      (system.clients client = .readyWait true →
        system.supervisor.state = .starting ∨ system.supervisor.state = .recovering) ∧
      (∀ sequence, system.clients client = .ticketWait sequence true →
        sequence ∈ system.supervisor.inflight.toList ++ system.supervisor.queued) ∧
      (system.clients client = .joinWait true → system.supervisor.mainExited = false) := by
  have sane := reachable.orderly.sane
  have resting := reachable.resting
  have waits (client : ι) (sequence : ℕ)
      (sleeps : system.clients client = .ticketWait sequence true) :
      ∃ ticket, system.supervisor.tickets sequence = some ticket ∧ ticket.completed = false := by
    have rests := resting.clients client
    rw [sleeps] at rests
    exact rests rfl
  refine ⟨fun asleep => ⟨?_, ?_, fun client sequence sleeps => ?_⟩, fun client =>
    ⟨fun sleeps => ?_, fun sequence sleeps => ?_, fun sleeps => ?_⟩⟩
  · have rests := resting.main
    cases phase : system.main with
    | awaiting sleeps =>
        rw [phase] at rests asleep
        obtain starting | failed := rests.1
        · have empty := sane.staged.early (.inr (.inl starting))
          have none_queued := (List.append_eq_nil_iff.1 (List.append_eq_nil_iff.1 empty).2).2
          have length := congrArg List.length none_queued
          rwa [queued, window_length] at length
        · exact absurd failed (rests.2 asleep)
    | waiting sleeps =>
        rw [phase] at rests asleep
        exact (rests asleep).1
    | _ =>
        rw [phase] at asleep
        cases asleep
  · have rests := resting.main
    cases phase : system.main with
    | awaiting sleeps =>
        rw [phase] at rests asleep
        exact rests.2 asleep
    | waiting sleeps =>
        rw [phase] at rests asleep
        exact (rests asleep).2
    | _ =>
        rw [phase] at asleep
        cases asleep
  · obtain ⟨ticket, found, incomplete⟩ := waits client sequence sleeps
    have completed := sane.tickets_completed resting.main asleep found
    cases incomplete.symm.trans completed
  · have rests := resting.clients client
    rw [sleeps] at rests
    exact rests rfl
  · obtain ⟨ticket, found, incomplete⟩ := waits client sequence sleeps
    exact (sane.ledger.known sequence ticket found).2 incomplete
  · have rests := resting.clients client
    rw [sleeps] at rests
    exact rests.2 rfl

/-- The thread sleeps behind the dispatch of the only control. -/
theorem supervisor_wakeups_dispatched : ∃ system : SupervisorSystem Unit,
    system.main.asleep = true ∧ system.supervisor.depth = 0 := by
  obtain ⟨system, reachable, -, -, -, -, waiting⟩ := dispatched_reachable
  have asleep : system.main.asleep = true := by
    rw [waiting]
    rfl
  exact ⟨system, asleep, ((supervisor_wakeups reachable).1 asleep).1⟩

end SupervisorSystem
end Postgamma.Embedded
