import Mathlib
import Postgamma.Embedded.SupervisorQueue

/-!
# The tickets of a supervisor

Accepted tickets are completed in the order in which they were accepted: the completions, the
control in flight and the queue are, one behind the other, the list of accepted tickets.  What the
states of the supervisor and the place of its thread say about that list is the invariant of the
runs, and at the exit of the thread nothing of the list is left over.
-/

namespace Postgamma.Embedded

namespace Supervisor

/-- The tickets that are accepted and not completed, behind the one that was just dequeued. -/
def pending (supervisor : Supervisor) (hand : Option ℕ) : List ℕ :=
  hand.toList ++ (supervisor.inflight.toList ++ supervisor.queued)

/-- The books over the tickets; `hand` is a ticket that is dequeued and not yet in flight. -/
structure Ledger (supervisor : Supervisor) (hand : Option ℕ) : Prop where
  order : supervisor.accepted = supervisor.log.map Prod.fst ++ supervisor.pending hand
  increasing : supervisor.accepted.Pairwise (· < ·)
  below : ∀ sequence ∈ supervisor.accepted, sequence < supervisor.nextSequence
  head : supervisor.head < supervisor.capacity
  full : supervisor.depth ≤ supervisor.capacity
  incomplete : ∀ sequence ∈ supervisor.pending hand,
    ∃ ticket, supervisor.tickets sequence = some ticket ∧ ticket.completed = false
  known : ∀ sequence ticket, supervisor.tickets sequence = some ticket →
    sequence ∈ supervisor.accepted ∧
      (ticket.completed = false → sequence ∈ supervisor.pending hand)
  gone : ∀ sequence ∈ supervisor.destroyed, sequence ∈ supervisor.log.map Prod.fst ∧
    supervisor.tickets sequence = none
  once : supervisor.destroyed.Nodup
  submitted : supervisor.submitted = supervisor.accepted.length
  limit : supervisor.submitted ≤ lastWord
  completed : supervisor.completed = supervisor.log.length
  active : supervisor.activeTickets + supervisor.destroyed.length = supervisor.accepted.length

/-- Two supervisors with the same books. -/
structure SameBooks (before after : Supervisor) : Prop where
  queue : after.queue = before.queue
  capacity : after.capacity = before.capacity
  head : after.head = before.head
  depth : after.depth = before.depth
  inflight : after.inflight = before.inflight
  nextSequence : after.nextSequence = before.nextSequence
  submitted : after.submitted = before.submitted
  completed : after.completed = before.completed
  activeTickets : after.activeTickets = before.activeTickets
  tickets : after.tickets = before.tickets
  accepted : after.accepted = before.accepted
  log : after.log = before.log
  destroyed : after.destroyed = before.destroyed

variable {supervisor before middle after : Supervisor} {hand : Option ℕ} {sequence : ℕ}

theorem SameBooks.refl (supervisor : Supervisor) : SameBooks supervisor supervisor :=
  ⟨rfl, rfl, rfl, rfl, rfl, rfl, rfl, rfl, rfl, rfl, rfl, rfl, rfl⟩

theorem SameBooks.queued (same : SameBooks before after) : after.queued = before.queued := by
  rw [Supervisor.queued, Supervisor.queued, same.queue, same.capacity, same.head, same.depth]

theorem SameBooks.pending (same : SameBooks before after) (hand : Option ℕ) :
    after.pending hand = before.pending hand := by
  rw [Supervisor.pending, Supervisor.pending, same.inflight, same.queued]

theorem SameBooks.ledger (same : SameBooks before after) (ledger : Ledger before hand) :
    Ledger after hand where
  order := by rw [same.accepted, same.log, same.pending, ledger.order]
  increasing := same.accepted ▸ ledger.increasing
  below := by
    rw [same.accepted, same.nextSequence]
    exact ledger.below
  head := by
    rw [same.head, same.capacity]
    exact ledger.head
  full := by
    rw [same.depth, same.capacity]
    exact ledger.full
  incomplete := by
    rw [same.pending, same.tickets]
    exact ledger.incomplete
  known := by
    rw [same.pending, same.tickets, same.accepted]
    exact ledger.known
  gone := by
    rw [same.destroyed, same.log, same.tickets]
    exact ledger.gone
  once := same.destroyed ▸ ledger.once
  submitted := by rw [same.submitted, same.accepted, ledger.submitted]
  limit := same.submitted ▸ ledger.limit
  completed := by rw [same.completed, same.log, ledger.completed]
  active := by rw [same.activeTickets, same.destroyed, same.accepted, ledger.active]

theorem setFailed_books (supervisor : Supervisor) (status : Status) (origin : FailureOrigin)
    (restart : Bool) (sequence : Option ℕ) :
    SameBooks supervisor (supervisor.setFailed status origin restart sequence) := by
  cases recorded : supervisor.lastFailure with
  | none =>
      simp only [setFailed, recorded]
      exact ⟨rfl, rfl, rfl, rfl, rfl, rfl, rfl, rfl, rfl, rfl, rfl, rfl, rfl⟩
  | some record =>
      simp only [setFailed, recorded]
      split_ifs
      · exact ⟨rfl, rfl, rfl, rfl, rfl, rfl, rfl, rfl, rfl, rfl, rfl, rfl, rfl⟩
      · exact .refl supervisor

theorem withState_books (supervisor : Supervisor) (state : SupervisorState) :
    SameBooks supervisor (supervisor.withState state) :=
  ⟨rfl, rfl, rfl, rfl, rfl, rfl, rfl, rfl, rfl, rfl, rfl, rfl, rfl⟩

theorem dequeueTicket_queued (head : before.head < before.capacity)
    (taken : before.dequeueTicket = some (sequence, after)) :
    before.queued = sequence :: after.queued ∧ after.inflight = before.inflight := by
  rw [dequeueTicket] at taken
  split_ifs at taken with empty
  cases taken
  refine ⟨?_, rfl⟩
  have first := window_take before.queue before.capacity before.head
    (Nat.one_le_iff_ne_zero.2 empty)
  have rest := window_drop before.queue before.capacity before.head before.depth 1
  have whole := List.take_append_drop 1
    (window before.queue before.capacity before.head before.depth)
  rw [← first, ← rest, window_succ, window_zero, Nat.add_zero, Nat.mod_eq_of_lt head] at whole
  exact whole.symm

/-- A ticket moves from the queue into the hand. -/
theorem Ledger.dequeue (ledger : Ledger before none) (free : before.inflight = none)
    (taken : before.dequeueTicket = some (sequence, after)) : Ledger after (some sequence) := by
  obtain ⟨front, same⟩ := dequeueTicket_queued ledger.head taken
  have pending : after.pending (some sequence) = before.pending none := by
    rw [Supervisor.pending, Supervisor.pending, same, free, front]
    rfl
  have positive : 0 < before.capacity := Nat.zero_lt_of_lt ledger.head
  have full := ledger.full
  rw [dequeueTicket] at taken
  split_ifs at taken
  cases taken
  exact
    { ledger with
      order := pending ▸ ledger.order
      head := Nat.mod_lt _ positive
      full := (Nat.sub_le _ _).trans full
      incomplete := pending ▸ ledger.incomplete
      known := pending ▸ ledger.known }

/-- The books over another place of one ticket. -/
theorem Ledger.relabel {other : Option ℕ} (ledger : Ledger supervisor hand)
    {inflight : Option ℕ}
    (same : (supervisor.withInflight inflight).pending other = supervisor.pending hand) :
    Ledger (supervisor.withInflight inflight) other where
  order := same ▸ ledger.order
  increasing := ledger.increasing
  below := ledger.below
  head := ledger.head
  full := ledger.full
  incomplete := same ▸ ledger.incomplete
  known := same ▸ ledger.known
  gone := ledger.gone
  once := ledger.once
  submitted := ledger.submitted
  limit := ledger.limit
  completed := ledger.completed
  active := ledger.active

/-- The ticket in the hand is put in flight. -/
theorem Ledger.launch (ledger : Ledger supervisor (some sequence))
    (free : supervisor.inflight = none) :
    Ledger (supervisor.withInflight (some sequence)) none := by
  refine ledger.relabel ?_
  rw [pending, pending, free]
  rfl

/-- The control in flight is taken back into the hand. -/
theorem Ledger.land (ledger : Ledger supervisor none)
    (flying : supervisor.inflight = some sequence) :
    Ledger (supervisor.withInflight none) (some sequence) := by
  refine ledger.relabel ?_
  rw [pending, pending, flying]
  rfl

/-- Completing the control in flight and taking it out of flight may be done in any order. -/
theorem completeTicket_withInflight (supervisor : Supervisor) (sequence : ℕ) (status : Status)
    (executed : Bool) (inflight : Option ℕ) :
    (supervisor.completeTicket sequence status executed).withInflight inflight =
      (supervisor.withInflight inflight).completeTicket sequence status executed := by
  cases found : supervisor.tickets sequence with
  | none => simp only [completeTicket, withInflight, found]
  | some ticket =>
      simp only [completeTicket, withInflight, found]
      cases ticket.completed <;> rfl

theorem completeTicket_open {ticket : Ticket} (found : supervisor.tickets sequence = some ticket)
    (incomplete : ticket.completed = false) (status : Status) (executed : Bool) :
    supervisor.completeTicket sequence status executed =
      { supervisor with
        tickets := Function.update supervisor.tickets sequence
          (some { ticket with operationStatus := status, completed := true })
        completed :=
          if supervisor.completed = lastWord then supervisor.completed
          else supervisor.completed + 1
        log := supervisor.log ++ [(sequence, executed)] } := by
  simp only [completeTicket, found, incomplete]
  rfl

/-- The ticket in the hand is completed. -/
theorem Ledger.complete (ledger : Ledger supervisor (some sequence)) (status : Status)
    (executed : Bool) :
    Ledger (supervisor.completeTicket sequence status executed) none := by
  have held : supervisor.pending (some sequence) = sequence :: supervisor.pending none := rfl
  obtain ⟨ticket, found, incomplete⟩ := ledger.incomplete sequence (by simp [held])
  rw [completeTicket_open found incomplete]
  have distinct : (sequence :: supervisor.pending none).Nodup := by
    have nodup := ledger.increasing.imp (fun less => Nat.ne_of_lt less)
    rw [ledger.order, held] at nodup
    exact (List.pairwise_append.1 nodup).2.1
  have absent := (List.nodup_cons.1 distinct).1
  have more : supervisor.log.length < lastWord := by
    have whole := ledger.submitted
    have limit := ledger.limit
    rw [ledger.order, held, List.length_append, List.length_map, List.length_cons] at whole
    omega
  refine
    { ledger with
      order := ?_
      incomplete := fun other member => ?_
      known := fun other ticket' found' => ?_
      gone := fun other member => ?_
      completed := ?_ }
  · change supervisor.accepted =
      (supervisor.log ++ [(sequence, executed)]).map Prod.fst ++ supervisor.pending none
    rw [ledger.order, held, List.map_append, List.append_assoc]
    rfl
  · have apart : other ≠ sequence := fun same => absent (same ▸ member)
    obtain ⟨ticket', found', incomplete'⟩ :=
      ledger.incomplete other (List.mem_cons_of_mem _ member)
    exact ⟨ticket', (Function.update_of_ne apart ..).trans found', incomplete'⟩
  · change Function.update supervisor.tickets sequence _ other = some ticket' at found'
    obtain rfl | apart := eq_or_ne other sequence
    · rw [Function.update_self] at found'
      refine ⟨(ledger.known other ticket found).1, fun open_ => ?_⟩
      rw [← Option.some.inj found'] at open_
      cases open_
    · rw [Function.update_of_ne apart] at found'
      obtain ⟨accepted, waits⟩ := ledger.known other ticket' found'
      refine ⟨accepted, fun open_ => ?_⟩
      obtain same | member := List.mem_cons.1 (waits open_)
      · exact absurd same apart
      · exact member
  · obtain ⟨logged, freed⟩ := ledger.gone other member
    have apart : other ≠ sequence := by
      rintro rfl
      rw [found] at freed
      cases freed
    refine ⟨?_, (Function.update_of_ne apart ..).trans freed⟩
    rw [List.map_append]
    exact List.mem_append_left _ logged
  · have count := ledger.completed
    have below : supervisor.completed ≠ lastWord := by omega
    change (if supervisor.completed = lastWord then supervisor.completed
      else supervisor.completed + 1) = (supervisor.log ++ [(sequence, executed)]).length
    rw [if_neg below, count, List.length_append]
    rfl

/-- A completed ticket is destroyed. -/
theorem Ledger.destroy {ticket : Ticket} (ledger : Ledger supervisor none)
    (found : supervisor.tickets sequence = some ticket) (done : ticket.completed = true)
    (some_active : supervisor.activeTickets ≠ 0) :
    Ledger { supervisor.setTicket sequence none with
      activeTickets := supervisor.activeTickets - 1
      destroyed := supervisor.destroyed ++ [sequence] } none := by
  have away : ∀ other ∈ supervisor.pending none, other ≠ sequence := by
    rintro other member rfl
    obtain ⟨held, same, incomplete⟩ := ledger.incomplete other member
    rw [found] at same
    rw [← Option.some.inj same, done] at incomplete
    cases incomplete
  have logged : sequence ∈ supervisor.log.map Prod.fst := by
    have accepted := (ledger.known sequence ticket found).1
    rw [ledger.order] at accepted
    obtain logged | waits := List.mem_append.1 accepted
    · exact logged
    · exact absurd rfl (away sequence waits)
  have fresh : sequence ∉ supervisor.destroyed := by
    intro member
    rw [(ledger.gone sequence member).2] at found
    cases found
  refine
    { ledger with
      incomplete := fun other member => ?_
      known := fun other held found' => ?_
      gone := fun other member => ?_
      once := ?_
      active := ?_ }
  · obtain ⟨held, same, incomplete⟩ := ledger.incomplete other member
    exact ⟨held, (Function.update_of_ne (away other member) ..).trans same, incomplete⟩
  · change Function.update supervisor.tickets sequence none other = some held at found'
    obtain rfl | apart := eq_or_ne other sequence
    · rw [Function.update_self] at found'
      cases found'
    · rw [Function.update_of_ne apart] at found'
      exact ledger.known other held found'
  · change other ∈ supervisor.log.map Prod.fst ∧
      Function.update supervisor.tickets sequence none other = none
    obtain old | new := List.mem_append.1 member
    · have apart : other ≠ sequence := fun same => fresh (same ▸ old)
      rw [Function.update_of_ne apart]
      exact ledger.gone other old
    · rw [List.mem_singleton.1 new, Function.update_self]
      exact ⟨logged, rfl⟩
  · exact List.nodup_append.2 ⟨ledger.once, List.nodup_singleton sequence,
      fun other old last new => fun same => fresh (by
        rw [List.mem_singleton.1 new] at same
        exact same ▸ old)⟩
  · have active := ledger.active
    change supervisor.activeTickets - 1 + (supervisor.destroyed ++ [sequence]).length =
      supervisor.accepted.length
    rw [List.length_append, List.length_singleton]
    omega

/-- A ticket is accepted. -/
theorem Ledger.enqueue {memory : Bool} {allocated : Supervisor} {ticket : Ticket}
    (ledger : Ledger supervisor none) (incomplete : ticket.completed = false)
    (allocates : supervisor.allocateTicket memory = .ok (sequence, allocated))
    (enqueues : allocated.enqueueTicket sequence ticket = .ok after) :
    Ledger after none ∧ after.pending none = supervisor.pending none ++ [sequence] ∧
      after.tickets = Function.update supervisor.tickets sequence (some ticket) ∧
      after.state = supervisor.state ∧ after.lastFailure = supervisor.lastFailure ∧
      after.callbacks = supervisor.callbacks ∧ after.mainExited = supervisor.mainExited := by
  rw [allocateTicket] at allocates
  split_ifs at allocates with refused
  obtain ⟨rfl, rfl⟩ := Prod.mk.inj (Except.ok.inj allocates)
  rw [enqueueTicket] at enqueues
  split_ifs at enqueues with full
  obtain rfl := Except.ok.inj enqueues
  simp only [not_or] at refused
  have room : supervisor.depth < supervisor.capacity := Nat.lt_of_not_le full
  have fresh : supervisor.nextSequence ∉ supervisor.accepted := fun member =>
    Nat.lt_irrefl _ (ledger.below _ member)
  have unknown : ∀ other ∈ supervisor.accepted, other ≠ supervisor.nextSequence :=
    fun other member same => fresh (same ▸ member)
  have waiting : ∀ other ∈ supervisor.pending none, other ∈ supervisor.accepted :=
    fun other member => ledger.order ▸ List.mem_append_right _ member
  have pending : Supervisor.pending
      { ({ supervisor with nextSequence := supervisor.nextSequence + 1 } : Supervisor).setTicket
          supervisor.nextSequence (some ticket) with
        queue := Function.update supervisor.queue
          ((supervisor.head + supervisor.depth) % supervisor.capacity) supervisor.nextSequence
        depth := supervisor.depth + 1
        submitted := supervisor.submitted + 1
        activeTickets := supervisor.activeTickets + 1
        accepted := supervisor.accepted ++ [supervisor.nextSequence] } none =
      supervisor.pending none ++ [supervisor.nextSequence] := by
    have pushed := @window_push ℕ supervisor.capacity supervisor.head supervisor.depth
      supervisor.queue supervisor.nextSequence room
    simp only [Supervisor.pending, queued, setTicket]
    rw [pushed, List.append_assoc, List.append_assoc]
  refine ⟨?_, pending, rfl, rfl, rfl, rfl, rfl⟩
  refine
    { order := ?_
      increasing := ?_
      below := fun other member => ?_
      head := ledger.head
      full := room
      incomplete := fun other member => ?_
      known := fun other held found => ?_
      gone := fun other member => ?_
      once := ledger.once
      submitted := ?_
      limit := ?_
      completed := ledger.completed
      active := ?_ }
  · rw [pending, ← List.append_assoc]
    exact congrArg (· ++ [supervisor.nextSequence]) ledger.order
  · refine List.pairwise_append.2 ⟨ledger.increasing, List.pairwise_singleton .., ?_⟩
    intro other member last single
    rw [List.mem_singleton.1 single]
    exact ledger.below other member
  · obtain old | new := List.mem_append.1 member
    · exact (ledger.below other old).trans (Nat.lt_succ_self _)
    · rw [List.mem_singleton.1 new]
      exact Nat.lt_succ_self _
  · rw [pending] at member
    change ∃ held, Function.update supervisor.tickets supervisor.nextSequence (some ticket) other =
      some held ∧ held.completed = false
    obtain old | new := List.mem_append.1 member
    · rw [Function.update_of_ne (unknown other (waiting other old))]
      exact ledger.incomplete other old
    · rw [List.mem_singleton.1 new, Function.update_self]
      exact ⟨ticket, rfl, incomplete⟩
  · rw [pending]
    change Function.update supervisor.tickets supervisor.nextSequence (some ticket) other =
      some held at found
    change other ∈ supervisor.accepted ++ [supervisor.nextSequence] ∧ _
    obtain rfl | apart := eq_or_ne other supervisor.nextSequence
    · exact ⟨by simp, fun _ => by simp⟩
    · rw [Function.update_of_ne apart] at found
      obtain ⟨accepted, waits⟩ := ledger.known other held found
      exact ⟨List.mem_append_left _ accepted, fun open_ => List.mem_append_left _ (waits open_)⟩
  · change other ∈ supervisor.log.map Prod.fst ∧
      Function.update supervisor.tickets supervisor.nextSequence (some ticket) other = none
    obtain ⟨logged, freed⟩ := ledger.gone other member
    have accepted : other ∈ supervisor.accepted := by
      rw [ledger.order]
      exact List.mem_append_left _ logged
    rw [Function.update_of_ne (unknown other accepted)]
    exact ⟨logged, freed⟩
  · change supervisor.submitted + 1 = (supervisor.accepted ++ [supervisor.nextSequence]).length
    rw [ledger.submitted, List.length_append]
    rfl
  · have below := ledger.limit
    have apart := refused.2.2.1
    change supervisor.submitted + 1 ≤ lastWord
    omega
  · have active := ledger.active
    change supervisor.activeTickets + 1 + supervisor.destroyed.length =
      (supervisor.accepted ++ [supervisor.nextSequence]).length
    rw [List.length_append, List.length_singleton]
    omega

/-- What the books do not cover: the state, the failure and the mode. -/
structure Stands (before after : Supervisor) : Prop where
  state : after.state = before.state
  lastFailure : after.lastFailure = before.lastFailure
  callbacks : after.callbacks = before.callbacks
  mainExited : after.mainExited = before.mainExited

theorem Stands.refl (supervisor : Supervisor) : Stands supervisor supervisor :=
  ⟨rfl, rfl, rfl, rfl⟩

theorem Stands.trans (first : Stands before middle) (second : Stands middle after) :
    Stands before after :=
  ⟨second.state.trans first.state, second.lastFailure.trans first.lastFailure,
    second.callbacks.trans first.callbacks, second.mainExited.trans first.mainExited⟩

theorem completeTicket_stands (supervisor : Supervisor) (sequence : ℕ) (status : Status)
    (executed : Bool) : Stands supervisor (supervisor.completeTicket sequence status executed) := by
  cases found : supervisor.tickets sequence with
  | none =>
      simp only [completeTicket, found]
      exact .refl supervisor
  | some ticket =>
      simp only [completeTicket, found]
      cases ticket.completed <;> exact ⟨rfl, rfl, rfl, rfl⟩

theorem completeTicket_inflight (supervisor : Supervisor) (sequence : ℕ) (status : Status)
    (executed : Bool) :
    (supervisor.completeTicket sequence status executed).inflight = supervisor.inflight := by
  cases found : supervisor.tickets sequence with
  | none => simp only [completeTicket, found]
  | some ticket =>
      simp only [completeTicket, found]
      cases ticket.completed <;> rfl

theorem completeTicket_queued (supervisor : Supervisor) (sequence : ℕ) (status : Status)
    (executed : Bool) :
    (supervisor.completeTicket sequence status executed).queued = supervisor.queued ∧
      (supervisor.completeTicket sequence status executed).depth = supervisor.depth := by
  cases found : supervisor.tickets sequence with
  | none =>
      simp only [completeTicket, found]
      exact ⟨trivial, trivial⟩
  | some ticket =>
      simp only [completeTicket, found]
      cases ticket.completed <;> exact ⟨rfl, rfl⟩

theorem dequeueTicket_stands (taken : before.dequeueTicket = some (sequence, after)) :
    Stands before after ∧ after.depth + 1 = before.depth ∧ after.tickets = before.tickets := by
  rw [dequeueTicket] at taken
  split_ifs at taken with empty
  cases taken
  exact ⟨⟨rfl, rfl, rfl, rfl⟩, Nat.sub_add_cancel (Nat.pos_of_ne_zero empty), rfl⟩

theorem rejectLoop_empties (status : Status) {count : ℕ} (ledger : Ledger supervisor none)
    (free : supervisor.inflight = none) (enough : supervisor.depth ≤ count) :
    Ledger (rejectLoop status count supervisor) none ∧
      (rejectLoop status count supervisor).pending none = [] ∧
      Stands supervisor (rejectLoop status count supervisor) := by
  induction count generalizing supervisor with
  | zero =>
      refine ⟨ledger, ?_, .refl supervisor⟩
      rw [rejectLoop, pending, free, queued, Nat.le_zero.1 enough]
      rfl
  | succ count induction =>
      rw [rejectLoop]
      cases taken : supervisor.dequeueTicket with
      | none =>
          have empty : supervisor.depth = 0 := by
            rw [dequeueTicket] at taken
            split_ifs at taken with empty
            exact empty
          refine ⟨ledger, ?_, .refl supervisor⟩
          simp only [pending, free, queued, empty]
          rfl
      | some pair =>
          obtain ⟨sequence, rest⟩ := pair
          obtain ⟨stands, less, -⟩ := dequeueTicket_stands taken
          obtain ⟨-, inflight⟩ := dequeueTicket_queued ledger.head taken
          have completed := (ledger.dequeue free taken).complete status false
          obtain ⟨ledger', empty, stands'⟩ := induction completed
            (by rw [completeTicket_inflight, inflight, free])
            (by rw [(completeTicket_queued rest sequence status false).2]; omega)
          exact ⟨ledger', empty,
            stands.trans ((completeTicket_stands rest sequence status false).trans stands')⟩

end Supervisor
end Postgamma.Embedded
