import Mathlib
import Postgamma.Runtime.RegistryInvariants

/-!
# The critical sections of an execution

From launch to join: what each critical section of an execution leaves behind in a consistent
registry, that it does not abort, and that the registry is consistent again.
-/

namespace Postgamma.Runtime

variable {capacity pool : ℕ}

namespace Registry

def startedSlot (slot : BackendSlot pool) : BackendSlot pool :=
  { slot with
    queued := false, executionTokenHeld := true, quantumRunning := true
    rescheduleRequested := false }

def quantumStarted (registry : Registry capacity pool) (worker : Fin pool)
    (previous : Option (Fin capacity)) (index : Fin capacity) : Registry capacity pool :=
  { registry.setSlot index (startedSlot (registry.slots index)) with
    runnable := registry.runnable.remove previous index
    runnableDepth := registry.runnableDepth - 1
    executionTokensActive := registry.executionTokensActive + 1
    workerRunning := Function.update registry.workerRunning worker true
    runningQuantums := registry.runningQuantums + 1
    backendThreadsActive := registry.backendThreadsActive + 1
    clientThreadsActive := registry.clientThreadsActive + 1 }

variable {index : Fin capacity} {registry : Registry capacity pool}

theorem startQuantum_eq (consistent : registry.Consistent)
    (worker : Fin pool) (previous : Option (Fin capacity))
    (queued : (registry.slots index).queued = true) :
    (registry.dequeued previous index).startQuantum worker index =
      .ok (registry.quantumStarted worker previous index) := by
  have sound := consistent.sound index
  obtain ⟨running, pooled, parked, -⟩ := sound.queued queued
  have present : (registry.slots index).start ≠ none := by
    intro missing
    rw [sound.start, running] at missing
    cases missing
  simp [startQuantum, dequeued, dequeuedSlot, setSlot, quantumStarted, startedSlot, running, pooled,
    parked, present]

theorem quantumStarted_consistent
    (consistent : registry.Consistent) (worker : Fin pool) {previous : Option (Fin capacity)}
    (queued : (registry.slots index).queued = true)
    (free : registry.executionTokensActive < registry.executionTokenCount)
    (listed : (registry.runnable.remove previous index).Lists fun place =>
      (registry.slots place).queued = true ∧ place ≠ index) :
    (registry.quantumStarted worker previous index).Consistent := by
  have sound := consistent.sound index
  obtain ⟨running, pooled, parked, untaken⟩ := sound.queued queued
  have client := sound.client pooled
  have positive : 0 < registry.runnableDepth := consistent.depth ▸ census_pos index queued
  have started : (startedSlot (registry.slots index)).Sound :=
    { queued := by simp [startedSlot]
      quantum := fun _ => ⟨running, pooled, rfl⟩
      token := fun _ => .inl rfl
      pinned := sound.pinned, blocked := sound.blocked, start := sound.start
      starting := sound.starting, thread := sound.thread, client := sound.client
      completion := sound.completion, delivery := sound.delivery }
  refine consistent.retain rfl rfl rfl free ?_ started ?_ ?_ ⟨rfl, rfl, rfl, fun used => used⟩
  · constructor
    · simp [quantumStarted, startedSlot, setSlot, queued, Nat.sub_add_cancel positive]
    · simp [quantumStarted, startedSlot, setSlot, untaken]
    · simp [quantumStarted, startedSlot, setSlot, parked]
    · rfl
    · simp [quantumStarted, startedSlot, setSlot, BackendSlot.carried, parked, pooled]
    · simp [quantumStarted, startedSlot, setSlot, BackendSlot.clientCarried, BackendSlot.carried,
        parked, pooled, client]
    · rfl
    · rfl
  · refine listed.congr fun place => ?_
    by_cases here : place = index
    · simp [here, quantumStarted, setSlot, startedSlot]
    · simp [here, quantumStarted, setSlot]
  · exact lists_update (fun slot => slot.state = .completed) consistent.completions Iff.rfl

def yieldedSlot (slot : BackendSlot pool) (worker : Fin pool) : BackendSlot pool :=
  { slot with
    quantumRunning := false, executionTokenHeld := false
    assignedWorker := some (followingWorker worker)
    queued := slot.rescheduleRequested, rescheduleRequested := false }

/-- The registry behind a quantum that has yielded. -/
def yielded (registry : Registry capacity pool) (worker : Fin pool) (index : Fin capacity) :
    Registry capacity pool :=
  { registry.setSlot index (yieldedSlot (registry.slots index) worker) with
    workerRunning := Function.update registry.workerRunning worker false
    runningQuantums := registry.runningQuantums - 1
    executionTokensActive := registry.executionTokensActive - 1
    backendThreadsActive := registry.backendThreadsActive - 1
    clientThreadsActive := registry.clientThreadsActive - 1
    runnable :=
      if (registry.slots index).rescheduleRequested = true then registry.runnable.append index
      else registry.runnable
    runnableDepth := registry.runnableDepth + (registry.slots index).rescheduleRequested.toNat
    broadcast := true }

theorem Consistent.quantum_counted (consistent : registry.Consistent)
    (quantum : (registry.slots index).quantumRunning = true) :
    0 < registry.runningQuantums ∧ 0 < registry.executionTokensActive ∧
      0 < registry.backendThreadsActive ∧ 0 < registry.clientThreadsActive := by
  have sound := consistent.sound index
  obtain ⟨running, pooled, held⟩ := sound.quantum quantum
  rw [consistent.quantums, consistent.tokens, consistent.threads, consistent.clients]
  refine ⟨census_pos index quantum, census_pos index held, census_pos index ?_,
    census_pos index ?_⟩
  · simp [BackendSlot.carried, quantum]
  · simp [BackendSlot.clientCarried, BackendSlot.carried, quantum, sound.client pooled]

theorem completeExecution_yield (consistent : registry.Consistent) {handle : BackendHandle}
    {status : ExitStatus} {worker : Fin pool}
    (quantum : (registry.slots index).quantumRunning = true)
    (same : (registry.slots index).handle.id = handle.id) (yields : status.kind = .yield) :
    registry.completeExecution index handle status (some worker) =
      .ok (registry.yielded worker index) := by
  have sound := consistent.sound index
  obtain ⟨running, pooled, held⟩ := sound.quantum quantum
  have client := sound.client pooled
  obtain ⟨quantums, tokens, threads, clients⟩ := consistent.quantum_counted quantum
  have waiting := sound.not_queued (.inl quantum)
  have room := consistent.depth_lt pooled waiting
  rcases Bool.eq_false_or_eq_true (registry.slots index).rescheduleRequested with again | again
  · simp [completeExecution, endQuantum, releaseExecutionToken, threadReturned, yieldQuantum,
      setSlot, same, running, quantum, held, pooled, client, yields, quantums.ne', tokens.ne',
      threads.ne', clients.ne', bind, Except.bind, yielded, yieldedSlot, again, enqueueSlot,
      waiting, Nat.not_le.mpr room, enqueued]
  · simp [completeExecution, endQuantum, releaseExecutionToken, threadReturned, yieldQuantum,
      setSlot, same, running, quantum, held, pooled, client, yields, quantums.ne', tokens.ne',
      threads.ne', clients.ne', bind, Except.bind, yielded, yieldedSlot, again, waiting]

theorem yielded_consistent (consistent : registry.Consistent) (worker : Fin pool)
    (quantum : (registry.slots index).quantumRunning = true) :
    (registry.yielded worker index).Consistent := by
  have sound := consistent.sound index
  obtain ⟨running, pooled, held⟩ := sound.quantum quantum
  have client := sound.client pooled
  obtain ⟨quantums, tokens, threads, clients⟩ := consistent.quantum_counted quantum
  have waiting := sound.not_queued (.inl quantum)
  have after : (yieldedSlot (registry.slots index) worker).Sound :=
    { queued := fun _ => ⟨running, pooled, rfl, rfl⟩
      quantum := by simp [yieldedSlot]
      token := by simp [yieldedSlot]
      pinned := sound.pinned, blocked := sound.blocked, start := sound.start
      starting := sound.starting, thread := sound.thread, client := sound.client
      completion := sound.completion, delivery := sound.delivery }
  refine consistent.retain rfl rfl rfl ?_ ?_ after ?_ ?_ ⟨rfl, rfl, rfl, fun used => used⟩
  · exact (Nat.sub_le _ _).trans consistent.tokensBound
  · constructor
    · simp [yielded, yieldedSlot, setSlot, waiting]
    · simp [yielded, yieldedSlot, setSlot, held, Nat.sub_add_cancel tokens]
    · simp [yielded, yieldedSlot, setSlot, quantum, Nat.sub_add_cancel quantums]
    · rfl
    · simp [yielded, yieldedSlot, setSlot, BackendSlot.carried, quantum, pooled,
        Nat.sub_add_cancel threads]
    · simp [yielded, yieldedSlot, setSlot, BackendSlot.clientCarried, BackendSlot.carried, quantum,
        pooled, client, Nat.sub_add_cancel clients]
    · rfl
    · rfl
  · rcases Bool.eq_false_or_eq_true (registry.slots index).rescheduleRequested with again | again
    · simp only [yielded, again, if_true]
      refine consistent.runnable.append (by simp [waiting]) fun place => ?_
      by_cases here : place = index
      · simp [here, setSlot, yieldedSlot, again]
      · simp [here, setSlot]
    · simp only [yielded, again, Bool.false_eq_true, if_false]
      exact lists_update (fun slot => slot.queued = true) consistent.runnable
        (by simp [yieldedSlot, again, waiting])
  · exact lists_update (fun slot => slot.state = .completed) consistent.completions Iff.rfl

def exitedSlot (slot : BackendSlot pool) (status : ExitStatus) : BackendSlot pool :=
  { slot with
    quantumRunning := false, executionTokenHeld := false, pinned := false, blocked := false
    completion := { handle := slot.handle, exitStatus := status }
    queued := false, rescheduleRequested := false, state := .completed }

/-- The worker flags behind the end of an execution. -/
def parkedWorkers (running : Fin pool → Bool) : Option (Fin pool) → Fin pool → Bool
  | none => running
  | some worker => Function.update running worker false

/-- The registry behind an execution that has exited. -/
def exited (registry : Registry capacity pool) (index : Fin capacity) (status : ExitStatus)
    (worker : Option (Fin pool)) : Registry capacity pool :=
  let slot := registry.slots index
  { registry.setSlot index (exitedSlot slot status) with
    workerRunning := parkedWorkers registry.workerRunning worker
    runningQuantums := registry.runningQuantums - slot.quantumRunning.toNat
    executionTokensActive := registry.executionTokensActive - slot.executionTokenHeld.toNat
    backendThreadsActive := registry.backendThreadsActive - 1
    clientThreadsActive := registry.clientThreadsActive - slot.clientCarried.toNat
    pinnedSessions := registry.pinnedSessions - slot.pinned.toNat
    blockedSessions := registry.blockedSessions - slot.blocked.toNat
    completions := registry.completions.append index
    broadcast := true }

/-- The counters that an execution is part of. -/
structure Carrying (registry : Registry capacity pool) (slot : BackendSlot pool) : Prop where
  quantums : slot.quantumRunning.toNat ≤ registry.runningQuantums
  tokens : slot.executionTokenHeld.toNat ≤ registry.executionTokensActive
  threads : slot.carried.toNat ≤ registry.backendThreadsActive
  clients : slot.clientCarried.toNat ≤ registry.clientThreadsActive
  pinned : slot.pinned.toNat ≤ registry.pinnedSessions
  blocked : slot.blocked.toNat ≤ registry.blockedSessions
  active : slot.active.toNat ≤ registry.activeCount

theorem Consistent.carrying (consistent : registry.Consistent)
    (index : Fin capacity) : Carrying registry (registry.slots index) := by
  have counter {number : ℕ} {test : BackendSlot pool → Bool}
      (exact : number = census test registry.slots) :
      (test (registry.slots index)).toNat ≤ number := by
    rcases Bool.eq_false_or_eq_true (test (registry.slots index)) with holds | fails
    · rw [holds, exact]
      exact census_pos index holds
    · rw [fails]
      exact Nat.zero_le _
  exact ⟨counter consistent.quantums, counter consistent.tokens, counter consistent.threads,
    counter consistent.clients, counter consistent.pinned, counter consistent.blocked,
    counter consistent.active⟩

/-- The accounting of pins and blocks when the counters include the slot. -/
theorem unpinned_eq (pins : (registry.slots index).pinned.toNat ≤ registry.pinnedSessions)
    (blocks : (registry.slots index).blocked.toNat ≤ registry.blockedSessions) :
    registry.unpinned index =
      .ok { registry.setSlot index
              { registry.slots index with pinned := false, blocked := false } with
            pinnedSessions := registry.pinnedSessions - (registry.slots index).pinned.toNat
            blockedSessions := registry.blockedSessions - (registry.slots index).blocked.toNat } := by
  rcases Bool.eq_false_or_eq_true (registry.slots index).pinned with pinned | pinned <;>
    rcases Bool.eq_false_or_eq_true (registry.slots index).blocked with blocked | blocked
  · have first : registry.pinnedSessions ≠ 0 := by simp [pinned] at pins; omega
    have second : registry.blockedSessions ≠ 0 := by simp [blocked] at blocks; omega
    simp [unpinned, setSlot, pinned, blocked, first, second, bind, Except.bind]
  · have first : registry.pinnedSessions ≠ 0 := by simp [pinned] at pins; omega
    simp [unpinned, setSlot, pinned, blocked, first, bind, Except.bind]
  · have second : registry.blockedSessions ≠ 0 := by simp [blocked] at blocks; omega
    simp [unpinned, setSlot, pinned, blocked, second, bind, Except.bind]
  · have same : ({ registry.slots index with pinned := false, blocked := false } :
        BackendSlot pool) = registry.slots index := by
      generalize registry.slots index = slot at pinned blocked
      cases slot
      simp_all
    rw [same]
    simp [unpinned, setSlot, pinned, blocked, bind, Except.bind]

theorem completeExecution_exit (consistent : registry.Consistent) {handle : BackendHandle}
    {status : ExitStatus} {worker : Option (Fin pool)}
    (running : (registry.slots index).state = .running)
    (carried : (registry.slots index).carried = true)
    (quantum : worker ≠ none ↔ (registry.slots index).quantumRunning = true)
    (same : (registry.slots index).handle.id = handle.id) (exits : status.kind ≠ .yield) :
    registry.completeExecution index handle status worker =
      .ok (registry.exited index status worker) := by
  have counted := consistent.carrying index
  have sound := consistent.sound index
  have threads : registry.backendThreadsActive ≠ 0 := by
    have := counted.threads
    rw [carried] at this
    exact Nat.ne_of_gt this
  have clients : (registry.slots index).handle.executionClass = .client →
      registry.clientThreadsActive ≠ 0 := by
    intro client
    have := counted.clients
    simp only [BackendSlot.clientCarried, carried, client, decide_true, Bool.and_true] at this
    exact Nat.ne_of_gt this
  have quantums : (registry.slots index).quantumRunning = true → registry.runningQuantums ≠ 0 := by
    intro runs
    have := counted.quantums
    rw [runs] at this
    exact Nat.ne_of_gt this
  have tokens : (registry.slots index).executionTokenHeld = true →
      registry.executionTokensActive ≠ 0 := by
    intro held
    have := counted.tokens
    rw [held] at this
    exact Nat.ne_of_gt this
  have pins := counted.pinned
  have blocks := counted.blocked
  cases worker with
  | none =>
      have parked : (registry.slots index).quantumRunning = false := by simpa using quantum
      by_cases held : (registry.slots index).executionTokenHeld = true <;>
        by_cases client : (registry.slots index).handle.executionClass = .client <;>
        simp [completeExecution, releaseExecutionToken, threadReturned, setSlot, same, running, held,
          client, tokens, clients, threads, exits, bind, Except.bind, publishCompletion, unpinned_eq,
          pins, blocks, exited, exitedSlot, parkedWorkers, parked, BackendSlot.clientCarried, carried]
  | some worker =>
      have runs : (registry.slots index).quantumRunning = true := by simpa using quantum
      obtain ⟨-, pooled, held⟩ := sound.quantum runs
      have client := sound.client pooled
      simp [completeExecution, endQuantum, releaseExecutionToken, threadReturned, setSlot, same,
        running, held, client, quantums, tokens, clients, threads, exits, bind, Except.bind,
        publishCompletion, unpinned_eq, pins, blocks, exited, exitedSlot, parkedWorkers, runs,
        BackendSlot.clientCarried, carried]

theorem exited_consistent (consistent : registry.Consistent)
    (status : ExitStatus) (worker : Option (Fin pool))
    (running : (registry.slots index).state = .running)
    (carried : (registry.slots index).carried = true)
    (outside : (registry.slots index).queued = false) :
    (registry.exited index status worker).Consistent := by
  have sound := consistent.sound index
  have counted := consistent.carrying index
  have after : (exitedSlot (registry.slots index) status).Sound :=
    { queued := by simp [exitedSlot]
      quantum := by simp [exitedSlot]
      token := by simp [exitedSlot]
      pinned := by simp [exitedSlot]
      blocked := by simp [exitedSlot]
      start := by
        have present : (registry.slots index).start ≠ none := by
          rw [Ne, sound.start, running]
          simp
        simp [exitedSlot, present]
      starting := by simp [exitedSlot]
      thread := fun dedicated _ _ => sound.thread dedicated (by simp [running]) (by simp [running])
      client := sound.client
      completion := fun _ => rfl
      delivery := fun _ => rfl }
  have threads : 0 < registry.backendThreadsActive := by
    have := counted.threads
    rwa [carried] at this
  refine consistent.retain rfl rfl rfl ?_ ?_ after ?_ ?_ ⟨rfl, rfl, rfl, fun _ => by simp [running]⟩
  · exact (Nat.sub_le _ _).trans consistent.tokensBound
  · constructor
    · simp [exited, exitedSlot, setSlot, outside]
    · simp [exited, exitedSlot, setSlot, Nat.sub_add_cancel counted.tokens]
    · simp [exited, exitedSlot, setSlot, Nat.sub_add_cancel counted.quantums]
    · simp [exited, exitedSlot, setSlot, BackendSlot.active, running]
    · have gone : (exitedSlot (registry.slots index) status).carried = false := by
        simp [BackendSlot.carried, exitedSlot]
      simp [exited, setSlot, carried, gone, Nat.sub_add_cancel threads]
    · have gone : (exitedSlot (registry.slots index) status).clientCarried = false := by
        simp [BackendSlot.clientCarried, BackendSlot.carried, exitedSlot]
      simp [exited, setSlot, gone, Nat.sub_add_cancel counted.clients]
    · simp [exited, exitedSlot, setSlot, Nat.sub_add_cancel counted.pinned]
    · simp [exited, exitedSlot, setSlot, Nat.sub_add_cancel counted.blocked]
  · exact lists_update (fun slot => slot.queued = true) consistent.runnable
      (by simp [exitedSlot, outside])
  · refine consistent.completions.append (by simp [running]) fun place => ?_
    by_cases here : place = index
    · simp [here, exited, setSlot, exitedSlot]
    · simp [here, exited, setSlot]

/-- The registry behind the last critical section of a completing thread. -/
def deliveredRegistry (registry : Registry capacity pool) (index : Fin capacity) :
    Registry capacity pool :=
  { registry.setSlot index { registry.slots index with completionDeliveryComplete := true } with
    broadcast := true }

theorem deliverCompletion_eq {start : ℕ} (here : (registry.slots index).start = some start)
    (ended : (registry.slots index).ended = true)
    (fresh : (registry.slots index).completionDeliveryComplete = false) :
    registry.deliverCompletion index start = .ok (registry.deliveredRegistry index) := by
  simp only [BackendSlot.ended, Bool.or_eq_true, decide_eq_true_eq] at ended
  unfold deliverCompletion
  dsimp only
  rw [if_neg]
  · rfl
  · rintro (other | again | elsewhere)
    · exact other here
    · rw [fresh] at again
      cases again
    · tauto

theorem deliveredRegistry_consistent (consistent : registry.Consistent)
    (ended : (registry.slots index).ended = true) :
    (registry.deliveredRegistry index).Consistent :=
  consistent.flags rfl rfl rfl consistent.tokensBound
    { Counted.refl registry (registry.slots index) with }
    { consistent.sound index with delivery := fun _ => ended } rfl rfl rfl Iff.rfl
    ⟨rfl, rfl, rfl, fun used => used⟩

/-- The registry behind a pop that returns a completion. -/
def popped (registry : Registry capacity pool) (index : Fin capacity) : Registry capacity pool :=
  { registry.setSlot index { registry.slots index with state := .dequeued } with
    completions := registry.completions.pop index
    wakeSignalled :=
      if (registry.completions.pop index).head = none then false else registry.wakeSignalled }

/-- Everything `postgamma_backend_completion_pop` can do. -/
theorem completionPop_cases (consistent : registry.Consistent) :
    registry.completions.head = none ∧
        registry.completionPop = ({ registry with wakeSignalled := false }, .error .EAGAIN) ∨
      ∃ index, registry.completions.head = some index ∧
        (registry.slots index).state = .completed ∧
        registry.completionPop =
          (registry.popped index, .ok (index, (registry.slots index).completion)) := by
  unfold completionPop
  rcases first : registry.completions.head with _ | index
  · exact .inl ⟨rfl, rfl⟩
  · have completed := consistent.completions.of_head first
    refine .inr ⟨index, rfl, completed, ?_⟩
    dsimp only
    rw [if_neg (by simp [completed])]
    rfl

theorem popped_consistent (consistent : registry.Consistent)
    (first : registry.completions.head = some index) :
    (registry.popped index).Consistent := by
  have completed : (registry.slots index).state = .completed :=
    consistent.completions.of_head first
  have sound := consistent.sound index
  have ended : (registry.slots index).ended = true := by simp [BackendSlot.ended, completed]
  refine consistent.retain rfl rfl rfl consistent.tokensBound
    (.ended sound ended rfl { Counted.refl registry (registry.slots index) with })
    (sound.moved ended rfl) ?_ ?_ ⟨rfl, rfl, rfl, fun _ => by simp [completed]⟩
  · exact lists_update (fun slot => slot.queued = true) consistent.runnable Iff.rfl
  · refine consistent.completions.pop first fun place => ?_
    by_cases here : place = index
    · simp [here, popped, setSlot]
    · simp [here, popped, setSlot]

theorem joinClaim_spec {registry after : Registry capacity pool} {completion : BackendCompletion}
    (claimed : registry.joinClaim completion = .ok (after, index)) :
    (registry.slots index).state = .dequeued ∧ (registry.slots index).completion = completion ∧
      (registry.slots index).handle.id = completion.handle.id ∧
      after = registry.setSlot index { registry.slots index with state := .joining } := by
  unfold joinClaim at claimed
  split at claimed
  · cases claimed
  split at claimed
  · dsimp only at claimed
    obtain ⟨known, claimed⟩ := except_check_eq_ok.mp claimed
    obtain ⟨ready, claimed⟩ := except_check_eq_ok.mp claimed
    simp only [not_or, not_not] at known ready
    obtain ⟨rfl, rfl⟩ := Prod.mk.inj (Except.ok.inj claimed)
    exact ⟨ready.1, ready.2, known.2, rfl⟩
  · cases claimed

theorem joining_consistent (consistent : registry.Consistent)
    (dequeued : (registry.slots index).state = .dequeued) :
    (registry.setSlot index { registry.slots index with state := .joining }).Consistent := by
  have sound := consistent.sound index
  have ended : (registry.slots index).ended = true := by simp [BackendSlot.ended, dequeued]
  exact consistent.flags rfl rfl rfl consistent.tokensBound
    (.ended sound ended rfl { Counted.refl registry (registry.slots index) with })
    (sound.moved ended rfl) rfl rfl rfl (by simp [dequeued])
    ⟨rfl, rfl, rfl, fun _ => by simp [dequeued]⟩

/-- The registry behind a join. -/
def rejoined (registry : Registry capacity pool) (index : Fin capacity) : Registry capacity pool :=
  { registry.setSlot index { freeSlot with generation := (registry.slots index).generation } with
    runnable :=
      { registry.runnable with next := Function.update registry.runnable.next index none }
    activeCount := registry.activeCount - 1 }

theorem joinRelease_eq {start : ℕ} (joining : (registry.slots index).state = .joining)
    (here : (registry.slots index).start = some start) :
    registry.joinRelease index start = some (registry.rejoined index) := by
  simp [joinRelease, joining, here, rejoined]

theorem rejoined_consistent (consistent : registry.Consistent)
    (joining : (registry.slots index).state = .joining) :
    (registry.rejoined index).Consistent := by
  have sound := consistent.sound index
  have ended : (registry.slots index).ended = true := by simp [BackendSlot.ended, joining]
  obtain ⟨used, begun, past⟩ := BackendSlot.ended_state ended
  obtain ⟨waiting, parked, free, unpinned, unblocked, uncarried⟩ := sound.released begun past
  have positive : 0 < registry.activeCount := by
    have counted := (consistent.carrying index).active
    simp only [BackendSlot.active, used, ne_eq, not_false_eq_true, decide_true] at counted
    exact counted
  refine consistent.change rfl rfl rfl consistent.tokensBound ?_ ?_ ?_ ?_ ?_ ?_ ?_
  · constructor
    · simp [rejoined, freeSlot, setSlot, waiting]
    · simp [rejoined, freeSlot, setSlot, free]
    · simp [rejoined, freeSlot, setSlot, parked]
    · simp [rejoined, freeSlot, setSlot, BackendSlot.active, used, Nat.sub_add_cancel positive]
    · simp only [rejoined, setSlot, uncarried]
      rfl
    · simp only [rejoined, setSlot, BackendSlot.clientCarried, uncarried]
      rfl
    · simp [rejoined, freeSlot, setSlot, unpinned]
    · simp [rejoined, freeSlot, setSlot, unblocked]
  · constructor <;> simp [freeSlot, BackendSlot.ended]
  · exact lists_update (fun slot => slot.queued = true)
      (consistent.runnable.clear (by simp [waiting])) (by simp [waiting, freeSlot])
  · exact lists_update (fun slot => slot.state = .completed) consistent.completions
      (by simp [joining, freeSlot])
  · intro unused
    simp [freeSlot] at unused
  · intro unused
    simp [freeSlot] at unused
  · intro unused
    simp [freeSlot] at unused

/-! ## Launch -/

theorem freeIndex_free
    (found : registry.freeIndex = some index) : (registry.slots index).state = .free := by
  simpa using List.find?_some found

/-- The loop of `allocate_compat_pid` ends with a process id that is not in use. -/
theorem compatPidLoop_fresh {fuel candidate pid next : ℕ}
    (found : registry.compatPidLoop fuel candidate = some (pid, next)) :
    registry.pidTaken pid = false := by
  induction fuel generalizing candidate with
  | zero => cases found
  | succ fuel induction =>
      rw [compatPidLoop] at found
      split at found
      · exact induction found
      · rename_i fresh
        obtain ⟨rfl, -⟩ := Prod.mk.inj (Option.some.inj found)
        simpa using fresh

theorem pidTaken_eq_false {pid : ℕ} (fresh : registry.pidTaken pid = false) (index : Fin capacity)
    (used : (registry.slots index).state ≠ .free) :
    pid ≠ (registry.slots index).handle.compatPid := by
  rintro rfl
  simp only [pidTaken, List.any_eq_false, List.mem_finRange, forall_const, Bool.and_eq_true,
    decide_eq_true_eq, not_and] at fresh
  exact fresh index used rfl

/-- The registry that `launchSlot` makes of a free slot. -/
def reserved (registry : Registry capacity pool) (index : Fin capacity) (slot : BackendSlot pool)
    (nextCompatPid : ℕ) : Registry capacity pool :=
  { registry.setSlot index slot with
    nextCompatPid := nextCompatPid
    activeCount := registry.activeCount + 1
    runnable :=
      { registry.runnable with next := Function.update registry.runnable.next index none }
    completions :=
      { registry.completions with next := Function.update registry.completions.next index none } }

theorem launchSlot_spec {registry after : Registry capacity pool} {request : LaunchRequest}
    {start : ℕ}
    (launched : registry.launchSlot request start = some (after, index)) :
    ∃ pid next, (registry.slots index).state = .free ∧ registry.pidTaken pid = false ∧
      after = registry.reserved index
        (launchedSlot (registry.slots index) index pid start request) next := by
  unfold launchSlot at launched
  simp only [Option.bind_eq_bind, Option.bind_eq_some_iff, Option.some.injEq, Prod.mk.injEq]
    at launched
  obtain ⟨place, found, ⟨pid, next⟩, allocated, rfl, rfl⟩ := launched
  exact ⟨pid, next, freeIndex_free found, compatPidLoop_fresh allocated, rfl⟩

/-- What a launch has made of its slot at the end of its first critical section. -/
structure Launched (before after : Registry capacity pool) (index : Fin capacity)
    (slot : BackendSlot pool) : Prop where
  slots : after.slots = Function.update before.slots index slot
  completions : after.completions =
    { before.completions with next := Function.update before.completions.next index none }
  workers : after.workerRunning = before.workerRunning
  wake : after.wakeSignalled = before.wakeSignalled
  count : after.executionTokenCount = before.executionTokenCount
  consistent : after.Consistent

/-- A launch of a pooled client: the slot is in the runnable list. -/
def pooledSlot (slot : BackendSlot pool) (nextWorker : ℕ) : BackendSlot pool :=
  { slot with pooled := true, assignedWorker := rotatedWorker nextWorker, queued := true }

/-- A launch that has to create its thread. -/
def startingSlot (slot : BackendSlot pool) (token : Bool) : BackendSlot pool :=
  { slot with state := .starting, executionTokenHeld := token }

def failedSlot (slot : BackendSlot pool) : BackendSlot pool :=
  { slot with start := none, handle := .zero, state := .free }

/-- Every result of a launch at the end of its first critical section. -/
inductive LaunchCase (before : Registry capacity pool) (index : Fin capacity)
    (slot : BackendSlot pool) : Launching capacity pool → Prop
  | pooled {after : Registry capacity pool} (nextWorker : ℕ)
      (launched : Launched before after index (pooledSlot slot nextWorker))
      (broadcast : after.broadcast = true) :
      LaunchCase before index slot (.returned after index none)
  | failed {after : Registry capacity pool} {errno : Errno}
      (launched : Launched before after index (failedSlot slot))
      (broadcast : after.broadcast = true) :
      LaunchCase before index slot (.returned after index (some errno))
  | creating {after : Registry capacity pool} (token : Bool)
      (launched : Launched before after index (startingSlot slot token))
      (tokens : after.executionTokensActive = before.executionTokensActive + token.toNat) :
      LaunchCase before index slot (.creating after index)

/-- A free slot has no part in any counter. -/
theorem Consistent.unused (consistent : registry.Consistent)
    (free : (registry.slots index).state = .free) :
    (registry.slots index).Released :=
  (consistent.sound index).released (by simp [free]) (by simp [free])

/-- A free slot of a consistent registry gets an execution. -/
theorem Consistent.reserve {before after : Registry capacity pool} (consistent : before.Consistent)
    {slot : BackendSlot pool}
    (slots : after.slots = Function.update before.slots index slot)
    (provider : after.provider = before.provider)
    (queueCapacity : after.queueCapacity = before.queueCapacity)
    (bound : after.executionTokensActive ≤ after.executionTokenCount)
    (free : (before.slots index).state = .free)
    (depth : after.runnableDepth = before.runnableDepth + slot.queued.toNat)
    (tokens : after.executionTokensActive =
      before.executionTokensActive + slot.executionTokenHeld.toNat)
    (active : after.activeCount = before.activeCount + slot.active.toNat)
    (quantums : after.runningQuantums = before.runningQuantums)
    (threads : after.backendThreadsActive = before.backendThreadsActive)
    (clients : after.clientThreadsActive = before.clientThreadsActive)
    (pinned : after.pinnedSessions = before.pinnedSessions)
    (blocked : after.blockedSessions = before.blockedSessions)
    (parked : slot.quantumRunning = false) (uncarried : slot.carried = false)
    (unpinned : slot.pinned = false) (unblocked : slot.blocked = false)
    (sound : slot.Sound)
    (runnable : after.runnable.Lists fun place => (after.slots place).queued = true)
    (completions : after.completions =
      { before.completions with next := Function.update before.completions.next index none })
    (incomplete : slot.state ≠ .completed)
    (pid : slot.state ≠ .free → before.pidTaken slot.handle.compatPid = false)
    (issued : slot.state ≠ .free → slot.handle.id = makeBackendId index slot.generation)
    (pooled : slot.pooled = true → before.provider = .pooled) : after.Consistent := by
  have old := consistent.unused free
  refine consistent.change slots provider queueCapacity bound ?_ sound runnable ?_ ?_ issued pooled
  · constructor
    · rw [old.waiting, depth]
      rfl
    · rw [old.free, tokens]
      rfl
    · rw [old.parked, quantums, parked]
    · have gone : (before.slots index).active = false := by simp [BackendSlot.active, free]
      rw [active, gone]
      rfl
    · rw [old.uncarried, threads, uncarried]
    · rw [BackendSlot.clientCarried, BackendSlot.clientCarried, old.uncarried, clients, uncarried]
      rfl
    · rw [old.unpinned, pinned, unpinned]
    · rw [old.unblocked, blocked, unblocked]
  · rw [completions, slots]
    exact lists_update (fun slot => slot.state = .completed)
      (consistent.completions.clear (by simp [free])) (by simp [free, incomplete])
  · intro used other _ taken
    exact pidTaken_eq_false (pid used) other taken

section Launch

variable {registry : Registry capacity pool} {index : Fin capacity} {pid start next : ℕ}
  {request : LaunchRequest}

theorem pooledLaunch_case (consistent : registry.Consistent)
    (free : (registry.slots index).state = .free) (fresh : registry.pidTaken pid = false)
    (provider : registry.provider = .pooled) (client : request.executionClass = .client) :
    LaunchCase registry index (launchedSlot (registry.slots index) index pid start request)
      (providerLaunch
        (registry.reserved index (launchedSlot (registry.slots index) index pid start request) next)
        index request) := by
  have old := consistent.unused free
  have room : registry.runnableDepth < registry.queueCapacity := by
    have below : census BackendSlot.queued registry.slots < Fintype.card (Fin capacity) :=
      census_lt_card old.waiting
    rw [Fintype.card_fin, ← consistent.depth] at below
    exact lt_of_lt_of_le below (consistent.room provider)
  generalize launched : launchedSlot (registry.slots index) index pid start request = slot
  have result : (registry.reserved index slot next).providerLaunch index request =
      .returned
        { registry.reserved index (pooledSlot slot registry.nextWorker) next with
          nextWorker := (registry.nextWorker + 1) % 2 ^ 32
          runnable :=
            Links.append
              { registry.runnable with next := Function.update registry.runnable.next index none }
              index
          runnableDepth := registry.runnableDepth + 1
          broadcast := true } index none := by
    simp [providerLaunch, provider, client, reserved, setSlot, enqueueSlot, enqueued, pooledSlot,
      Nat.not_le.mpr room, ← launched, launchedSlot]
  rw [result]
  refine .pooled registry.nextWorker ⟨rfl, rfl, rfl, rfl, rfl, ?_⟩ rfl
  have sound : (pooledSlot slot registry.nextWorker).Sound := by
    subst launched
    constructor <;> simp [pooledSlot, launchedSlot, BackendSlot.ended, client]
  refine consistent.reserve rfl rfl rfl consistent.tokensBound free rfl ?_ ?_ rfl rfl rfl rfl rfl
    ?_ ?_ ?_ ?_ sound ?_ rfl ?_ ?_ ?_ ?_
  all_goals subst launched
  · rfl
  · rfl
  · rfl
  · rfl
  · rfl
  · rfl
  · refine (consistent.runnable.clear (by simp [old.waiting])).append (by simp [old.waiting])
      fun place => ?_
    by_cases here : place = index
    · simp [here, reserved, setSlot, pooledSlot]
    · simp [here, reserved, setSlot]
  · simp [pooledSlot, launchedSlot]
  · exact fun _ => fresh
  · exact fun _ => rfl
  · exact fun _ => provider

theorem creatingLaunch_case (consistent : registry.Consistent)
    (free : (registry.slots index).state = .free) (fresh : registry.pidTaken pid = false)
    (token : Bool)
    (bound : registry.executionTokensActive + token.toNat ≤ registry.executionTokenCount) :
    LaunchCase registry index (launchedSlot (registry.slots index) index pid start request)
      (.creating
        { registry.reserved index
            (startingSlot (launchedSlot (registry.slots index) index pid start request) token)
            next with
          executionTokensActive := registry.executionTokensActive + token.toNat } index) := by
  have old := consistent.unused free
  refine .creating token ⟨rfl, rfl, rfl, rfl, rfl, ?_⟩ rfl
  refine consistent.reserve rfl rfl rfl bound free rfl rfl rfl rfl rfl rfl rfl rfl rfl rfl rfl rfl
    ?_ ?_ rfl ?_ (fun _ => fresh) (fun _ => rfl) ?_
  · constructor <;> simp [startingSlot, launchedSlot, BackendSlot.ended]
  · exact lists_update (fun slot => slot.queued = true)
      (consistent.runnable.clear (by simp [old.waiting]))
      (by simp [old.waiting, startingSlot, launchedSlot])
  · simp [startingSlot]
  · simp [startingSlot, launchedSlot]

theorem failedLaunch_case (consistent : registry.Consistent) (errno : Errno)
    (free : (registry.slots index).state = .free) :
    LaunchCase registry index (launchedSlot (registry.slots index) index pid start request)
      (.returned
        (launchFailed
          (registry.reserved index
            (launchedSlot (registry.slots index) index pid start request) next) index)
        index (some errno)) := by
  have old := consistent.unused free
  have slots : (launchFailed (registry.reserved index
      (launchedSlot (registry.slots index) index pid start request) next) index).slots =
      Function.update registry.slots index
        (failedSlot (launchedSlot (registry.slots index) index pid start request)) := by
    simp [launchFailed, reserved, setSlot, failedSlot]
  refine .failed ⟨slots, rfl, rfl, rfl, rfl, ?_⟩ rfl
  refine consistent.reserve slots rfl rfl consistent.tokensBound free rfl rfl rfl rfl rfl rfl rfl rfl
    rfl rfl rfl rfl ?_ ?_ rfl ?_ ?_ ?_ ?_
  · constructor <;> simp [failedSlot, launchedSlot, BackendSlot.ended]
  · rw [slots]
    exact lists_update (fun slot => slot.queued = true)
      ((consistent.runnable.clear (by simp [old.waiting])).clear (by simp [old.waiting]))
      (by simp [old.waiting, failedSlot, launchedSlot])
  · simp [failedSlot]
  · intro used
    simp [failedSlot] at used
  · intro used
    simp [failedSlot] at used
  · simp [failedSlot, launchedSlot]

/-- Every launch, at the end of its first critical section. -/
theorem providerLaunch_case (consistent : registry.Consistent)
    (free : (registry.slots index).state = .free) (fresh : registry.pidTaken pid = false) :
    LaunchCase registry index (launchedSlot (registry.slots index) index pid start request)
      (providerLaunch
        (registry.reserved index (launchedSlot (registry.slots index) index pid start request) next)
        index request) := by
  have dedicated :
      (registry.reserved index (launchedSlot (registry.slots index) index pid start request)
        next).dedicatedLaunch index =
      .creating
        { registry.reserved index
            (startingSlot (launchedSlot (registry.slots index) index pid start request) false)
            next with
          executionTokensActive := registry.executionTokensActive + Bool.toNat false } index := by
    simp [dedicatedLaunch, reserved, setSlot, startingSlot, launchedSlot]
  rcases provider : registry.provider with _ | _
  · have same : (registry.reserved index (launchedSlot (registry.slots index) index pid start
        request) next).providerLaunch index request =
        (registry.reserved index (launchedSlot (registry.slots index) index pid start request)
          next).dedicatedLaunch index := by
      simp [providerLaunch, reserved, setSlot, provider]
    rw [same, dedicated]
    exact creatingLaunch_case consistent free fresh false consistent.tokensBound
  · rcases kind : request.executionClass with _ | _ | _
    · have same : (registry.reserved index (launchedSlot (registry.slots index) index pid start
          request) next).providerLaunch index request =
          (registry.reserved index (launchedSlot (registry.slots index) index pid start request)
            next).dedicatedLaunch index := by
        simp [providerLaunch, reserved, setSlot, provider, kind]
      rw [same, dedicated]
      exact creatingLaunch_case consistent free fresh false consistent.tokensBound
    · exact pooledLaunch_case consistent free fresh provider kind
    · by_cases full : registry.executionTokenCount ≤ registry.executionTokensActive
      · have same : (registry.reserved index (launchedSlot (registry.slots index) index pid start
            request) next).providerLaunch index request =
            .returned (launchFailed (registry.reserved index (launchedSlot (registry.slots index)
              index pid start request) next) index) index (some .EAGAIN) := by
          simp [providerLaunch, reserved, setSlot, provider, kind, acquireExecutionToken, full]
        rw [same]
        exact failedLaunch_case consistent .EAGAIN free
      · have same : (registry.reserved index (launchedSlot (registry.slots index) index pid start
            request) next).providerLaunch index request =
            .creating
              { registry.reserved index
                  (startingSlot (launchedSlot (registry.slots index) index pid start request) true)
                  next with
                executionTokensActive := registry.executionTokensActive + Bool.toNat true }
              index := by
          simp [providerLaunch, reserved, setSlot, provider, kind, acquireExecutionToken, full,
            tokenTaken, dedicatedLaunch, startingSlot, launchedSlot]
        rw [same]
        exact creatingLaunch_case consistent free fresh true (Nat.lt_of_not_le full)

end Launch

/-! ## Threads -/

/-- A slot whose thread has been published. -/
def publishedSlot (slot : BackendSlot pool) (request : LaunchRequest) : BackendSlot pool :=
  { slot with thread := true, state := if request.asynchronous then slot.state else .running }

theorem publishThread_slots (registry : Registry capacity pool) (index : Fin capacity)
    (request : LaunchRequest) : (registry.publishThread index request).slots =
      Function.update registry.slots index (publishedSlot (registry.slots index) request) := by
  unfold publishThread publishedSlot
  split <;> simp [setSlot, *]

variable {registry : Registry capacity pool}

variable {index : Fin capacity}

theorem publishThread_consistent (consistent : registry.Consistent) {request : LaunchRequest}
    (starting : (registry.slots index).state = .starting)
    (unborn : (registry.slots index).thread = false)
    (same : (registry.slots index).handle.executionClass = request.executionClass) :
    (registry.publishThread index request).Consistent := by
  have sound := consistent.sound index
  obtain ⟨dedicated, waiting, parked, -, -, undelivered, present⟩ := sound.preparing starting
  have state : (publishedSlot (registry.slots index) request).state = .starting ∨
      (publishedSlot (registry.slots index) request).state = .running := by
    unfold publishedSlot
    split
    · exact .inl starting
    · exact .inr rfl
  have used : (publishedSlot (registry.slots index) request).state ≠ .free := by
    rcases state with state | state <;> simp [state]
  have unended : (publishedSlot (registry.slots index) request).ended = false := by
    rcases state with state | state <;> simp [BackendSlot.ended, state]
  refine consistent.retain (publishThread_slots registry index request) rfl rfl
    consistent.tokensBound ?_ ?_ ?_ ?_ ⟨rfl, rfl, rfl, fun _ => by simp [starting]⟩
  · have carried : (publishedSlot (registry.slots index) request).carried = true := by
      simp only [BackendSlot.carried, publishedSlot, dedicated, Bool.not_false, Bool.true_and,
        Bool.or_eq_true, decide_eq_true_eq]
      exact .inr state
    have uncarried : (registry.slots index).carried = false := by
      simp [BackendSlot.carried, parked, unborn]
    refine { Counted.refl registry (registry.slots index) with
      active := ?_, threads := ?_, clients := ?_ }
    · have first : (registry.slots index).active = true := by simp [BackendSlot.active, starting]
      have second : (publishedSlot (registry.slots index) request).active = true :=
        decide_eq_true used
      rw [first, second]
      rfl
    · rw [carried, uncarried]
      rfl
    · rw [BackendSlot.clientCarried, BackendSlot.clientCarried, carried, uncarried]
      have class_eq : (publishedSlot (registry.slots index) request).handle.executionClass =
          request.executionClass := same
      rw [class_eq]
      by_cases client : request.executionClass = .client <;>
        simp [publishThread, client, setSlot]
  · exact
      { queued := by simp [publishedSlot, waiting]
        quantum := by simp [publishedSlot, parked]
        token := fun _ => .inr ⟨dedicated, state⟩
        pinned := fun pinned => absurd (sound.pinned pinned) (by simp [starting])
        blocked := fun blocked => absurd (sound.blocked blocked) (by simp [starting])
        start := iff_of_false present used
        starting := fun _ => dedicated
        thread := fun _ _ _ => rfl
        client := sound.client
        completion := fun ended => by rw [unended] at ended; cases ended
        delivery := by simp [publishedSlot, undelivered] }
  · rw [publishThread_slots]
    exact lists_update (fun slot => slot.queued = true) consistent.runnable Iff.rfl
  · rw [publishThread_slots]
    refine lists_update (fun slot => slot.state = .completed) consistent.completions ?_
    rcases state with state | state <;> simp [state, starting]

/-- A slot whose launch has been given up. -/
def abandonedSlot (slot : BackendSlot pool) : BackendSlot pool :=
  { slot with executionTokenHeld := false, start := none, handle := .zero, state := .free }

/-- The registry behind a launch whose thread could not be created. -/
def abandoned (registry : Registry capacity pool) (index : Fin capacity) : Registry capacity pool :=
  { registry.setSlot index (abandonedSlot (registry.slots index)) with
    executionTokensActive :=
      registry.executionTokensActive - (registry.slots index).executionTokenHeld.toNat
    activeCount := registry.activeCount - 1
    runnable :=
      { registry.runnable with next := Function.update registry.runnable.next index none }
    broadcast := true }

theorem abandonLaunch_eq (consistent : registry.Consistent) (index : Fin capacity) :
    registry.abandonLaunch index = .ok (registry.abandoned index) := by
  rcases Bool.eq_false_or_eq_true (registry.slots index).executionTokenHeld with held | free
  · have tokens : registry.executionTokensActive ≠ 0 := by
      have counted := (consistent.carrying index).tokens
      rw [held] at counted
      exact Nat.ne_of_gt counted
    simp [abandonLaunch, releaseExecutionToken, held, tokens, bind, Except.bind, launchFailed,
      setSlot, abandoned, abandonedSlot]
  · simp [abandonLaunch, free, bind, Except.bind, launchFailed, setSlot, abandoned, abandonedSlot]

theorem abandoned_consistent (consistent : registry.Consistent)
    (starting : (registry.slots index).state = .starting)
    (unborn : (registry.slots index).thread = false) :
    (registry.abandoned index).Consistent := by
  have sound := consistent.sound index
  have counted := consistent.carrying index
  obtain ⟨dedicated, waiting, parked, unpinned, unblocked, undelivered, -⟩ :=
    sound.preparing starting
  have positive : 0 < registry.activeCount := by
    have used := counted.active
    simp only [BackendSlot.active, starting] at used
    exact used
  have uncarried : (registry.slots index).carried = false := by
    simp [BackendSlot.carried, parked, unborn]
  have gone : (abandonedSlot (registry.slots index)).carried = false := by
    simp [BackendSlot.carried, abandonedSlot, parked]
  refine consistent.change rfl rfl rfl ?_ ?_ ?_ ?_ ?_ ?_ ?_ ?_
  · exact (Nat.sub_le _ _).trans consistent.tokensBound
  · refine { Counted.refl registry (registry.slots index) with
      tokens := ?_, active := ?_, threads := ?_, clients := ?_ }
    · simp [abandoned, abandonedSlot, setSlot, Nat.sub_add_cancel counted.tokens]
    · simp [abandoned, abandonedSlot, setSlot, BackendSlot.active, starting,
        Nat.sub_add_cancel positive]
    · rw [uncarried, gone]
      rfl
    · rw [BackendSlot.clientCarried, BackendSlot.clientCarried, uncarried, gone]
      rfl
  · constructor <;>
      simp [abandonedSlot, waiting, parked, unpinned, unblocked, dedicated, BackendSlot.ended,
        undelivered]
  · exact lists_update (fun slot => slot.queued = true)
      (consistent.runnable.clear (by simp [waiting])) (by simp [waiting, abandonedSlot])
  · exact lists_update (fun slot => slot.state = .completed) consistent.completions
      (by simp [starting, abandonedSlot])
  · intro used
    simp [abandonedSlot] at used
  · intro used
    simp [abandonedSlot] at used
  · simp [abandonedSlot, dedicated]

/-- The registry behind a thread that has begun. -/
def begun (registry : Registry capacity pool) (index : Fin capacity) : Registry capacity pool :=
  { registry.setSlot index { registry.slots index with state := .running } with broadcast := true }

/-- Everything `begin_backend_thread` can do for a thread that belongs to the slot. -/
theorem beginThread_cases {start : ℕ} (here : (registry.slots index).start = some start)
    (live : (registry.slots index).state = .starting ∨ (registry.slots index).state = .running) :
    registry.beginThread index start = .ok none ∨
      (registry.slots index).state = .starting ∧ (registry.slots index).thread = true ∧
        registry.beginThread index start = .ok (some (registry.begun index)) ∨
      (registry.slots index).state = .running ∧
        registry.beginThread index start = .ok (some registry) := by
  rcases live with starting | running
  · rcases Bool.eq_false_or_eq_true (registry.slots index).thread with born | unborn
    · right; left
      exact ⟨starting, born, by simp [beginThread, starting, born, setSlot, here, begun]⟩
    · left
      simp [beginThread, starting, unborn]
  · right; right
    exact ⟨running, by simp [beginThread, running, here]⟩

theorem begun_consistent (consistent : registry.Consistent)
    (starting : (registry.slots index).state = .starting)
    (born : (registry.slots index).thread = true) : (registry.begun index).Consistent := by
  have sound := consistent.sound index
  obtain ⟨dedicated, waiting, -, -, -, undelivered, present⟩ := sound.preparing starting
  refine consistent.flags rfl rfl rfl consistent.tokensBound ?_ ?_ rfl rfl rfl ?_
    ⟨rfl, rfl, rfl, fun _ => by simp [starting]⟩
  · refine { Counted.refl registry (registry.slots index) with
      active := ?_, threads := ?_, clients := ?_ }
    · simp [BackendSlot.active, starting, begun, setSlot]
    · simp [BackendSlot.carried, starting, begun, setSlot]
    · simp [BackendSlot.clientCarried, BackendSlot.carried, starting, begun, setSlot]
  · exact
      { queued := by simp [waiting]
        quantum := fun quantum => absurd (sound.quantum quantum).1 (by simp [starting])
        token := fun _ => .inr ⟨dedicated, .inr rfl⟩
        pinned := fun _ => rfl
        blocked := fun _ => rfl
        start := by simp [present]
        starting := fun _ => dedicated
        thread := fun _ _ _ => born
        client := sound.client
        completion := by simp [BackendSlot.ended]
        delivery := by simp [undelivered] }
  · simp [starting]

end Registry

end Postgamma.Runtime
