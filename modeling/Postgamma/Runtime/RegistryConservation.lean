import Mathlib
import Postgamma.Runtime.RegistryCompletions

/-!
# Work of the pooled workers

A worker that sleeps without a signal has nothing to take, and its deadline is not behind the
deadline of any sleeping execution.  Every step keeps this except one: a worker that starts a
quantum makes the other slots assigned to it free to be stolen, and does not broadcast.
-/

namespace Postgamma.Runtime

variable {capacity pool : ℕ}

namespace Registry

/-- A critical section that gives no worker anything to do. -/
structure Subdued (before after : Registry capacity pool) : Prop where
  tokens : after.executionTokensActive < after.executionTokenCount →
    before.executionTokensActive < before.executionTokenCount
  queued : ∀ index, (after.slots index).queued = true → (before.slots index).queued = true ∧
    (after.slots index).assignedWorker = (before.slots index).assignedWorker
  workers : ∀ worker, after.workerRunning worker = true → before.workerRunning worker = true
  sleeping : ∀ index, sleeping (after.slots index) = true → sleeping (before.slots index) = true ∧
    (after.slots index).deadlineNs = (before.slots index).deadlineNs

/-- Nothing of the registry keeps the worker from sleeping until the deadline. -/
structure Rests (registry : Registry capacity pool) (worker : Fin pool) (deadline : ℕ) : Prop where
  nothing : registry.executionTokensActive < registry.executionTokenCount →
    ∀ index, (registry.slots index).queued = true → ¬registry.Takeable worker index
  covers : ∀ index, Covers deadline (registry.slots index)

theorem Subdued.refl (registry : Registry capacity pool) : Subdued registry registry :=
  ⟨fun free => free, fun _ queued => ⟨queued, rfl⟩, fun _ running => running,
    fun _ sleeps => ⟨sleeps, rfl⟩⟩

theorem Rests.subdued {before after : Registry capacity pool} {worker : Fin pool} {deadline : ℕ}
    (rests : before.Rests worker deadline) (subdued : Subdued before after) :
    after.Rests worker deadline := by
  refine ⟨fun free index queued takeable => ?_, fun index sleeps => ?_⟩
  · obtain ⟨old, assigned⟩ := subdued.queued index queued
    refine rests.nothing (subdued.tokens free) index old ?_
    rcases takeable with mine | stolen
    · exact .inl (assigned ▸ mine)
    · right
      unfold stealable at stolen ⊢
      rw [assigned] at stolen
      split at stolen
      · rfl
      · exact subdued.workers _ stolen
  · obtain ⟨old, same⟩ := subdued.sleeping index sleeps
    rw [same]
    exact rests.covers index old

/-- A change of one slot that gives no worker anything to do. -/
theorem Subdued.slot {before after : Registry capacity pool} {index : Fin capacity}
    {slot : BackendSlot pool} (slots : after.slots = Function.update before.slots index slot)
    (tokens : after.executionTokensActive < after.executionTokenCount →
      before.executionTokensActive < before.executionTokenCount)
    (workers : after.workerRunning = before.workerRunning)
    (same : (slot.queued = true → (before.slots index).queued = true ∧
        slot.assignedWorker = (before.slots index).assignedWorker) ∧
      (Registry.sleeping slot = true → Registry.sleeping (before.slots index) = true ∧
        slot.deadlineNs = (before.slots index).deadlineNs)) : Subdued before after := by
  refine ⟨tokens, fun place => ?_, fun worker => by rw [workers]; exact fun runs => runs,
    fun place => ?_⟩ <;>
  · rw [slots]
    by_cases here : place = index
    · rw [here, Function.update_self]
      first | exact same.1 | exact same.2
    · rw [Function.update_of_ne here]
      exact fun holds => ⟨holds, rfl⟩

end Registry

namespace Registry

/-- A worker that steals has no queued slot of its own. -/
theorem dequeueLoop_preferred {registry : Registry capacity pool} {worker : Fin pool} {fuel : ℕ}
    {rest : List (Fin capacity)} {previous : Option (Fin capacity)}
    {steal : Option (Option (Fin capacity) × Fin capacity)}
    (path : Links.Path registry.runnable.next rest.head? rest) (enough : rest.length ≤ fuel)
    {place : Option (Fin capacity) × Fin capacity}
    (found : registry.dequeueLoop worker fuel previous rest.head? steal = some place)
    (other : (registry.slots place.2).assignedWorker ≠ some worker) :
    ∀ index ∈ rest, (registry.slots index).assignedWorker ≠ some worker := by
  induction rest generalizing previous fuel steal with
  | nil => exact nofun
  | cons current rest induction =>
      cases fuel with
      | zero => simp at enough
      | succ fuel =>
          rw [List.head?_cons, dequeueLoop] at found
          by_cases mine : (registry.slots current).assignedWorker = some worker
          · rw [if_pos mine] at found
            obtain rfl := Option.some.inj found
            exact absurd mine other
          · have next : registry.runnable.next current = rest.head? := path.2.head_eq
            rw [if_neg mine, next] at found
            have later := induction (next ▸ path.2) (by simpa using enough) found
            intro index inside
            rcases List.mem_cons.mp inside with rfl | inside
            · exact mine
            · exact later index inside

variable {registry after : Registry capacity pool}

theorem dequeueSlotForWorker_preferred
    (consistent : registry.Consistent) {worker : Fin pool} {index : Fin capacity}
    (dequeued : registry.dequeueSlotForWorker worker = .ok (after, some index))
    (other : (registry.slots index).assignedWorker ≠ some worker) :
    ∀ place, (registry.slots place).queued = true →
      (registry.slots place).assignedWorker ≠ some worker := by
  unfold dequeueSlotForWorker at dequeued
  split at dequeued
  · cases dequeued
  · obtain ⟨items, holds, listed⟩ := consistent.runnable
    have enough : items.length ≤ capacity := by
      simpa using holds.nodup.length_le_card
    split at dequeued
    · cases dequeued
    · rename_i previous current found
      obtain ⟨removed, -, result⟩ := except_bind_eq_ok.mp dequeued
      obtain ⟨-, same⟩ := Prod.mk.inj (Except.ok.inj result)
      obtain rfl := Option.some.inj same
      rw [holds.head_eq] at found
      intro place queued
      exact dequeueLoop_preferred (holds.head_eq ▸ holds.path) enough found other place
        ((listed place).mpr queued)

/-- No deadline of a sleeping slot has come. -/
def NoneDue (registry : Registry capacity pool) (nowNs : ℕ) : Prop :=
  ∀ index, sleeping (registry.slots index) = true → nowNs < (registry.slots index).deadlineNs

/-- One turn of the loop over the deadlines broadcasts, or does nothing. -/
theorem scheduleDueStep_broadcast {nowNs : ℕ} {registry next : Registry capacity pool}
    {nextDeadline later : ℕ} {index : Fin capacity}
    (step : scheduleDueStep nowNs registry nextDeadline index = .ok (next, later)) :
    next.broadcast = true ∨ next = registry ∧
      (sleeping (registry.slots index) = true → nowNs < (registry.slots index).deadlineNs) := by
  unfold scheduleDueStep at step
  dsimp only at step
  split_ifs at step with awake come earlier
  · obtain ⟨rfl, -⟩ := Prod.mk.inj (Except.ok.inj step)
    exact .inr ⟨rfl, fun sleeps => by rw [awake] at sleeps; cases sleeps⟩
  · split at step
    · cases step
    · rename_i result enqueued
      obtain ⟨rfl, -⟩ := Prod.mk.inj (Except.ok.inj step)
      obtain ⟨-, enqueued⟩ := except_check_eq_ok.mp enqueued
      obtain ⟨-, enqueued⟩ := except_check_eq_ok.mp enqueued
      obtain rfl := Except.ok.inj enqueued
      exact .inl rfl
  · obtain ⟨rfl, -⟩ := Prod.mk.inj (Except.ok.inj step)
    exact .inr ⟨rfl, fun _ => Nat.lt_of_not_le come⟩
  · obtain ⟨rfl, -⟩ := Prod.mk.inj (Except.ok.inj step)
    exact .inr ⟨rfl, fun _ => Nat.lt_of_not_le come⟩

/-- A deadline that has come broadcasts. -/
theorem scheduleDueLoop_broadcast {nowNs : ℕ} {indices : List (Fin capacity)}
    {nextDeadline deadline : ℕ}
    (done : scheduleDueLoop nowNs indices registry nextDeadline = .ok (after, deadline))
    (due : registry.broadcast = true ∨ ∃ index ∈ indices, sleeping (registry.slots index) = true ∧
      (registry.slots index).deadlineNs ≤ nowNs) : after.broadcast = true := by
  induction indices generalizing registry nextDeadline with
  | nil =>
      obtain ⟨rfl, -⟩ := Prod.mk.inj (Except.ok.inj done)
      rcases due with broadcast | ⟨index, inside, -⟩
      · exact broadcast
      · cases inside
  | cons index rest induction =>
      rw [scheduleDueLoop] at done
      obtain ⟨⟨next, later⟩, step, done⟩ := except_bind_eq_ok.mp done
      refine induction done ?_
      rcases scheduleDueStep_broadcast step with broadcast | ⟨rfl, early⟩
      · exact .inl broadcast
      · refine due.imp id fun present => ?_
        obtain ⟨place, inside, sleeps, come⟩ := present
        rcases List.mem_cons.mp inside with rfl | inside
        · exact absurd come (Nat.not_le.mpr (early sleeps))
        · exact ⟨place, inside, sleeps, come⟩

theorem scheduleDueSlots_broadcast {nowNs deadline : ℕ}
    (done : registry.scheduleDueSlots nowNs = .ok (after, deadline))
    (quiet : after.broadcast = false) : registry.NoneDue nowNs := by
  intro index sleeps
  refine Nat.lt_of_not_le fun come => ?_
  have broadcast := scheduleDueLoop_broadcast done
    (.inr ⟨index, List.mem_finRange index, sleeps, come⟩)
  cases quiet.symm.trans broadcast

end Registry

namespace System

/-- Every worker that sleeps without a signal has nothing to take and covers the deadlines. -/
def Conserving (system : System capacity pool) : Prop :=
  ∀ worker deadline, system.carriers (.worker worker) = .asleep deadline false →
    system.registry.Rests worker deadline

theorem signal_unsignalled (phase : Phase capacity) (deadline : ℕ) :
    phase.signal ≠ .asleep deadline false := by
  cases phase <;> simp [Phase.signal]

variable {system after : System capacity pool}

/-- A critical section broadcasts, or gives no worker anything to do. -/
theorem Conserving.unlock (conserving : system.Conserving) (registry : Registry capacity pool)
    (calm : registry.broadcast = true ∨ Registry.Subdued system.registry registry)
    (rest : after.registry = { registry with broadcast := false })
    (sleepers : ∀ worker deadline, after.carriers (.worker worker) = .asleep deadline false →
      (system.unlock registry).carriers (.worker worker) = .asleep deadline false) :
    after.Conserving := by
  intro worker deadline asleep
  have before := sleepers worker deadline asleep
  have quiet : registry.broadcast = false := by
    refine Bool.eq_false_iff.mpr fun broadcast => ?_
    simp only [System.unlock, broadcast, if_true] at before
    exact signal_unsignalled _ deadline before
  have old : system.carriers (.worker worker) = .asleep deadline false := by
    simpa [System.unlock, quiet] using before
  rcases calm with broadcast | subdued
  · cases quiet.symm.trans broadcast
  · have kept := (conserving worker deadline old).subdued subdued
    rw [rest]
    exact ⟨kept.nothing, kept.covers⟩

variable {system : System capacity pool}

/-- A carrier that moves on to another phase than sleep. -/
theorem move_sleeper {actor : Carrier pool} {phase : Phase capacity}
    (awake : ∀ deadline, phase ≠ .asleep deadline false) (worker : Fin pool) (deadline : ℕ)
    (asleep : (system.move actor phase).carriers (.worker worker) = .asleep deadline false) :
    system.carriers (.worker worker) = .asleep deadline false := by
  by_cases mine : Carrier.worker worker = actor
  · rw [mine, move_self] at asleep
    exact absurd asleep (awake deadline)
  · rwa [move_other _ _ mine] at asleep

/-- A step that leaves the registry and the sleepers alone. -/
theorem Conserving.still (conserving : system.Conserving)
    (subdued : Registry.Subdued system.registry after.registry)
    (sleepers : ∀ worker deadline, after.carriers (.worker worker) = .asleep deadline false →
      system.carriers (.worker worker) = .asleep deadline false) : after.Conserving :=
  fun worker deadline asleep =>
    (conserving worker deadline (sleepers worker deadline asleep)).subdued subdued

/-- Deadlines that have come broadcast, or there were none. -/
theorem due_calm {before after : Registry capacity pool} (due : Registry.Due before after) :
    after.broadcast = true ∨ Registry.Subdued before after ∧ after.slots = before.slots := by
  by_cases broadcast : after.broadcast = true
  · exact .inl broadcast
  · have same (index : Fin capacity) : after.slots index = before.slots index := by
      rcases due.slots index with same | ⟨-, woken, -⟩
      · exact same
      · exact absurd woken broadcast
    refine .inr ⟨⟨fun free => ?_, fun index => ?_, fun worker => ?_, fun index => ?_⟩, funext same⟩
    · rw [due.tokens, due.count] at free
      exact free
    · rw [same]
      exact fun queued => ⟨queued, rfl⟩
    · rw [due.mild.gentle.workers]
      exact fun runs => runs
    · rw [same]
      exact fun sleeps => ⟨sleeps, rfl⟩

/-- A worker goes to sleep. -/
theorem Conserving.sleep (conserving : system.Conserving)
    {worker : Fin pool} {registry : Registry capacity pool} {deadline : ℕ}
    (due : Registry.Due system.registry registry)
    (covers : ∀ index, Registry.Covers deadline (registry.slots index))
    (nothing : registry.executionTokensActive < registry.executionTokenCount →
      ∀ index, (registry.slots index).queued = true → ¬registry.Takeable worker index) :
    (system.asleepSystem worker registry deadline).Conserving := by
  intro other wait asleep
  unfold asleepSystem at asleep
  by_cases mine : other = worker
  · subst mine
    rw [move_self] at asleep
    obtain ⟨rfl, -⟩ := Phase.asleep.inj asleep
    exact ⟨nothing, covers⟩
  · have apart : Carrier.worker other ≠ .worker worker := fun same => mine (Carrier.worker.inj same)
    rw [move_other _ _ apart] at asleep
    have kept : (system.unlock registry).Conserving :=
      conserving.unlock registry ((due_calm due).imp id And.left) rfl fun _ _ still => still
    exact kept other wait asleep

/-- A schedule broadcasts, or finds its slot queued or running. -/
theorem schedule_calm {registry : Registry capacity pool} (consistent : registry.Consistent)
    {index : Fin capacity}
    (live : (registry.slots index).state = .starting ∨ (registry.slots index).state = .running) :
    (registry.scheduleSlot index).1.broadcast = true ∨
      Registry.Subdued registry (registry.scheduleSlot index).1 := by
  rcases Registry.scheduleSlot_cases consistent live with ⟨-, eq⟩ | ⟨dedicated, eq⟩ |
    ⟨-, quantum, eq⟩ | ⟨-, -, queued, eq⟩ | ⟨-, -, -, eq⟩
  · rw [eq]
    exact .inr (.refl registry)
  · rw [eq]
    refine .inr (.slot rfl (fun free => free) rfl ?_)
    exact ⟨fun queued => ⟨queued, rfl⟩, fun sleeps => ⟨sleeps, rfl⟩⟩
  · rw [eq]
    refine .inr (.slot rfl (fun free => free) rfl ⟨fun queued => ⟨queued, rfl⟩, fun sleeps => ?_⟩)
    have parked := (Registry.sleeping_iff.mp sleeps).2.2.2.1
    cases quantum.symm.trans parked
  · rw [eq]
    refine .inr (.slot rfl (fun free => free) rfl ⟨fun queued => ⟨queued, rfl⟩, fun sleeps => ?_⟩)
    have waiting := (Registry.sleeping_iff.mp sleeps).2.2.1
    cases queued.symm.trans waiting
  · rw [eq]
    exact .inl rfl

/-- Every step but a quantum start keeps the work conserved. -/
theorem Move.conserving (seated : system.Seated)
    (conserving : system.Conserving) (move : Move system after)
    (started : ∀ worker start epochs, resting (system.carriers (.worker worker)) = true →
      after.carriers (.worker worker) ≠ .executing start epochs) : after.Conserving := by
  have same (registry : Registry capacity pool) (worker : Fin pool) (deadline : ℕ)
      (asleep : (system.unlock registry).carriers (.worker worker) = .asleep deadline false) :
      (system.unlock registry).carriers (.worker worker) = .asleep deadline false := asleep
  cases move with
  | launchedPooled nextWorker free launched broadcast =>
      exact conserving.unlock _ (.inl broadcast) rfl (same _)
  | launchFailed free launched broadcast =>
      exact conserving.unlock _ (.inl broadcast) rfl (same _)
  | launchCreating token free launched tokens =>
      refine conserving.unlock _ (.inr (.slot launched.slots (fun room => ?_) launched.workers ?_)) rfl
        (same _)
      · rw [tokens, launched.count] at room
        omega
      · exact ⟨nofun, nofun⟩
  | created launcher => exact conserving.still (.refl _) (move_sleeper nofun)
  | refused launcher => exact conserving.still (.refl _) fun _ _ asleep => asleep
  | @publishedThread id start request launcher =>
      exact conserving.unlock (system.registry.publishThread start.index request) (.inl rfl)
        rfl (same (system.registry.publishThread start.index request))
  | @abandoned id start launcher =>
      exact conserving.unlock (system.registry.abandoned start.index) (.inl rfl) rfl
        (same (system.registry.abandoned start.index))
  | begun phase starting born => exact conserving.unlock _ (.inl rfl) rfl (move_sleeper nofun)
  | begunRunning phase running =>
      exact conserving.unlock _ (.inr (.refl _)) rfl (move_sleeper nofun)
  | yielded phase => exact conserving.unlock _ (.inl rfl) rfl (move_sleeper nofun)
  | @exited carrier start epochs status phase =>
      exact conserving.unlock (system.registry.exited start.index status
        (workerOf carrier)) (.inl rfl) rfl (move_sleeper nofun)
  | woken phase =>
      refine conserving.still ?_ (move_sleeper nofun)
      exact ⟨fun free => free, fun _ queued => ⟨queued, rfl⟩, fun _ runs => runs,
        fun _ sleeps => ⟨sleeps, rfl⟩⟩
  | @delivered carrier start phase =>
      refine conserving.unlock _ (.inl rfl) rfl (move_sleeper ?_)
      cases carrier <;> nofun
  | @slept worker registry deadline rests due covers nothing =>
      exact conserving.sleep due covers nothing
  | started rests due free queued listed record here =>
      exact absurd (move_self ..) (started _ _ _ rests)
  | epochRead phase => exact conserving.still (.refl _) (move_sleeper nofun)
  | prepared phase runnable current =>
      refine conserving.unlock _ (.inr ?_) rfl (same _)
      refine .slot rfl (fun free => free) rfl ?_
      exact ⟨fun queued => ⟨queued, rfl⟩, fun sleeps => ⟨sleeps, rfl⟩⟩
  | scheduled live =>
      exact conserving.unlock _ (schedule_calm seated.consistent live) rfl (same _)
  | @marked registry marked =>
      refine conserving.unlock _ (.inr ⟨?_, fun index => ?_, fun worker => ?_, fun index => ?_⟩) rfl
        (same _)
      · rw [marked.tokens, marked.count]
        exact fun free => free
      · obtain ⟨pinned, blocked, eq⟩ := marked.slots index
        rw [eq]
        exact fun queued => ⟨queued, rfl⟩
      · rw [marked.mild.gentle.workers]
        exact fun runs => runs
      · obtain ⟨pinned, blocked, eq⟩ := marked.slots index
        rw [eq]
        exact fun sleeps => ⟨sleeps, rfl⟩
  | deadlineSet deadlineNs running => exact conserving.unlock _ (.inl rfl) rfl (same _)
  | @popped index id head here =>
      refine conserving.unlock (system.registry.popped index)
        (.inr (.slot rfl (fun free => free) rfl ?_)) rfl (same _)
      refine ⟨fun queued => ⟨queued, rfl⟩, fun sleeps => ?_⟩
      cases (Registry.sleeping_iff.mp sleeps).2.1
  | poppedNothing empty =>
      refine conserving.unlock _ (.inr ?_) rfl (same _)
      exact ⟨fun free => free, fun _ queued => ⟨queued, rfl⟩, fun _ runs => runs,
        fun _ sleeps => ⟨sleeps, rfl⟩⟩
  | claimed idle dequeued here =>
      refine conserving.unlock _ (.inr ?_) rfl (same _)
      refine .slot rfl (fun free => free) rfl ?_
      refine ⟨fun queued => ⟨queued, rfl⟩, fun sleeps => ?_⟩
      cases (Registry.sleeping_iff.mp sleeps).2.1
  | joinedThread phase => exact conserving.still (.refl _) fun _ _ asleep => asleep
  | waited phase delivered => exact conserving.still (.refl _) fun _ _ asleep => asleep
  | @rejoined joiner index id phase =>
      refine conserving.unlock (system.registry.rejoined index)
        (.inr (.slot rfl (fun free => free) rfl ?_)) rfl (same _)
      exact ⟨nofun, nofun⟩

/-- The worker is about to start a quantum that leaves another slot of its own to be stolen, with an
execution token, and nobody to steal it: no deadline has come, so that nothing is broadcast, and
another worker sleeps without a signal. -/
def Strands (system : System capacity pool) (worker : Fin pool) (nowNs : ℕ) : Prop :=
  system.registry.NoneDue nowNs ∧
    system.registry.executionTokensActive + 1 < system.registry.executionTokenCount ∧
    (∃ first second, first ≠ second ∧ (system.registry.slots first).queued = true ∧
      (system.registry.slots second).queued = true ∧
      (system.registry.slots first).assignedWorker = some worker ∧
      (system.registry.slots second).assignedWorker = some worker) ∧
    ∃ other deadline, other ≠ worker ∧ system.carriers (.worker other) = .asleep deadline false

/-- A quantum start that strands nothing keeps the work conserved. -/
theorem Conserving.start (conserving : system.Conserving)
    {worker : Fin pool} {nowNs deadline : ℕ} {registry : Registry capacity pool}
    {previous : Option (Fin capacity)} {index : Fin capacity} {start : Start capacity}
    (scheduled : system.registry.scheduleDueSlots nowNs = .ok (registry, deadline))
    (due : Registry.Due system.registry registry)
    (dequeued : registry.dequeueSlotForWorker worker =
      .ok (registry.dequeued previous index, some index))
    (queued : (registry.slots index).queued = true)
    (calm : ¬system.Strands worker nowNs) :
    (system.startedSystem worker registry previous index start).Conserving := by
  intro other wait asleep
  have apart : other ≠ worker := by
    rintro rfl
    cases (move_self ..).symm.trans asleep
  have outside : Carrier.worker other ≠ .worker worker := fun same => apart (Carrier.worker.inj same)
  have sleeps : (system.unlock (registry.quantumStarted worker previous index)).carriers
      (.worker other) = .asleep wait false := (move_other _ _ outside).symm.trans asleep
  have quiet : registry.broadcast = false := by
    refine Bool.eq_false_iff.mpr fun broadcast => ?_
    have signalled : (registry.quantumStarted worker previous index).broadcast = true := broadcast
    simp only [System.unlock, signalled, if_true] at sleeps
    exact signal_unsignalled _ wait sleeps
  have old : system.carriers (.worker other) = .asleep wait false := by
    have silent : (registry.quantumStarted worker previous index).broadcast = false := quiet
    simpa [System.unlock, silent] using sleeps
  obtain ⟨subdued, slots⟩ := (due_calm due).resolve_left (by simp [quiet])
  have rests := (conserving other wait old).subdued subdued
  have begun : (registry.quantumStarted worker previous index).slots index =
      Registry.startedSlot (registry.slots index) := Function.update_self ..
  have kept (place : Fin capacity) (distinct : place ≠ index) :
      (registry.quantumStarted worker previous index).slots place = registry.slots place :=
    Function.update_of_ne distinct ..
  refine ⟨fun free place waits takeable => ?_, fun place => ?_⟩
  · change registry.executionTokensActive + 1 < registry.executionTokenCount at free
    change ((registry.quantumStarted worker previous index).slots place).queued = true at waits
    change (registry.quantumStarted worker previous index).Takeable other place at takeable
    have distinct : place ≠ index := by
      rintro rfl
      rw [begun] at waits
      cases waits
    rw [kept place distinct] at waits
    -- The slot was out of reach before, so only the flag of the starting worker can give it away.
    have before := rests.nothing (Nat.lt_of_succ_lt free) place waits
    have mine : (registry.slots place).assignedWorker = some worker := by
      unfold Registry.Takeable Registry.stealable at takeable before
      rw [kept place distinct] at takeable
      rcases assigned : (registry.slots place).assignedWorker with _ | owner
      · simp [assigned] at before
      · simp only [assigned, Option.some.injEq, not_or] at takeable before ⊢
        by_contra foreign
        rcases takeable with own | runs
        · exact before.1 own
        · refine before.2 ?_
          exact (Function.update_of_ne foreign ..).symm.trans runs
    have preferred : (registry.slots index).assignedWorker = some worker := by
      by_contra foreign
      exact Registry.dequeueSlotForWorker_preferred due.mild.consistent dequeued foreign place waits
        mine
    rw [due.tokens, due.count] at free
    rw [slots] at waits queued mine preferred
    exact calm ⟨Registry.scheduleDueSlots_broadcast scheduled quiet, free,
      ⟨place, index, distinct, waits, queued, mine, preferred⟩, ⟨other, wait, apart, old⟩⟩
  · change Registry.Covers wait ((registry.quantumStarted worker previous index).slots place)
    by_cases here : place = index
    · intro sleeping
      rw [here, begun] at sleeping
      cases (Registry.sleeping_iff.mp sleeping).2.2.2.1
    · rw [kept place here]
      exact rests.covers place

theorem runWorker_conserving (seated : system.Seated)
    (conserving : system.Conserving) {worker : Fin pool} {nowNs : ℕ}
    (calm : ¬system.Strands worker nowNs)
    (taken : system.runWorker worker nowNs = .ok (some after)) : after.Conserving := by
  rcases Bool.eq_false_or_eq_true (resting (system.carriers (.worker worker))) with rests | busy
  · obtain ⟨registry, deadline, scheduled, due, covers, sleeps | starts⟩ :=
      runWorker_cases seated nowNs rests
    · rw [sleeps.1] at taken
      obtain rfl := Option.some.inj (Except.ok.inj taken)
      exact conserving.sleep due covers sleeps.2
    · obtain ⟨previous, index, start, ran, dequeued, -, queued, -, -, -⟩ := starts
      rw [ran] at taken
      obtain rfl := Option.some.inj (Except.ok.inj taken)
      exact conserving.start scheduled due dequeued queued calm
  · unfold runWorker at taken
    rw [if_pos busy] at taken
    cases taken

theorem resting_unlock (registry : Registry capacity pool)
    {carrier : Carrier pool} (rests : resting (system.carriers carrier) = true) :
    resting ((system.unlock registry).carriers carrier) = true := by
  unfold System.unlock
  dsimp only
  split
  · exact (resting_signal _).trans rests
  · exact rests

theorem resting_move {actor carrier : Carrier pool}
    {phase : Phase capacity} (busy : resting (system.carriers actor) = false)
    (rests : resting (system.carriers carrier) = true) :
    resting ((system.move actor phase).carriers carrier) = true := by
  have apart : carrier ≠ actor := by
    rintro rfl
    cases busy.symm.trans rests
  rw [move_other _ _ apart]
  exact rests

theorem busy_unlock (registry : Registry capacity pool)
    {carrier : Carrier pool} (busy : resting (system.carriers carrier) = false) :
    resting ((system.unlock registry).carriers carrier) = false := by
  unfold System.unlock
  dsimp only
  split
  · exact (resting_signal _).trans busy
  · exact busy

/-- Only its own turn starts a quantum of a resting worker. -/
theorem step_resting {action : Action pool}
    (other : ∀ worker nowNs, action ≠ .runWorker worker nowNs)
    (taken : system.step action = .ok (some after)) {worker : Fin pool}
    (rests : resting (system.carriers (.worker worker)) = true) :
    resting (after.carriers (.worker worker)) = true := by
  have unlocked (registry : Registry capacity pool) := resting_unlock registry rests
  cases action with
  | launch request =>
      have launched := Except.ok.inj taken
      unfold launch at launched
      split at launched
      · cases launched
      · obtain rfl := Option.some.inj launched
        unfold endLaunch
        split
        all_goals exact unlocked _
  | createThread start success =>
      have created := Except.ok.inj taken
      unfold createThread at created
      split at created
      · split at created
        · obtain rfl := Option.some.inj created
          exact rests
        · obtain rfl := Option.some.inj created
          exact rests
      · cases created
  | finishLaunch start =>
      change system.finishLaunch start = _ at taken
      unfold finishLaunch at taken
      split at taken
      · rename_i record request launcher
        obtain rfl := Option.some.inj (Except.ok.inj taken)
        exact unlocked (system.registry.publishThread record.index request)
      · obtain ⟨registry, -, taken⟩ := except_bind_eq_ok.mp taken
        obtain rfl := Option.some.inj (Except.ok.inj taken)
        exact unlocked registry
      · cases taken
  | beginThread start =>
      change system.beginThread start = _ at taken
      unfold beginThread at taken
      split at taken
      · obtain ⟨result, -, taken⟩ := except_bind_eq_ok.mp taken
        split at taken
        · cases taken
        · obtain rfl := Option.some.inj (Except.ok.inj taken)
          exact unlocked _
      · cases taken
  | complete carrier returned cleanup =>
      change system.complete carrier returned cleanup = _ at taken
      unfold complete at taken
      split at taken
      · rename_i phase
        have busy : resting (system.carriers carrier) = false := by rw [phase]; rfl
        obtain ⟨registry, -, taken⟩ := except_bind_eq_ok.mp taken
        split at taken
        · obtain rfl := Option.some.inj (Except.ok.inj taken)
          exact resting_move (busy_unlock registry busy) (unlocked registry)
        · obtain rfl := Option.some.inj (Except.ok.inj taken)
          exact resting_move (busy_unlock registry busy) (unlocked registry)
      · cases taken
  | wake carrier =>
      have woken := Except.ok.inj taken
      unfold wake at woken
      split at woken
      · rename_i phase
        obtain rfl := Option.some.inj woken
        exact resting_move (by rw [phase]; rfl) rests
      · cases woken
  | deliver carrier =>
      change system.deliver carrier = _ at taken
      unfold deliver at taken
      split at taken
      · rename_i phase
        have busy : resting (system.carriers carrier) = false := by rw [phase]; rfl
        obtain ⟨registry, -, taken⟩ := except_bind_eq_ok.mp taken
        obtain rfl := Option.some.inj (Except.ok.inj taken)
        exact resting_move (busy_unlock registry busy) (unlocked registry)
      · cases taken
  | runWorker worker nowNs => exact absurd rfl (other worker nowNs)
  | scheduleEpoch carrier =>
      have read := Except.ok.inj taken
      unfold scheduleEpoch at read
      split at read
      · rename_i phase
        split at read
        · cases read
        · obtain rfl := Option.some.inj read
          exact resting_move (by rw [phase]; rfl) rests
      · cases read
  | prepareYield carrier observed runnable =>
      have prepared := Except.ok.inj taken
      unfold prepareYield at prepared
      split at prepared
      · split at prepared
        · split at prepared
          · cases prepared
          · obtain rfl := Option.some.inj prepared
            exact unlocked _
        · cases prepared
      · cases prepared
  | completionPop =>
      obtain rfl := Option.some.inj (Except.ok.inj taken)
      unfold completionPop
      split
      all_goals exact unlocked _
  | joinClaim joiner completion =>
      have claimed := Except.ok.inj taken
      unfold joinClaim at claimed
      split at claimed
      · obtain ⟨id, -, claimed⟩ := Option.bind_eq_some_iff.mp claimed
        obtain rfl := Option.some.inj claimed
        exact unlocked _
      · cases claimed
  | joinThread joiner =>
      have joined := Except.ok.inj taken
      unfold joinThread at joined
      dsimp only at joined
      split at joined
      · split_ifs at joined
        · obtain rfl := Option.some.inj joined
          exact rests
        · obtain rfl := Option.some.inj joined
          exact unlocked _
        · obtain rfl := Option.some.inj joined
          exact rests
      · cases joined
  | joinWait joiner =>
      have waited := Except.ok.inj taken
      unfold joinWait at waited
      dsimp only at waited
      split at waited
      · split_ifs at waited
        · obtain rfl := Option.some.inj waited
          exact rests
        · obtain rfl := Option.some.inj waited
          exact rests
      · cases waited
  | joinRelease joiner =>
      have released := Except.ok.inj taken
      unfold joinRelease at released
      split at released
      · split at released
        · obtain rfl := Option.some.inj released
          exact rests
        · obtain rfl := Option.some.inj released
          exact unlocked _
      · cases released
  | _ =>
      obtain rfl := Option.some.inj (Except.ok.inj taken)
      exact unlocked _

/-! ## Runs -/

/-- The runs in which no quantum start strands a slot. -/
inductive Unstranded (config : ProviderConfig) : System capacity pool → Prop
  | create : Unstranded config (create config)
  | step {system after : System capacity pool} {action : Action pool}
      (before : Unstranded config system) (taken : system.step action = .ok (some after))
      (calm : ∀ worker nowNs, action = .runWorker worker nowNs → ¬system.Strands worker nowNs) :
      Unstranded config after

theorem Unstranded.reachable {config : ProviderConfig}
    (run : Unstranded config system) : Reachable config system := by
  induction run with
  | create => exact .create
  | step _ taken _ before => exact before.step taken

theorem Unstranded.conserving {config : ProviderConfig} (accepted : config.Accepted capacity pool)
    (run : Unstranded config system) : system.Conserving := by
  induction run with
  | create =>
      intro worker deadline asleep
      cases asleep
  | @step system after action before taken calm conserving =>
      have seated := before.reachable.seated accepted
      by_cases turn : ∃ worker nowNs, action = .runWorker worker nowNs
      · obtain ⟨worker, nowNs, rfl⟩ := turn
        exact runWorker_conserving seated conserving (calm worker nowNs rfl) taken
      · refine (before.reachable.move accepted taken).conserving seated conserving ?_
        intro worker start epochs rests executes
        have still := step_resting (fun worker nowNs same => turn ⟨worker, nowNs, same⟩) taken rests
        rw [executes] at still
        cases still

/-- A worker that sleeps without a signal would be given no slot, and its deadline is not behind the
deadline of an idle slot. -/
def WorkConserving (system : System capacity pool) : Prop :=
  ∀ worker deadline, system.carriers (.worker worker) = .asleep deadline false →
    (∀ registry index,
      system.registry.dequeueSlotForWorker worker ≠ .ok (registry, some index)) ∧
    ∀ index, Registry.sleeping (system.registry.slots index) = true →
      deadline ≠ 0 ∧ deadline ≤ (system.registry.slots index).deadlineNs

/-- The scheduler is work conserving in every state of a run in which no quantum start leaves a
second slot of its worker queued, with a token free, no deadline due and another worker asleep. -/
theorem work_conserving {config : ProviderConfig} (accepted : config.Accepted capacity pool)
    {system : System capacity pool} (run : Unstranded config system) : system.WorkConserving := by
  intro worker deadline asleep
  have rests := run.conserving accepted worker deadline asleep
  have consistent := (run.reachable.seated accepted).consistent
  refine ⟨fun registry index given => ?_, rests.covers⟩
  rcases Registry.dequeueSlotForWorker_cases consistent worker with
    ⟨nothing, -⟩ | ⟨previous, place, -, free, queued, takeable, -⟩
  · rw [nothing] at given
    cases given
  · exact rests.nothing free place queued takeable

/-- A client waits for the first worker while the second one sleeps. -/
theorem work_conserving_waiting :
    ∃ system : System 2 2, Unstranded pairConfig system ∧ system.registry.runnableDepth = 1 ∧
      system.carriers (.worker 1) = .asleep 0 false ∧ system.WorkConserving := by
  obtain ⟨first, launched, idle⟩ : ∃ first, (create pairConfig : System 2 2).step
      (.launch clientRequest) = .ok (some first) ∧
        ∀ worker, first.carriers (.worker worker) = .idle := ⟨_, rfl, by decide⟩
  have facts : ((create pairConfig : System 2 2).run [.launch clientRequest, .runWorker 1 1]).map
      (fun system => (system.registry.runnableDepth, system.carriers (.worker 1))) =
      some (1, .asleep 0 false) := by decide
  obtain ⟨system, runs, seen⟩ := Option.map_eq_some_iff.mp facts
  obtain ⟨depth, asleep⟩ := Prod.mk.inj seen
  have turned : first.step (.runWorker 1 1) = .ok (some system) := by
    simp only [System.run, launched] at runs
    split at runs
    · rename_i next taken
      rw [taken, Option.some.inj runs]
    · cases runs
  have run : Unstranded pairConfig system := by
    refine (Unstranded.create.step launched (by simp)).step turned fun worker nowNs _ strands => ?_
    obtain ⟨-, -, -, other, deadline, -, asleep⟩ := strands
    cases (idle other).symm.trans asleep
  exact ⟨system, run, depth, asleep, work_conserving pairConfig_accepted run⟩

/-- Two clients are launched; the second worker runs one, which is scheduled and yields, so that
both wait for the first worker; the second worker finds nothing and sleeps. -/
def sleepingRun : List (Action 2) :=
  [.launch clientRequest, .launch clientRequest, .runWorker secondWorker 1,
    .wakeByCompatPid 1000000001, .complete (.worker secondWorker) { kind := .yield, code := 0 } 0,
    .runWorker secondWorker 1]

/-- A client that waits for the first worker, which starts a quantum, could run on the second one,
which sleeps without a signal. -/
theorem stranded_slot :
    ¬∀ system : System 2 2, Reachable pairConfig system → system.WorkConserving := by
  intro claimed
  have facts : ((create pairConfig : System 2 2).run (sleepingRun ++ [.runWorker 0 1])).map
      (fun system => (system.carriers (.worker 1),
        (system.registry.dequeueSlotForWorker 1).map Prod.snd)) =
      some (.asleep 0 false, .ok (some 1)) := by decide
  obtain ⟨system, runs, seen⟩ := Option.map_eq_some_iff.mp facts
  obtain ⟨asleep, given⟩ := Prod.mk.inj seen
  have conserving := claimed system (Reachable.create.run runs) 1 0 asleep
  rcases result : system.registry.dequeueSlotForWorker 1 with abort | ⟨registry, slot⟩
  · rw [result] at given
    cases given
  · rw [result] at given
    obtain rfl : slot = some 1 := Except.ok.inj given
    exact conserving.1 registry 1 result

end System

end Postgamma.Runtime
