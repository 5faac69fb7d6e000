import Mathlib
import Postgamma.Library.Program
import Postgamma.Runtime.RegistryRuns

/-!
# Consistency of the registry

What holds of the slots, the two lists and the counters whenever the registry mutex is free.  A
critical section that rewrites one slot and moves the counters with it keeps this; pins, deadlines,
schedules and the search of a worker for a slot are such sections, and none of them aborts.
-/

namespace Postgamma.Runtime

variable {capacity pool : ℕ}

namespace BackendSlot

/-- The execution of the slot has ended and has not been joined. -/
def ended (slot : BackendSlot pool) : Bool :=
  slot.state = .completed || slot.state = .dequeued || slot.state = .joining

/-- A thread is counted for the slot. -/
def carried (slot : BackendSlot pool) : Bool :=
  slot.quantumRunning ||
    (!slot.pooled && slot.thread && (slot.state = .starting || slot.state = .running))

/-- A client thread is counted for the slot. -/
def clientCarried (slot : BackendSlot pool) : Bool :=
  slot.carried && slot.handle.executionClass = .client

/-- The slot is in use. -/
def active (slot : BackendSlot pool) : Bool := slot.state ≠ .free

/-- What the fields of one slot have to do with each other. -/
structure Sound (slot : BackendSlot pool) : Prop where
  queued : slot.queued = true → slot.state = .running ∧ slot.pooled = true ∧
    slot.quantumRunning = false ∧ slot.executionTokenHeld = false
  quantum : slot.quantumRunning = true → slot.state = .running ∧ slot.pooled = true ∧
    slot.executionTokenHeld = true
  token : slot.executionTokenHeld = true → slot.quantumRunning = true ∨
    slot.pooled = false ∧ (slot.state = .starting ∨ slot.state = .running)
  pinned : slot.pinned = true → slot.state = .running
  blocked : slot.blocked = true → slot.state = .running
  start : slot.start = none ↔ slot.state = .free
  starting : slot.state = .starting → slot.pooled = false
  thread : slot.pooled = false → slot.state ≠ .free → slot.state ≠ .starting → slot.thread = true
  client : slot.pooled = true → slot.handle.executionClass = .client
  completion : slot.ended = true → slot.completion.handle = slot.handle
  delivery : slot.completionDeliveryComplete = true → slot.ended = true

variable {slot : BackendSlot pool}

/-- A slot whose quantum runs, or that is not pooled, is not in the queue. -/
theorem Sound.not_queued (sound : slot.Sound)
    (outside : slot.quantumRunning = true ∨ slot.pooled = false ∨ slot.state ≠ .running) :
    slot.queued = false := by
  rw [Bool.eq_false_iff]
  intro queued
  obtain ⟨running, pooled, parked, -⟩ := sound.queued queued
  rcases outside with quantum | dedicated | elsewhere
  · rw [parked] at quantum
    cases quantum
  · rw [pooled] at dedicated
    cases dedicated
  · exact elsewhere running

/-- A slot that holds nothing of the scheduler. -/
structure Released (slot : BackendSlot pool) : Prop where
  waiting : slot.queued = false
  parked : slot.quantumRunning = false
  free : slot.executionTokenHeld = false
  unpinned : slot.pinned = false
  unblocked : slot.blocked = false
  uncarried : slot.carried = false

/-- An execution holds something only while it starts or runs. -/
theorem Sound.released (sound : slot.Sound)
    (begun : slot.state ≠ .starting) (past : slot.state ≠ .running) : slot.Released := by
  have parked : slot.quantumRunning = false :=
    Bool.eq_false_iff.mpr fun quantum => past (sound.quantum quantum).1
  refine ⟨sound.not_queued (.inr (.inr past)), parked, ?_, ?_, ?_, ?_⟩
  · refine Bool.eq_false_iff.mpr fun held => ?_
    rcases sound.token held with quantum | ⟨-, starting | running⟩
    · rw [parked] at quantum
      cases quantum
    · exact begun starting
    · exact past running
  · exact Bool.eq_false_iff.mpr fun pinned => past (sound.pinned pinned)
  · exact Bool.eq_false_iff.mpr fun blocked => past (sound.blocked blocked)
  · simp [carried, parked, begun, past]

/-- A slot whose thread is being created or has not begun. -/
structure Preparing (slot : BackendSlot pool) : Prop where
  dedicated : slot.pooled = false
  waiting : slot.queued = false
  parked : slot.quantumRunning = false
  unpinned : slot.pinned = false
  unblocked : slot.blocked = false
  undelivered : slot.completionDeliveryComplete = false
  present : slot.start ≠ none

theorem Sound.preparing (sound : slot.Sound)
    (starting : slot.state = .starting) : slot.Preparing := by
  have dedicated := sound.starting starting
  have early : slot.state ≠ .running := by simp [starting]
  refine ⟨dedicated, sound.not_queued (.inr (.inl dedicated)), ?_, ?_, ?_, ?_, ?_⟩
  · exact Bool.eq_false_iff.mpr fun quantum => early (sound.quantum quantum).1
  · exact Bool.eq_false_iff.mpr fun pinned => early (sound.pinned pinned)
  · exact Bool.eq_false_iff.mpr fun blocked => early (sound.blocked blocked)
  · refine Bool.eq_false_iff.mpr fun delivered => ?_
    have past := sound.delivery delivered
    simp [BackendSlot.ended, starting] at past
  · rw [Ne, sound.start, starting]
    simp

theorem ended_state (ended : slot.ended = true) :
    slot.state ≠ .free ∧ slot.state ≠ .starting ∧ slot.state ≠ .running := by
  simp only [BackendSlot.ended, Bool.or_eq_true, decide_eq_true_eq] at ended
  rcases ended with (state | state) | state <;> simp [state]

/-- An execution that has ended moves on to the next state. -/
theorem Sound.moved (sound : slot.Sound) (ended : slot.ended = true)
    {state : SlotState} (after : BackendSlot.ended { slot with state := state } = true) :
    BackendSlot.Sound { slot with state := state } := by
  obtain ⟨used, begun, past⟩ := ended_state ended
  obtain ⟨waiting, parked, free, unpinned, unblocked, -⟩ := sound.released begun past
  have present : slot.start ≠ none := fun missing => used (sound.start.mp missing)
  have next := ended_state after
  exact
    { queued := by simp [waiting], quantum := by simp [parked], token := by simp [free]
      pinned := by simp [unpinned], blocked := by simp [unblocked]
      start := by simpa [present] using next.1
      starting := fun same => absurd same next.2.1
      thread := fun dedicated _ _ => sound.thread dedicated used begun
      client := sound.client
      completion := fun _ => sound.completion ended
      delivery := fun _ => after }

end BackendSlot

namespace Registry

/-- The lists and counters agree with the slots. -/
structure Consistent (registry : Registry capacity pool) : Prop where
  sound : ∀ index, (registry.slots index).Sound
  runnable : registry.runnable.Lists fun index => (registry.slots index).queued = true
  depth : registry.runnableDepth = census BackendSlot.queued registry.slots
  completions : registry.completions.Lists fun index => (registry.slots index).state = .completed
  tokens : registry.executionTokensActive = census BackendSlot.executionTokenHeld registry.slots
  tokensBound : registry.executionTokensActive ≤ registry.executionTokenCount
  quantums : registry.runningQuantums = census BackendSlot.quantumRunning registry.slots
  active : registry.activeCount = census BackendSlot.active registry.slots
  threads : registry.backendThreadsActive = census BackendSlot.carried registry.slots
  clients : registry.clientThreadsActive = census BackendSlot.clientCarried registry.slots
  pinned : registry.pinnedSessions = census BackendSlot.pinned registry.slots
  blocked : registry.blockedSessions = census BackendSlot.blocked registry.slots
  pids : ∀ index other, (registry.slots index).state ≠ .free →
    (registry.slots other).state ≠ .free →
    (registry.slots index).handle.compatPid = (registry.slots other).handle.compatPid →
    index = other
  issued : ∀ index, (registry.slots index).state ≠ .free →
    (registry.slots index).handle.id = makeBackendId index (registry.slots index).generation
  pooled : ∀ index, (registry.slots index).pooled = true → registry.provider = .pooled
  room : registry.provider = .pooled → capacity ≤ registry.queueCapacity
  bounded : capacity < 2 ^ 32

theorem create_consistent {config : ProviderConfig} (accepted : config.Accepted capacity pool) :
    (create config : Registry capacity pool).Consistent := by
  have zero (test : BackendSlot pool → Bool) (fails : test freeSlot = false) :
      0 = census test (create config : Registry capacity pool).slots := by
    simp [census, create, fails]
  refine
    { sound := fun index => ?_, runnable := ?_, depth := zero _ rfl, completions := ?_
      tokens := zero _ rfl, tokensBound := Nat.zero_le _, quantums := zero _ rfl
      active := zero _ rfl, threads := zero _ rfl, clients := zero _ rfl, pinned := zero _ rfl
      blocked := zero _ rfl, pids := ?_, issued := ?_, pooled := ?_, room := ?_
      bounded := accepted.2.1 }
  · constructor <;> simp [create, freeSlot, BackendSlot.ended]
  · exact Links.empty_lists fun index => by simp [create, freeSlot]
  · exact Links.empty_lists fun index => by simp [create, freeSlot]
  · intro index other used
    exact absurd rfl used
  · intro index used
    exact absurd rfl used
  · intro index used
    cases used
  · intro kind
    exact (accepted.2.2.2 kind).2.2.1

theorem makeBackendId_index {index other : Fin capacity} {first second : ℕ}
    (bounded : capacity < 2 ^ 32)
    (same : makeBackendId index first = makeBackendId other second) : index = other := by
  have split (place : Fin capacity) (generation : ℕ) :
      makeBackendId place generation % 2 ^ 32 = place + 1 := by
    have below : (place : ℕ) + 1 < 2 ^ 32 := lt_of_le_of_lt place.isLt bounded
    rw [makeBackendId, Nat.mul_add_mod_of_lt below]
  have equal : (index : ℕ) + 1 = other + 1 := by
    rw [← split index first, ← split other second, same]
  exact Fin.ext (Nat.succ.inj equal)

variable {registry : Registry capacity pool} {before after : Registry capacity pool}
  {slot : BackendSlot pool} {index : Fin capacity}

/-- Two slots in use have different ids. -/
theorem Consistent.same_id (consistent : registry.Consistent)
    {index other : Fin capacity} (used : (registry.slots index).state ≠ .free)
    (taken : (registry.slots other).state ≠ .free)
    (same : (registry.slots index).handle.id = (registry.slots other).handle.id) :
    index = other := by
  rw [consistent.issued index used, consistent.issued other taken] at same
  exact makeBackendId_index consistent.bounded same

/-- A broadcast and the wake target are no part of it. -/
theorem Consistent.unlocked (consistent : registry.Consistent) (signalled broadcast : Bool) :
    Consistent { registry with wakeSignalled := signalled, broadcast := broadcast } :=
  { consistent with }

/-- The counters follow the change of one slot. -/
structure Counted (before after : Registry capacity pool) (old new : BackendSlot pool) : Prop where
  depth : after.runnableDepth + old.queued.toNat = before.runnableDepth + new.queued.toNat
  tokens : after.executionTokensActive + old.executionTokenHeld.toNat =
    before.executionTokensActive + new.executionTokenHeld.toNat
  quantums : after.runningQuantums + old.quantumRunning.toNat =
    before.runningQuantums + new.quantumRunning.toNat
  active : after.activeCount + old.active.toNat = before.activeCount + new.active.toNat
  threads : after.backendThreadsActive + old.carried.toNat =
    before.backendThreadsActive + new.carried.toNat
  clients : after.clientThreadsActive + old.clientCarried.toNat =
    before.clientThreadsActive + new.clientCarried.toNat
  pinned : after.pinnedSessions + old.pinned.toNat = before.pinnedSessions + new.pinned.toNat
  blocked : after.blockedSessions + old.blocked.toNat = before.blockedSessions + new.blocked.toNat

theorem Counted.refl (registry : Registry capacity pool) (slot : BackendSlot pool) :
    Counted registry registry slot slot := by
  constructor <;> rfl

theorem Counted.ended (sound : slot.Sound) (ended : slot.ended = true) {state : SlotState}
    (next : BackendSlot.ended { slot with state := state } = true)
    (same : Counted before after slot slot) :
    Counted before after slot { slot with state := state } := by
  have before := BackendSlot.ended_state ended
  have after := BackendSlot.ended_state next
  have old := sound.released before.2.1 before.2.2
  have new := (sound.moved ended next).released after.2.1 after.2.2
  refine { same with active := ?_, threads := ?_, clients := ?_ }
  · have stays : BackendSlot.active { slot with state := state } = slot.active :=
      (decide_eq_true after.1).trans (decide_eq_true before.1).symm
    rw [stays]
    exact same.active
  · rw [new.uncarried, ← old.uncarried]
    exact same.threads
  · have stays : BackendSlot.clientCarried { slot with state := state } = slot.clientCarried := by
      rw [BackendSlot.clientCarried, BackendSlot.clientCarried, new.uncarried, old.uncarried]
    rw [stays]
    exact same.clients

/-- A critical section that changes one slot keeps the registry consistent. -/
theorem Consistent.change (consistent : before.Consistent)
    (slots : after.slots = Function.update before.slots index slot)
    (provider : after.provider = before.provider)
    (queueCapacity : after.queueCapacity = before.queueCapacity)
    (bound : after.executionTokensActive ≤ after.executionTokenCount)
    (counted : Counted before after (before.slots index) slot)
    (sound : slot.Sound)
    (runnable : after.runnable.Lists fun place => (after.slots place).queued = true)
    (completions : after.completions.Lists fun place => (after.slots place).state = .completed)
    (pid : slot.state ≠ .free → ∀ other ≠ index, (before.slots other).state ≠ .free →
      slot.handle.compatPid ≠ (before.slots other).handle.compatPid)
    (issued : slot.state ≠ .free → slot.handle.id = makeBackendId index slot.generation)
    (pooled : slot.pooled = true → before.provider = .pooled) :
    after.Consistent := by
  have counter {number number' : ℕ} {test : BackendSlot pool → Bool}
      (exact : number = census test before.slots)
      (moved : number' + (test (before.slots index)).toNat = number + (test slot).toNat) :
      number' = census test after.slots := by
    have follows := census_update test before.slots index slot
    rw [← slots, ← exact, ← moved] at follows
    exact (Nat.add_right_cancel follows).symm
  have here : after.slots index = slot := by
    rw [slots, Function.update_self]
  have elsewhere (other : Fin capacity) (apart : other ≠ index) :
      after.slots other = before.slots other := by
    rw [slots, Function.update_of_ne apart]
  refine
    { sound := fun other => ?_, runnable := runnable
      depth := counter consistent.depth counted.depth, completions := completions
      tokens := counter consistent.tokens counted.tokens, tokensBound := bound
      quantums := counter consistent.quantums counted.quantums
      active := counter consistent.active counted.active
      threads := counter consistent.threads counted.threads
      clients := counter consistent.clients counted.clients
      pinned := counter consistent.pinned counted.pinned
      blocked := counter consistent.blocked counted.blocked
      pids := fun one other => ?_, issued := fun other => ?_, pooled := fun other => ?_
      room := fun kind => ?_, bounded := consistent.bounded }
  · by_cases same : other = index
    · rw [same]
      exact here ▸ sound
    · exact elsewhere other same ▸ consistent.sound other
  · intro used taken equal
    by_cases first : one = index
    · by_cases second : other = index
      · rw [first, second]
      · rw [first, here] at used equal
        rw [elsewhere other second] at taken equal
        exact absurd equal (pid used other second taken)
    · rw [elsewhere one first] at used equal
      by_cases second : other = index
      · rw [second, here] at taken equal
        exact absurd equal.symm (pid taken one first used)
      · rw [elsewhere other second] at taken equal
        exact consistent.pids one other used taken equal
  · by_cases same : other = index
    · rw [same, here]
      exact issued
    · rw [elsewhere other same]
      exact consistent.issued other
  · by_cases same : other = index
    · rw [same, here]
      exact fun kind => provider.trans (pooled kind)
    · rw [elsewhere other same]
      exact fun kind => provider.trans (consistent.pooled other kind)
  · exact queueCapacity.symm ▸ consistent.room (provider.symm.trans kind)

/-- The new slot belongs to the same execution as the old one, or to none. -/
structure Retains (old new : BackendSlot pool) : Prop where
  handle : new.handle = old.handle
  generation : new.generation = old.generation
  pooled : new.pooled = old.pooled
  used : new.state ≠ .free → old.state ≠ .free

/-- A change of one slot that keeps its execution. -/
theorem Consistent.retain (consistent : before.Consistent)
    (slots : after.slots = Function.update before.slots index slot)
    (provider : after.provider = before.provider)
    (queueCapacity : after.queueCapacity = before.queueCapacity)
    (bound : after.executionTokensActive ≤ after.executionTokenCount)
    (counted : Counted before after (before.slots index) slot)
    (sound : slot.Sound)
    (runnable : after.runnable.Lists fun place => (after.slots place).queued = true)
    (completions : after.completions.Lists fun place => (after.slots place).state = .completed)
    (retains : Retains (before.slots index) slot) :
    after.Consistent := by
  refine consistent.change slots provider queueCapacity bound counted sound runnable completions
    ?_ ?_ ?_
  · intro used other apart taken equal
    rw [retains.handle] at equal
    exact apart (consistent.pids _ _ taken (retains.used used) equal.symm)
  · intro used
    rw [retains.handle, retains.generation]
    exact consistent.issued index (retains.used used)
  · intro kind
    exact consistent.pooled index (retains.pooled ▸ kind)

/-- The same list is right for the new slots when the changed slot keeps its answer. -/
theorem lists_update {links : Links (Fin capacity)} (test : BackendSlot pool → Prop)
    {slots : Fin capacity → BackendSlot pool}
    (lists : links.Lists fun place => test (slots place)) (same : test (slots index) ↔ test slot) :
    links.Lists fun place => test (Function.update slots index slot place) := by
  refine lists.congr fun place => ?_
  by_cases here : place = index
  · rw [here, Function.update_self, same]
  · rw [Function.update_of_ne here]

/-- A change of one slot that leaves both lists alone. -/
theorem Consistent.flags (consistent : before.Consistent)
    (slots : after.slots = Function.update before.slots index slot)
    (provider : after.provider = before.provider)
    (queueCapacity : after.queueCapacity = before.queueCapacity)
    (bound : after.executionTokensActive ≤ after.executionTokenCount)
    (counted : Counted before after (before.slots index) slot)
    (sound : slot.Sound)
    (runnable : after.runnable = before.runnable) (completions : after.completions = before.completions)
    (queued : slot.queued = (before.slots index).queued)
    (completed : slot.state = .completed ↔ (before.slots index).state = .completed)
    (retains : Retains (before.slots index) slot) :
    after.Consistent := by
  refine consistent.retain slots provider queueCapacity bound counted sound ?_ ?_ retains
  · rw [runnable, slots]
    exact lists_update (fun slot => slot.queued = true) consistent.runnable (by rw [queued])
  · rw [completions, slots]
    exact lists_update (fun slot => slot.state = .completed) consistent.completions
      completed.symm

theorem runningSlot_running {id : ℕ} (found : registry.runningSlot id = .ok index) :
    (registry.slots index).state = .running ∧ (registry.slots index).handle.id = id := by
  unfold runningSlot at found
  split at found
  · cases found
  · split at found
    · dsimp only at found
      split at found
      · cases found
      · rename_i inside accepted
        obtain rfl := Except.ok.inj found
        simp only [not_or, not_not] at accepted
        exact ⟨accepted.2.2, accepted.2.1⟩
    · cases found

/-- The part of a slot that decides where its execution stands. -/
def core (slot : BackendSlot pool) : BackendSlot pool :=
  { slot with
    deadlineNs := 0, scheduleEpoch := 0, queued := false, rescheduleRequested := false
    pinned := false, blocked := false }

/-- Two slots with the same core agree on the fields that the threads rely on. -/
structure Alike (new old : BackendSlot pool) : Prop where
  state : new.state = old.state
  start : new.start = old.start
  handle : new.handle = old.handle
  generation : new.generation = old.generation
  thread : new.thread = old.thread
  pooled : new.pooled = old.pooled
  quantum : new.quantumRunning = old.quantumRunning
  completion : new.completion = old.completion
  delivery : new.completionDeliveryComplete = old.completionDeliveryComplete

theorem alike_of_core {new old : BackendSlot pool} (same : core new = core old) :
    Alike new old := by
  have field {β : Type} (read : BackendSlot pool → β) : read (core new) = read (core old) :=
    congrArg read same
  exact ⟨field BackendSlot.state, field BackendSlot.start, field BackendSlot.handle,
    field BackendSlot.generation, field BackendSlot.thread, field BackendSlot.pooled,
    field BackendSlot.quantumRunning, field BackendSlot.completion,
    field BackendSlot.completionDeliveryComplete⟩

/-- A critical section that neither starts nor ends an execution or a quantum. -/
structure Gentle (before after : Registry capacity pool) : Prop where
  core : ∀ index, core (after.slots index) = core (before.slots index)
  workers : after.workerRunning = before.workerRunning
  completions : after.completions = before.completions
  wake : after.wakeSignalled = before.wakeSignalled

theorem Gentle.refl (registry : Registry capacity pool) : Gentle registry registry :=
  ⟨fun _ => rfl, rfl, rfl, rfl⟩

theorem Gentle.trans {first second third : Registry capacity pool} (left : Gentle first second)
    (right : Gentle second third) : Gentle first third :=
  ⟨fun index => (right.core index).trans (left.core index), right.workers.trans left.workers,
    right.completions.trans left.completions, right.wake.trans left.wake⟩

theorem Gentle.of_slot (slots : after.slots = Function.update before.slots index slot)
    (same : Registry.core slot = Registry.core (before.slots index))
    (workers : after.workerRunning = before.workerRunning)
    (completions : after.completions = before.completions)
    (wake : after.wakeSignalled = before.wakeSignalled) : Gentle before after := by
  refine ⟨fun other => ?_, workers, completions, wake⟩
  rw [slots]
  by_cases here : other = index
  · rw [here, Function.update_self, same]
  · rw [Function.update_of_ne here]

/-- What a call that does not abort leaves behind when it neither starts nor ends anything. -/
structure Mild (before after : Registry capacity pool) : Prop where
  consistent : after.Consistent
  gentle : Gentle before after

theorem Consistent.mild (consistent : registry.Consistent) :
    Mild registry registry := ⟨consistent, .refl registry⟩

theorem setPinned_mild (consistent : registry.Consistent)
    (id : ℕ) (pinned : Bool) : Mild registry (registry.setPinned id pinned).1 := by
  unfold setPinned
  split
  · exact consistent.mild
  rename_i index found
  split
  · exact consistent.mild
  rename_i changed
  have sound : ({ registry.slots index with pinned := pinned } : BackendSlot pool).Sound :=
    { consistent.sound index with pinned := fun _ => (runningSlot_running found).1 }
  have positive (held : (registry.slots index).pinned = true) :
      0 < registry.pinnedSessions := consistent.pinned ▸ census_pos index held
  cases pinned with
  | true =>
      have before : (registry.slots index).pinned = false := by simpa using changed
      rw [if_pos rfl]
      refine ⟨consistent.flags rfl rfl rfl consistent.tokensBound
        { Counted.refl registry (registry.slots index) with pinned := ?_ } sound rfl rfl rfl
        Iff.rfl ⟨rfl, rfl, rfl, fun used => used⟩, .of_slot rfl rfl rfl rfl rfl⟩
      simp [before, setSlot]
  | false =>
      have held : (registry.slots index).pinned = true := by simpa using changed
      rw [if_neg Bool.false_ne_true,
        if_neg (show (registry.setSlot index _).pinnedSessions ≠ 0 from (positive held).ne')]
      refine ⟨consistent.flags rfl rfl rfl consistent.tokensBound
        { Counted.refl registry (registry.slots index) with pinned := ?_ } sound rfl rfl rfl
        Iff.rfl ⟨rfl, rfl, rfl, fun used => used⟩, .of_slot rfl rfl rfl rfl rfl⟩
      simp [held, setSlot, Nat.sub_add_cancel (positive held)]

theorem setBlocked_mild (consistent : registry.Consistent)
    (id : ℕ) (blocked : Bool) : Mild registry (registry.setBlocked id blocked).1 := by
  unfold setBlocked
  split
  · exact consistent.mild
  rename_i index found
  split
  · exact consistent.mild
  rename_i changed
  have sound : ({ registry.slots index with blocked := blocked } : BackendSlot pool).Sound :=
    { consistent.sound index with blocked := fun _ => (runningSlot_running found).1 }
  have positive (held : (registry.slots index).blocked = true) :
      0 < registry.blockedSessions := consistent.blocked ▸ census_pos index held
  cases blocked with
  | true =>
      have before : (registry.slots index).blocked = false := by simpa using changed
      rw [if_pos rfl]
      refine ⟨consistent.flags rfl rfl rfl consistent.tokensBound
        { Counted.refl registry (registry.slots index) with blocked := ?_ } sound rfl rfl rfl
        Iff.rfl ⟨rfl, rfl, rfl, fun used => used⟩, .of_slot rfl rfl rfl rfl rfl⟩
      simp [before, setSlot]
  | false =>
      have held : (registry.slots index).blocked = true := by simpa using changed
      rw [if_neg Bool.false_ne_true,
        if_neg (show (registry.setSlot index _).blockedSessions ≠ 0 from (positive held).ne')]
      refine ⟨consistent.flags rfl rfl rfl consistent.tokensBound
        { Counted.refl registry (registry.slots index) with blocked := ?_ } sound rfl rfl rfl
        Iff.rfl ⟨rfl, rfl, rfl, fun used => used⟩, .of_slot rfl rfl rfl rfl rfl⟩
      simp [held, setSlot, Nat.sub_add_cancel (positive held)]

/-- A deadline counts for nothing. -/
theorem deadline_mild (consistent : registry.Consistent) (index : Fin capacity) (deadlineNs : ℕ) :
    Mild registry
      { registry.setSlot index { registry.slots index with deadlineNs := deadlineNs } with
        broadcast := true } :=
  ⟨consistent.flags rfl rfl rfl consistent.tokensBound
    { Counted.refl registry (registry.slots index) with } { consistent.sound index with } rfl rfl
    rfl Iff.rfl ⟨rfl, rfl, rfl, fun used => used⟩, .of_slot rfl rfl rfl rfl rfl⟩

/-- Nor does the request for another quantum. -/
theorem reschedule_mild (consistent : registry.Consistent)
    (index : Fin capacity) (runnable : Bool) :
    Mild registry
      (registry.setSlot index { registry.slots index with rescheduleRequested := runnable }) :=
  ⟨consistent.flags rfl rfl rfl consistent.tokensBound
    { Counted.refl registry (registry.slots index) with } { consistent.sound index with } rfl rfl
    rfl Iff.rfl ⟨rfl, rfl, rfl, fun used => used⟩, .of_slot rfl rfl rfl rfl rfl⟩

/-- There is room in the queue for a pooled slot that is not queued. -/
theorem Consistent.depth_lt (consistent : registry.Consistent)
    (pooled : (registry.slots index).pooled = true)
    (waiting : (registry.slots index).queued = false) :
    registry.runnableDepth < registry.queueCapacity := by
  have below : census BackendSlot.queued registry.slots < Fintype.card (Fin capacity) :=
    census_lt_card waiting
  rw [Fintype.card_fin, ← consistent.depth] at below
  exact lt_of_lt_of_le below (consistent.room (consistent.pooled index pooled))

/-- `enqueue_slot_locked` on a slot that has just been rewritten. -/
theorem enqueueSlot_set (waiting : slot.queued = false) (parked : slot.quantumRunning = false)
    (pooled : slot.pooled = true) (running : slot.state = .running)
    (room : registry.runnableDepth < registry.queueCapacity) :
    (registry.setSlot index slot).enqueueSlot index =
      .ok ((registry.setSlot index slot).enqueued index) := by
  simp [enqueueSlot, setSlot, waiting, parked, pooled, running, Nat.not_le.mpr room]

/-- Everything `schedule_slot_locked` can do. -/
theorem scheduleSlot_cases (consistent : registry.Consistent)
    (live : (registry.slots index).state = .starting ∨ (registry.slots index).state = .running) :
    (registry.slots index).scheduleEpoch = 2 ^ 64 - 1 ∧
        registry.scheduleSlot index = (registry, some .EOVERFLOW) ∨
      (registry.slots index).pooled = false ∧
        registry.scheduleSlot index =
          (registry.setSlot index { registry.slots index with
            scheduleEpoch := (registry.slots index).scheduleEpoch + 1 }, none) ∨
      (registry.slots index).pooled = true ∧ (registry.slots index).quantumRunning = true ∧
        registry.scheduleSlot index =
          (registry.setSlot index { registry.slots index with
            scheduleEpoch := (registry.slots index).scheduleEpoch + 1
            deadlineNs := 0, rescheduleRequested := true }, none) ∨
      (registry.slots index).pooled = true ∧ (registry.slots index).quantumRunning = false ∧
        (registry.slots index).queued = true ∧
        registry.scheduleSlot index =
          (registry.setSlot index { registry.slots index with
            scheduleEpoch := (registry.slots index).scheduleEpoch + 1, deadlineNs := 0 }, none) ∨
      (registry.slots index).pooled = true ∧ (registry.slots index).quantumRunning = false ∧
        (registry.slots index).queued = false ∧
        registry.scheduleSlot index =
          ((registry.setSlot index { registry.slots index with
            scheduleEpoch := (registry.slots index).scheduleEpoch + 1
            deadlineNs := 0 }).enqueued index, none) := by
  by_cases full : (registry.slots index).scheduleEpoch = 2 ^ 64 - 1
  · left
    exact ⟨full, if_pos full⟩
  unfold scheduleSlot
  dsimp only
  rw [if_neg full]
  rcases Bool.eq_false_or_eq_true (registry.slots index).pooled with pooled | pooled
  · have running : (registry.slots index).state = .running := by
      rcases live with starting | running
      · have := (consistent.sound index).starting starting
        rw [pooled] at this
        cases this
      · exact running
    right; right
    rw [if_neg (show ¬(registry.slots index).pooled = false by simp [pooled])]
    rcases Bool.eq_false_or_eq_true (registry.slots index).quantumRunning with quantum | parked
    · left
      exact ⟨pooled, quantum, if_pos quantum⟩
    · right
      rw [if_neg (show ¬(registry.slots index).quantumRunning = true by simp [parked])]
      rcases Bool.eq_false_or_eq_true (registry.slots index).queued with queued | waiting
      · left
        exact ⟨pooled, parked, queued, if_pos queued⟩
      · right
        rw [if_neg (show ¬(registry.slots index).queued = true by simp [waiting])]
        refine ⟨pooled, parked, waiting, ?_⟩
        rw [enqueueSlot_set ?_ ?_ ?_ ?_ (consistent.depth_lt pooled waiting)]
        · exact waiting
        · exact parked
        · exact pooled
        · exact running
  · right; left
    exact ⟨pooled, if_pos pooled⟩

/-- A parked slot is linked into the runnable list. -/
theorem enqueued_mild (consistent : registry.Consistent) (deadlineNs scheduleEpoch : ℕ)
    (waiting : (registry.slots index).queued = false)
    (parked : (registry.slots index).quantumRunning = false)
    (pooled : (registry.slots index).pooled = true)
    (running : (registry.slots index).state = .running) :
    Mild registry ((registry.setSlot index { registry.slots index with
      deadlineNs := deadlineNs, scheduleEpoch := scheduleEpoch }).enqueued index) := by
  have sound := consistent.sound index
  have free : (registry.slots index).executionTokenHeld = false := by
    rw [Bool.eq_false_iff]
    intro held
    rcases sound.token held with quantum | ⟨dedicated, -⟩
    · rw [parked] at quantum
      cases quantum
    · rw [pooled] at dedicated
      cases dedicated
  have slots : ((registry.setSlot index { registry.slots index with
      deadlineNs := deadlineNs, scheduleEpoch := scheduleEpoch }).enqueued index).slots =
      Function.update registry.slots index { registry.slots index with
        deadlineNs := deadlineNs, scheduleEpoch := scheduleEpoch, queued := true } := by
    simp [enqueued, setSlot]
  refine ⟨consistent.retain slots rfl rfl consistent.tokensBound
    { Counted.refl registry (registry.slots index) with depth := ?_ }
    { sound with queued := fun _ => ⟨running, pooled, parked, free⟩ } ?_ ?_
    ⟨rfl, rfl, rfl, fun used => used⟩, .of_slot slots rfl rfl rfl rfl⟩
  · rw [waiting]
    rfl
  · rw [slots]
    refine consistent.runnable.append (by simp [waiting]) fun place => ?_
    by_cases here : place = index
    · simp [here]
    · simp [here]
  · rw [slots]
    exact lists_update (fun slot => slot.state = .completed) consistent.completions Iff.rfl

theorem scheduleSlot_mild (consistent : registry.Consistent)
    (live : (registry.slots index).state = .starting ∨ (registry.slots index).state = .running) :
    Mild registry (registry.scheduleSlot index).1 := by
  have sound := consistent.sound index
  rcases scheduleSlot_cases consistent live with ⟨-, eq⟩ | ⟨-, eq⟩ | ⟨-, -, eq⟩ | ⟨-, -, -, eq⟩ |
    ⟨pooled, parked, waiting, eq⟩
  · rw [eq]
    exact consistent.mild
  · rw [eq]
    exact ⟨consistent.flags rfl rfl rfl consistent.tokensBound
      { Counted.refl registry (registry.slots index) with } { sound with } rfl rfl rfl
      Iff.rfl ⟨rfl, rfl, rfl, fun used => used⟩, .of_slot rfl rfl rfl rfl rfl⟩
  · rw [eq]
    exact ⟨consistent.flags rfl rfl rfl consistent.tokensBound
      { Counted.refl registry (registry.slots index) with } { sound with } rfl rfl rfl
      Iff.rfl ⟨rfl, rfl, rfl, fun used => used⟩, .of_slot rfl rfl rfl rfl rfl⟩
  · rw [eq]
    exact ⟨consistent.flags rfl rfl rfl consistent.tokensBound
      { Counted.refl registry (registry.slots index) with } { sound with } rfl rfl rfl
      Iff.rfl ⟨rfl, rfl, rfl, fun used => used⟩, .of_slot rfl rfl rfl rfl rfl⟩
  · have running : (registry.slots index).state = .running := by
      rcases live with starting | running
      · have := sound.starting starting
        rw [pooled] at this
        cases this
      · exact running
    rw [eq]
    exact enqueued_mild consistent _ _ waiting parked pooled running

theorem findRunningSlot_live {pid : ℕ}
    (found : registry.findRunningSlotByCompatPid pid = some index) :
    (registry.slots index).state = .starting ∨ (registry.slots index).state = .running := by
  have test := List.find?_some found
  simp only [Bool.and_eq_true, Bool.or_eq_true, decide_eq_true_eq] at test
  exact test.1

theorem sleeping_iff : sleeping slot = true ↔
    slot.pooled = true ∧ slot.state = .running ∧ slot.queued = false ∧
      slot.quantumRunning = false ∧ slot.deadlineNs ≠ 0 := by
  simp [sleeping, and_assoc]

/-- What `schedule_due_slots_locked` has done to the registry when it has come to some slot. -/
structure Due (before after : Registry capacity pool) : Prop where
  mild : Mild before after
  slots : ∀ index, after.slots index = before.slots index ∨
    sleeping (before.slots index) = true ∧ after.broadcast = true ∧
      after.slots index = { before.slots index with deadlineNs := 0, queued := true }
  tokens : after.executionTokensActive = before.executionTokensActive
  count : after.executionTokenCount = before.executionTokenCount

/-- A deadline is zero or not before the deadlines of some sleeping slots. -/
def Covers (deadline : ℕ) (slot : BackendSlot pool) : Prop :=
  sleeping slot = true → deadline ≠ 0 ∧ deadline ≤ slot.deadlineNs

theorem Due.refl (consistent : registry.Consistent) : Due registry registry :=
  ⟨consistent.mild, fun _ => .inl rfl, rfl, rfl⟩

/-- One turn of the loop: it does not abort, and no deadline covers less than before. -/
theorem scheduleDueStep_spec (due : Due before registry) (nowNs nextDeadline : ℕ)
    (fresh : registry.slots index = before.slots index) :
    ∃ after deadline, scheduleDueStep nowNs registry nextDeadline index = .ok (after, deadline) ∧
      Due before after ∧ (∀ other ≠ index, after.slots other = registry.slots other) ∧
      (∀ slot : BackendSlot pool, Covers nextDeadline slot → Covers deadline slot) ∧
      Covers deadline (after.slots index) := by
  have consistent := due.mild.consistent
  unfold scheduleDueStep
  dsimp only
  by_cases sleeps : sleeping (registry.slots index) = true
  · rw [if_neg (by simp [sleeps])]
    obtain ⟨pooled, running, waiting, parked, present⟩ := sleeping_iff.mp sleeps
    by_cases come : (registry.slots index).deadlineNs ≤ nowNs
    · rw [if_pos come, enqueueSlot_set ?_ ?_ ?_ ?_ (consistent.depth_lt pooled waiting)]
      · have mild := enqueued_mild consistent 0 (registry.slots index).scheduleEpoch waiting parked
          pooled running
        refine ⟨_, _, rfl, ⟨⟨mild.consistent, due.mild.gentle.trans mild.gentle⟩, fun other => ?_,
          due.tokens, due.count⟩, fun other apart => ?_, fun slot covers => covers, ?_⟩
        · by_cases here : other = index
          · right
            rw [here, ← fresh]
            exact ⟨sleeps, rfl, by simp [enqueued, setSlot]⟩
          · rcases due.slots other with same | ⟨slept, -, queued⟩
            · left
              rw [← same]
              simp [enqueued, setSlot, here]
            · right
              refine ⟨slept, rfl, ?_⟩
              rw [← queued]
              simp [enqueued, setSlot, here]
        · simp [enqueued, setSlot, apart]
        · intro slept
          simp [sleeping, enqueued, setSlot] at slept
      · exact waiting
      · exact parked
      · exact pooled
      · exact running
    · rw [if_neg come]
      by_cases earlier : nextDeadline = 0 ∨ (registry.slots index).deadlineNs < nextDeadline
      · rw [if_pos earlier]
        refine ⟨_, _, rfl, due, fun _ _ => rfl, fun slot covers slept => ?_, fun _ => ?_⟩
        · obtain ⟨given, below⟩ := covers slept
          refine ⟨present, ?_⟩
          omega
        · exact ⟨present, le_rfl⟩
      · rw [if_neg earlier]
        rw [not_or, Nat.not_lt] at earlier
        exact ⟨_, _, rfl, due, fun _ _ => rfl, fun slot covers => covers, fun _ => earlier⟩
  · rw [if_pos (by simpa using sleeps)]
    exact ⟨_, _, rfl, due, fun _ _ => rfl, fun slot covers => covers, fun slept => absurd slept sleeps⟩

/-- The loop over some slots: the deadline it ends with covers them all. -/
theorem scheduleDueLoop_spec {nowNs : ℕ} {indices : List (Fin capacity)} {nextDeadline : ℕ}
    (due : Due before registry) (distinct : indices.Nodup)
    (fresh : ∀ index ∈ indices, registry.slots index = before.slots index)
    (covered : ∀ index ∉ indices, Covers nextDeadline (registry.slots index)) :
    ∃ after deadline, scheduleDueLoop nowNs indices registry nextDeadline = .ok (after, deadline) ∧
      Due before after ∧ ∀ index, Covers deadline (after.slots index) := by
  induction indices generalizing registry nextDeadline with
  | nil => exact ⟨registry, nextDeadline, rfl, due, fun index => covered index (by simp)⟩
  | cons index rest induction =>
      rw [List.nodup_cons] at distinct
      obtain ⟨next, deadline, taken, due, same, keeps, covers⟩ :=
        scheduleDueStep_spec due nowNs nextDeadline (fresh index List.mem_cons_self)
      have step : scheduleDueLoop nowNs (index :: rest) registry nextDeadline =
          scheduleDueLoop nowNs rest next deadline := by
        rw [scheduleDueLoop, taken]
        rfl
      rw [step]
      refine induction due distinct.2 (fun other inside => ?_) fun other outside => ?_
      · have apart : other ≠ index := by
          rintro rfl
          exact distinct.1 inside
        rw [same other apart]
        exact fresh other (List.mem_cons_of_mem _ inside)
      · by_cases here : other = index
        · rw [here]
          exact covers
        · rw [same other here]
          exact keeps _ (covered other (by simp [here, outside]))

theorem scheduleDueSlots_spec (consistent : registry.Consistent) (nowNs : ℕ) :
    ∃ after deadline, registry.scheduleDueSlots nowNs = .ok (after, deadline) ∧
      Due registry after ∧ ∀ index, Covers deadline (after.slots index) :=
  scheduleDueLoop_spec (.refl consistent) (List.nodup_finRange capacity) (fun _ _ => rfl)
    fun index outside => absurd (List.mem_finRange index) outside

/-! ## Dequeue -/

/-- A queued slot that `dequeue_slot_for_worker_locked` may give to a worker. -/
def Takeable (registry : Registry capacity pool) (worker : Fin pool) (index : Fin capacity) : Prop :=
  (registry.slots index).assignedWorker = some worker ∨ registry.stealable index = true

/-- A slot of the runnable list with its predecessor. -/
def Placed (items : List (Fin capacity)) (place : Option (Fin capacity) × Fin capacity) : Prop :=
  ∃ front back, items = front ++ place.2 :: back ∧ place.1 = front.getLast?

/-- What the loop of `dequeue_slot_for_worker_locked` finds in a list. -/
structure Found (registry : Registry capacity pool) (worker : Fin pool)
    (items : List (Fin capacity)) (result : Option (Option (Fin capacity) × Fin capacity)) :
    Prop where
  taken : ∀ place, result = some place → Placed items place ∧ registry.Takeable worker place.2
  nothing : result = none → ∀ index ∈ items, ¬registry.Takeable worker index

theorem dequeueLoop_found {worker : Fin pool} {fuel : ℕ}
    {front rest : List (Fin capacity)} {steal : Option (Option (Fin capacity) × Fin capacity)}
    (path : Links.Path registry.runnable.next rest.head? rest) (enough : rest.length ≤ fuel)
    (taken : ∀ place, steal = some place →
      Placed (front ++ rest) place ∧ registry.Takeable worker place.2)
    (nothing : steal = none → ∀ index ∈ front, ¬registry.Takeable worker index) :
    Found registry worker (front ++ rest)
      (registry.dequeueLoop worker fuel front.getLast? rest.head? steal) := by
  induction rest generalizing front fuel steal with
  | nil =>
      have ends : registry.dequeueLoop worker fuel front.getLast? none steal = steal := by
        cases fuel <;> rfl
      rw [List.head?_nil, ends, List.append_nil]
      exact ⟨fun place found => by simpa using taken place found, nothing⟩
  | cons current rest induction =>
      cases fuel with
      | zero => simp at enough
      | succ fuel =>
          have placed : Placed (front ++ current :: rest) (front.getLast?, current) :=
            ⟨front, rest, rfl, rfl⟩
          rw [List.head?_cons, dequeueLoop]
          by_cases mine : (registry.slots current).assignedWorker = some worker
          · rw [if_pos mine]
            refine ⟨fun place found => ?_, fun none => by cases none⟩
            obtain rfl := Option.some.inj found
            exact ⟨placed, .inl mine⟩
          · have next : registry.runnable.next current = rest.head? := path.2.head_eq
            rw [if_neg mine, next]
            have split : front ++ current :: rest = (front ++ [current]) ++ rest := by simp
            have last : some current = (front ++ [current]).getLast? := by simp
            rw [split, last]
            refine induction (next ▸ path.2) (by simpa using enough) ?_ ?_
            · intro place found
              rw [← split]
              split at found
              · rename_i stolen
                obtain rfl := Option.some.inj found
                exact ⟨placed, .inr stolen.2⟩
              · exact taken place found
            · intro none index inside
              split at none
              · cases none
              · rename_i kept
                rcases List.mem_append.mp inside with before | here
                · exact nothing none index before
                · obtain rfl := List.mem_singleton.mp here
                  rintro (own | stolen)
                  · exact mine own
                  · exact kept ⟨none, stolen⟩

def dequeuedSlot (slot : BackendSlot pool) : BackendSlot pool :=
  { slot with queued := false, executionTokenHeld := true }

/-- The registry behind a dequeue. -/
def dequeued (registry : Registry capacity pool) (previous : Option (Fin capacity))
    (index : Fin capacity) : Registry capacity pool :=
  { registry.setSlot index (dequeuedSlot (registry.slots index)) with
    runnable := registry.runnable.remove previous index
    runnableDepth := registry.runnableDepth - 1
    executionTokensActive := registry.executionTokensActive + 1 }

/-- Everything `dequeue_slot_for_worker_locked` can do. -/
theorem dequeueSlotForWorker_cases (consistent : registry.Consistent) (worker : Fin pool) :
    registry.dequeueSlotForWorker worker = .ok (registry, none) ∧
        (registry.executionTokensActive < registry.executionTokenCount →
          ∀ index, (registry.slots index).queued = true → ¬registry.Takeable worker index) ∨
      ∃ previous index,
        registry.dequeueSlotForWorker worker = .ok (registry.dequeued previous index, some index) ∧
        registry.executionTokensActive < registry.executionTokenCount ∧
        (registry.slots index).queued = true ∧ registry.Takeable worker index ∧
        (registry.runnable.remove previous index).Lists fun place =>
          (registry.slots place).queued = true ∧ place ≠ index := by
  unfold dequeueSlotForWorker
  by_cases full : registry.executionTokenCount ≤ registry.executionTokensActive
  · rw [if_pos full]
    exact .inl ⟨rfl, fun free => absurd free (Nat.not_lt.mpr full)⟩
  · rw [if_neg full]
    obtain ⟨items, holds, listed⟩ := consistent.runnable
    have enough : items.length ≤ capacity := by
      simpa using holds.nodup.length_le_card
    have found : Found registry worker ([] ++ items)
        (registry.dequeueLoop worker capacity ([] : List (Fin capacity)).getLast? items.head? none) :=
      dequeueLoop_found (holds.head_eq ▸ holds.path) enough (fun _ none => by cases none)
        fun _ index inside => by cases inside
    rw [List.nil_append, List.getLast?_nil, ← holds.head_eq] at found
    rcases result : registry.dequeueLoop worker capacity none registry.runnable.head none with
      _ | ⟨previous, index⟩
    · refine .inl ⟨rfl, fun _ index queued => ?_⟩
      exact found.nothing result index ((listed index).mpr queued)
    · obtain ⟨⟨front, back, split, behind⟩, takeable⟩ := found.taken _ result
      subst split
      have queued := (listed index).mp (by simp)
      have free := ((consistent.sound index).queued queued).2.2.2
      refine .inr ⟨previous, index, ?_, Nat.lt_of_not_le full, queued, takeable, ?_⟩
      · have bound := Nat.lt_of_not_le full
        simp [removeRunnableSlot, unqueued, acquireExecutionToken, tokenTaken, setSlot, free, full,
          dequeued, dequeuedSlot, bind, Except.bind]
      · rw [show previous = front.getLast? from behind]
        exact Links.Lists.remove holds listed fun place => Iff.rfl

end Registry

end Postgamma.Runtime
