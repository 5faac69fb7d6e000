import Mathlib
import Postgamma.Runtime.RegistryMoves

/-!
# The pooled scheduler in every run

What the runnable list, the workers, the tokens and the counters of the registry come to in every
state that any threads can reach, and that no step aborts.
-/

namespace Postgamma.Runtime

variable {capacity pool : ℕ}

namespace System

theorem create_seated {config : ProviderConfig} (accepted : config.Accepted capacity pool) :
    (create config : System capacity pool).Seated := by
  refine
    { consistent := Registry.create_consistent accepted
      settled := rfl
      recorded := nofun
      carriers := fun carrier => ?_
      alone := fun carrier other start rival held => ?_
      launchers := fun id => trivial
      joiners := fun joiner => ?_
      joinersAlone := nofun
      unstarted := fun id _ => ⟨rfl, rfl⟩ }
  · cases carrier with
    | thread id => exact ⟨.inl rfl, nofun, nofun⟩
    | worker index =>
        refine ⟨⟨?_, ?_, ?_, rfl⟩, nofun, nofun⟩
        · simp [create, unstarted]
        · simp [create, unstarted]
        · simp [create, unstarted]
  · cases carrier <;> cases held
  · exact ⟨by simp [create], nofun, nofun,
      by simp [create]⟩

theorem Reachable.seated {config : ProviderConfig} (accepted : config.Accepted capacity pool)
    {system : System capacity pool} (reachable : Reachable config system) : system.Seated := by
  induction reachable with
  | create => exact create_seated accepted
  | step _ taken seated =>
      obtain ⟨result, outcome, moves⟩ := step_moves seated _
      rw [taken] at outcome
      exact (moves _ (Except.ok.inj outcome).symm).seated seated

variable {system after : System capacity pool}

theorem Reachable.move {config : ProviderConfig} (accepted : config.Accepted capacity pool)
    {action : Action pool}
    (reachable : Reachable config system) (taken : system.step action = .ok (some after)) :
    Move system after := by
  obtain ⟨result, outcome, moves⟩ := step_moves (reachable.seated accepted) action
  rw [taken] at outcome
  exact moves _ (Except.ok.inj outcome).symm

/-- A slot that a step does not issue. -/
def Kept (old new : BackendSlot pool) : Prop :=
  new.generation = old.generation ∧ (new.state ≠ .free → old.state ≠ .free)

theorem kept_update {before after : Registry capacity pool} {place : Fin capacity}
    {slot : BackendSlot pool} (slots : after.slots = Function.update before.slots place slot)
    (kept : Kept (before.slots place) slot) (index : Fin capacity) :
    Kept (before.slots index) (after.slots index) := by
  rw [slots]
  by_cases same : index = place
  · rw [same, Function.update_self]
    exact kept
  · rw [Function.update_of_ne same]
    exact ⟨rfl, fun used => used⟩

theorem kept_refl (slot : BackendSlot pool) : Kept slot slot := ⟨rfl, fun used => used⟩

theorem kept_gentle {before after : Registry capacity pool}
    (gentle : Registry.Gentle before after) (index : Fin capacity) :
    Kept (before.slots index) (after.slots index) := by
  have alike := Registry.alike_of_core (gentle.core index)
  exact ⟨alike.generation, fun used => alike.state ▸ used⟩

/-- What a step that records an execution makes of the generations. -/
structure Issue (before after : Registry capacity pool) (start : Start capacity) : Prop where
  handle : start.handle.id = Registry.makeBackendId start.index
    (Registry.followingGeneration (before.slots start.index).generation)
  generation : (after.slots start.index).generation =
    Registry.followingGeneration (before.slots start.index).generation
  others : ∀ index ≠ start.index, Kept (before.slots index) (after.slots index)

theorem issue_of_launched {before after : Registry capacity pool} {start : Start capacity}
    {slot : BackendSlot pool} (slots : after.slots = Function.update before.slots start.index slot)
    (handle : start.handle.id = Registry.makeBackendId start.index
      (Registry.followingGeneration (before.slots start.index).generation))
    (generation : slot.generation =
      Registry.followingGeneration (before.slots start.index).generation) :
    Issue before after start := by
  refine ⟨handle, ?_, fun index apart => ?_⟩
  · rw [slots, Function.update_self]
    exact generation
  · rw [slots, Function.update_of_ne apart]
    exact kept_refl _

/-- A step records an execution and issues its slot anew, or keeps the generations. -/
theorem Move.generation (seated : system.Seated) (move : Move system after) :
    (after.starts = system.starts ∧
        ∀ index, Kept (system.registry.slots index) (after.registry.slots index)) ∨
      ∃ start : Start capacity, after.starts = system.starts ++ [start] ∧
        start.id = system.starts.length ∧ Issue system.registry after.registry start := by
  cases move with
  | launchedPooled nextWorker free launched broadcast =>
      refine .inr ⟨_, rfl, rfl, issue_of_launched launched.slots ?_ rfl⟩
      rw [launched.slots, Function.update_self]
      rfl
  | launchFailed free launched broadcast =>
      exact .inr ⟨_, rfl, rfl, issue_of_launched launched.slots rfl rfl⟩
  | launchCreating token free launched tokens =>
      refine .inr ⟨_, rfl, rfl, issue_of_launched launched.slots ?_ rfl⟩
      rw [launched.slots, Function.update_self]
      rfl
  | created launcher => exact .inl ⟨rfl, fun _ => kept_refl _⟩
  | refused launcher => exact .inl ⟨rfl, fun _ => kept_refl _⟩
  | @publishedThread id start request launcher =>
      have unborn := ((seated.launchers id).unborn (by rw [launcher]; rfl)).1
      refine .inl ⟨rfl, kept_update (Registry.publishThread_slots ..) ⟨?_, fun _ => ?_⟩⟩
      · unfold Registry.publishedSlot
        split <;> rfl
      · simp [unborn.starting]
  | abandoned launcher =>
      refine .inl ⟨rfl, kept_update rfl ?_⟩
      exact ⟨rfl, fun used => absurd rfl used⟩
  | begun phase starting born =>
      refine .inl ⟨rfl, kept_update rfl ?_⟩
      exact ⟨rfl, fun _ => by simp [starting]⟩
  | begunRunning phase running => exact .inl ⟨rfl, fun _ => kept_refl _⟩
  | yielded phase =>
      refine .inl ⟨rfl, kept_update rfl ?_⟩
      exact ⟨rfl, fun used => used⟩
  | exited status phase =>
      have running := (seated.executing phase).1
      refine .inl ⟨rfl, kept_update rfl ?_⟩
      exact ⟨rfl, fun _ => by simp [running]⟩
  | woken phase => exact .inl ⟨rfl, fun _ => kept_refl _⟩
  | delivered phase =>
      refine .inl ⟨rfl, kept_update rfl ?_⟩
      exact ⟨rfl, fun used => used⟩
  | slept rests due covers nothing => exact .inl ⟨rfl, fun index => kept_gentle due.mild.gentle index⟩
  | @started worker registry previous place start rests due free queued listed record here =>
      refine .inl ⟨rfl, fun index => ?_⟩
      have first := kept_gentle due.mild.gentle index
      have begins : Kept (registry.slots place) (Registry.startedSlot (registry.slots place)) :=
        ⟨rfl, fun used => used⟩
      have second : Kept (registry.slots index)
          ((registry.quantumStarted worker previous place).slots index) :=
        kept_update rfl begins index
      exact ⟨second.1.trans first.1, fun used => first.2 (second.2 used)⟩
  | epochRead phase => exact .inl ⟨rfl, fun _ => kept_refl _⟩
  | prepared phase runnable current =>
      refine .inl ⟨rfl, kept_update rfl ?_⟩
      exact ⟨rfl, fun used => used⟩
  | scheduled live =>
      have gentle := (Registry.scheduleSlot_mild seated.consistent live).gentle
      exact .inl ⟨rfl, fun index => kept_gentle gentle index⟩
  | marked marked => exact .inl ⟨rfl, fun index => kept_gentle marked.mild.gentle index⟩
  | deadlineSet deadlineNs running =>
      refine .inl ⟨rfl, kept_update rfl ?_⟩
      exact ⟨rfl, fun used => used⟩
  | @popped place id head here =>
      have completed : (system.registry.slots place).state = .completed :=
        seated.consistent.completions.of_head head
      refine .inl ⟨rfl, kept_update rfl ?_⟩
      exact ⟨rfl, fun _ => by simp [completed]⟩
  | poppedNothing empty => exact .inl ⟨rfl, fun _ => kept_refl _⟩
  | claimed idle dequeued here =>
      refine .inl ⟨rfl, kept_update rfl ?_⟩
      exact ⟨rfl, fun _ => by simp [dequeued]⟩
  | joinedThread phase => exact .inl ⟨rfl, fun _ => kept_refl _⟩
  | waited phase delivered => exact .inl ⟨rfl, fun _ => kept_refl _⟩
  | rejoined phase =>
      refine .inl ⟨rfl, kept_update rfl ?_⟩
      exact ⟨rfl, fun used => absurd rfl used⟩

/-- The generation of a slot in use can be decoded from an id. -/
def Numbered (registry : Registry capacity pool) : Prop :=
  ∀ index, (registry.slots index).generation < 2 ^ 32 ∧
    ((registry.slots index).state ≠ .free → (registry.slots index).generation ≠ 0)

theorem followingGeneration_bounds (generation : ℕ) :
    Registry.followingGeneration generation < 2 ^ 32 ∧
      Registry.followingGeneration generation ≠ 0 := by
  unfold Registry.followingGeneration
  dsimp only
  split
  · decide
  · rename_i nonzero
    exact ⟨Nat.mod_lt _ (by decide), nonzero⟩

theorem Move.numbered (seated : system.Seated)
    (numbered : Numbered system.registry) (move : Move system after) : Numbered after.registry := by
  have stays {index : Fin capacity}
      (kept : Kept (system.registry.slots index) (after.registry.slots index)) :
      (after.registry.slots index).generation < 2 ^ 32 ∧
        ((after.registry.slots index).state ≠ .free →
          (after.registry.slots index).generation ≠ 0) := by
    rw [kept.1]
    exact ⟨(numbered index).1, fun now => (numbered index).2 (kept.2 now)⟩
  intro index
  rcases move.generation seated with ⟨-, kept⟩ | ⟨start, -, -, issue⟩
  · exact stays (kept index)
  · by_cases here : index = start.index
    · rw [here, issue.generation]
      exact ⟨(followingGeneration_bounds _).1, fun _ => (followingGeneration_bounds _).2⟩
    · exact stays (issue.others index here)

theorem Reachable.numbered {config : ProviderConfig} (accepted : config.Accepted capacity pool)
    (reachable : Reachable config system) :
    Numbered system.registry := by
  induction reachable with
  | create => exact fun index => ⟨Nat.two_pow_pos 32, fun used => absurd rfl used⟩
  | step before taken numbered =>
      exact (before.move accepted taken).numbered (before.seated accepted) numbered

/-- The id of a slot in use is decoded to the slot and its generation. -/
theorem decode_issued {registry : Registry capacity pool} (consistent : registry.Consistent)
    (numbered : Numbered registry) {index : Fin capacity}
    (used : (registry.slots index).state ≠ .free) :
    Registry.decodeBackendId (registry.slots index).handle.id =
      some ((index : ℕ), (registry.slots index).generation) := by
  obtain ⟨below, nonzero⟩ := numbered index
  have positive := nonzero used
  have inside : (index : ℕ) + 1 < 2 ^ 32 := lt_of_le_of_lt index.isLt consistent.bounded
  rw [consistent.issued index used, Registry.makeBackendId]
  generalize (registry.slots index).generation = generation at below positive
  have slot : (generation * 2 ^ 32 + (index + 1)) % 2 ^ 32 = index + 1 := by omega
  have number : (generation * 2 ^ 32 + (index + 1)) / 2 ^ 32 % 2 ^ 32 = generation := by omega
  unfold Registry.decodeBackendId
  dsimp only
  rw [slot, number, if_neg (by omega), Nat.add_sub_cancel]

/-- The running execution of a slot is found under its id. -/
theorem runningSlot_issued {registry : Registry capacity pool} (consistent : registry.Consistent)
    (numbered : Numbered registry) {index : Fin capacity}
    (running : (registry.slots index).state = .running) :
    registry.runningSlot (registry.slots index).handle.id = .ok index := by
  unfold Registry.runningSlot
  rw [decode_issued consistent numbered (by simp [running])]
  simp [running]

/-- The pooled scheduler's bookkeeping is right. -/
structure Scheduled (system : System capacity pool) : Prop where
  /-- The runnable list holds the queued slots, each once, with their number and its tail. -/
  runnable : ∃ items, Links.Path system.registry.runnable.next system.registry.runnable.head items ∧
    items.Nodup ∧ (∀ index, index ∈ items ↔ (system.registry.slots index).queued = true) ∧
    system.registry.runnableDepth = items.length ∧
    system.registry.runnable.tail = items.getLast?
  /-- No slot has two workers; that no worker has two slots is in the phase of a worker. -/
  oneWorker : ∀ worker other start rival epochs later,
    system.carriers (.worker worker) = .executing start epochs →
    system.carriers (.worker other) = .executing rival later → start.index = rival.index →
    worker = other
  /-- A queued slot is not running, by its flag and by the phases of the workers. -/
  queued : ∀ index, (system.registry.slots index).queued = true →
    (system.registry.slots index).quantumRunning = false ∧
      ∀ carrier start epochs, system.carriers carrier = .executing start epochs →
        start.index ≠ index
  tokens : system.registry.executionTokensActive =
    (Finset.univ.filter fun index =>
      (system.registry.slots index).executionTokenHeld = true).card
  tokensBound : system.registry.executionTokensActive ≤ system.registry.executionTokenCount
  quantums : system.registry.runningQuantums =
    (Finset.univ.filter fun index => (system.registry.slots index).quantumRunning = true).card
  active : system.registry.activeCount =
    (Finset.univ.filter fun index => (system.registry.slots index).state ≠ .free).card
  pinned : system.registry.pinnedSessions =
    (Finset.univ.filter fun index => (system.registry.slots index).pinned = true).card
  blocked : system.registry.blockedSessions =
    (Finset.univ.filter fun index => (system.registry.slots index).blocked = true).card
  pids : ∀ index other, (system.registry.slots index).state ≠ .free →
    (system.registry.slots other).state ≠ .free →
    (system.registry.slots index).handle.compatPid =
      (system.registry.slots other).handle.compatPid → index = other

theorem Seated.scheduled {system : System capacity pool} (seated : system.Seated) :
    system.Scheduled := by
  have consistent := seated.consistent
  refine
    { runnable := ?_
      oneWorker := ?_
      queued := fun index queued => ⟨((consistent.sound index).queued queued).2.2.1, ?_⟩
      tokens := consistent.tokens.trans (census_eq_card _ _)
      tokensBound := consistent.tokensBound
      quantums := consistent.quantums.trans (census_eq_card _ _)
      active := consistent.active.trans ?_
      pinned := consistent.pinned.trans (census_eq_card _ _)
      blocked := consistent.blocked.trans (census_eq_card _ _)
      pids := consistent.pids }
  · obtain ⟨items, holds, listed⟩ := consistent.runnable
    refine ⟨items, holds.path, holds.nodup, listed, ?_, holds.last⟩
    rw [consistent.depth, length_eq_census holds.nodup listed]
  · intro worker other start rival epochs later first second same
    have held := seated.alone (.worker worker) (.worker other) start rival (by rw [first]; rfl)
      (by rw [second]; rfl) same
    exact Carrier.worker.inj held
  · intro carrier start epochs phase
    exact seated.queued_vacant queued carrier start (by rw [phase]; rfl)
  · rw [census_eq_card]
    simp [BackendSlot.active]

/-- In every state that any interleaving of launches, schedules, signals, deadlines, yields, worker
steps, exits, pops and joins reaches, the scheduler's bookkeeping is right, and no step from there
aborts. -/
theorem scheduler_invariant {config : ProviderConfig} (accepted : config.Accepted capacity pool)
    {system : System capacity pool} (reachable : Reachable config system) :
    system.Scheduled ∧ ∀ action abort, system.step action ≠ .error abort := by
  have seated := reachable.seated accepted
  refine ⟨seated.scheduled, fun action abort aborts => ?_⟩
  obtain ⟨result, outcome, -⟩ := step_moves seated action
  rw [aborts] at outcome
  cases outcome

/-- Take some steps in a row. -/
def run (system : System capacity pool) : List (Action pool) → Option (System capacity pool)
  | [] => some system
  | action :: rest =>
      match system.step action with
      | .ok (some after) => after.run rest
      | _ => none

theorem Reachable.run {config : ProviderConfig}
    {actions : List (Action pool)} (reachable : Reachable config system)
    (runs : system.run actions = some after) : Reachable config after := by
  induction actions generalizing system with
  | nil =>
      obtain rfl := Option.some.inj runs
      exact reachable
  | cons action rest induction =>
      rw [System.run] at runs
      split at runs
      · rename_i next taken
        exact induction (reachable.step taken) runs
      · cases runs

/-- Two slots, two workers and two execution tokens. -/
def pairConfig : ProviderConfig :=
  { kind := .pooled, queueCapacity := 2, executionTokenCount := 2 }

def clientRequest : Registry.LaunchRequest :=
  { backendType := 0, executionClass := .client, asynchronous := false }

theorem pairConfig_accepted : pairConfig.Accepted 2 2 := by
  refine ⟨by decide, by decide, ?_, ?_⟩
  · intro kind
    cases kind
  · intro _
    decide

def firstSlot : Fin 2 := 0

def firstWorker : Fin 2 := 0

def secondWorker : Fin 2 := 1

/-- Two clients are launched, a worker runs one, is woken and yields. -/
def clientRun : List (Action 2) :=
  [.launch clientRequest, .launch clientRequest, .runWorker firstWorker 1,
    .wakeByCompatPid 1000000000, .complete (.worker firstWorker) { kind := .yield, code := 0 } 0]

theorem scheduler_invariant_clientRun :
    ∃ system, (create pairConfig : System 2 2).run clientRun = some system ∧
      system.registry.runnableDepth = 2 ∧ system.Scheduled ∧
        ∀ action abort, system.step action ≠ .error abort := by
  have depth : ((create pairConfig : System 2 2).run clientRun).map
      (fun system => system.registry.runnableDepth) = some 2 := by decide
  obtain ⟨system, runs, deep⟩ := Option.map_eq_some_iff.mp depth
  exact ⟨system, runs, deep, scheduler_invariant pairConfig_accepted (Reachable.create.run runs)⟩

end System

end Postgamma.Runtime
