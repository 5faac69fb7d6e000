import Mathlib
import Postgamma.Runtime.RegistrySeats

/-!
# Everything a step can do

`Move` lists what the steps of the threads do to a system in which every thread can rely on its
slot.  A step is one of these moves and never aborts, and every move keeps the threads seated; what
holds in every reachable state is then proved by cases on the moves.
-/

namespace Postgamma.Runtime

variable {capacity pool : ℕ}

namespace Registry

/-- A critical section that changes pins and blocks only. -/
structure Marked (before after : Registry capacity pool) : Prop where
  mild : Mild before after
  slots : ∀ index, ∃ pinned blocked, after.slots index =
    { before.slots index with pinned := pinned, blocked := blocked }
  tokens : after.executionTokensActive = before.executionTokensActive
  count : after.executionTokenCount = before.executionTokenCount

end Registry

namespace System

/-- What the steps of the threads can do. -/
inductive Move (system : System capacity pool) : System capacity pool → Prop
  | launchedPooled {registry : Registry capacity pool} {index : Fin capacity} {pid : ℕ}
      {request : Registry.LaunchRequest} (nextWorker : ℕ)
      (free : (system.registry.slots index).state = .free)
      (launched : Registry.Launched system.registry registry index
        (Registry.pooledSlot (Registry.launchedSlot (system.registry.slots index) index pid
          system.starts.length request) nextWorker))
      (broadcast : registry.broadcast = true) :
      Move system
        { (system.recorded { id := system.starts.length, index := index
                             handle := (registry.slots index).handle }).unlock registry with
          launched := system.launched ++ [system.starts.length] }
  | launchFailed {registry : Registry capacity pool} {index : Fin capacity} {pid : ℕ}
      {request : Registry.LaunchRequest}
      (free : (system.registry.slots index).state = .free)
      (launched : Registry.Launched system.registry registry index
        (Registry.failedSlot (Registry.launchedSlot (system.registry.slots index) index pid
          system.starts.length request)))
      (broadcast : registry.broadcast = true) :
      Move system
        { (system.recorded { id := system.starts.length, index := index
                             handle := (Registry.launchedSlot (system.registry.slots index) index
                               pid system.starts.length request).handle }).unlock registry with
          freed := system.freed ++ [system.starts.length] }
  | launchCreating {registry : Registry capacity pool} {index : Fin capacity} {pid : ℕ}
      {request : Registry.LaunchRequest} (token : Bool)
      (free : (system.registry.slots index).state = .free)
      (launched : Registry.Launched system.registry registry index
        (Registry.startingSlot (Registry.launchedSlot (system.registry.slots index) index pid
          system.starts.length request) token))
      (tokens : registry.executionTokensActive =
        system.registry.executionTokensActive + token.toNat) :
      Move system
        (((system.recorded { id := system.starts.length, index := index
                             handle := (registry.slots index).handle }).unlock
          registry).moveLauncher system.starts.length
            (.creating { id := system.starts.length, index := index
                         handle := (registry.slots index).handle } request))
  | created {id : ℕ} {start : Start capacity} {request : Registry.LaunchRequest}
      (launcher : system.launchers id = .creating start request) :
      Move system
        ((system.moveLauncher id (.created start request)).move (.thread id) (.born start))
  | refused {id : ℕ} {start : Start capacity} {request : Registry.LaunchRequest}
      (launcher : system.launchers id = .creating start request) :
      Move system (system.moveLauncher id (.refused start))
  | publishedThread {id : ℕ} {start : Start capacity} {request : Registry.LaunchRequest}
      (launcher : system.launchers id = .created start request) :
      Move system
        { (system.unlock (system.registry.publishThread start.index request)).moveLauncher id
            .idle with
          launched := system.launched ++ [id] }
  | abandoned {id : ℕ} {start : Start capacity} (launcher : system.launchers id = .refused start) :
      Move system
        { (system.unlock (system.registry.abandoned start.index)).moveLauncher id .idle with
          freed := system.freed ++ [id] }
  | begun {id : ℕ} {start : Start capacity} (phase : system.carriers (.thread id) = .born start)
      (starting : (system.registry.slots start.index).state = .starting)
      (born : (system.registry.slots start.index).thread = true) :
      Move system
        ((system.unlock (system.registry.begun start.index)).move (.thread id)
          (.executing start []))
  | begunRunning {id : ℕ} {start : Start capacity}
      (phase : system.carriers (.thread id) = .born start)
      (running : (system.registry.slots start.index).state = .running) :
      Move system ((system.unlock system.registry).move (.thread id) (.executing start []))
  | yielded {worker : Fin pool} {start : Start capacity} {epochs : List ℕ}
      (phase : system.carriers (.worker worker) = .executing start epochs) :
      Move system
        ((system.unlock (system.registry.yielded worker start.index)).move (.worker worker) .idle)
  | exited {carrier : Carrier pool} {start : Start capacity} {epochs : List ℕ}
      (status : ExitStatus) (phase : system.carriers carrier = .executing start epochs) :
      Move system
        { (system.unlock (system.registry.exited start.index status
            (workerOf carrier))).move carrier (.published start) with
          queued :=
            system.queued ++ [(start.id, { handle := start.handle, exitStatus := status })] }
  | woken {carrier : Carrier pool} {start : Start capacity}
      (phase : system.carriers carrier = .published start) :
      Move system
        { system.move carrier (.woken start) with
          registry := { system.registry with wakeSignalled := true } }
  | delivered {carrier : Carrier pool} {start : Start capacity}
      (phase : system.carriers carrier = .woken start) :
      Move system
        ((system.unlock (system.registry.deliveredRegistry start.index)).move carrier
          (released carrier))
  | slept {worker : Fin pool} {registry : Registry capacity pool} {deadline : ℕ}
      (resting : resting (system.carriers (.worker worker)) = true)
      (due : Registry.Due system.registry registry)
      (covers : ∀ index, Registry.Covers deadline (registry.slots index))
      (nothing : registry.executionTokensActive < registry.executionTokenCount →
        ∀ index, (registry.slots index).queued = true → ¬registry.Takeable worker index) :
      Move system ((system.unlock registry).move (.worker worker) (.asleep deadline false))
  | started {worker : Fin pool} {registry : Registry capacity pool}
      {previous : Option (Fin capacity)} {index : Fin capacity} {start : Start capacity}
      (resting : resting (system.carriers (.worker worker)) = true)
      (due : Registry.Due system.registry registry)
      (free : registry.executionTokensActive < registry.executionTokenCount)
      (queued : (registry.slots index).queued = true)
      (listed : (registry.runnable.remove previous index).Lists fun place =>
        (registry.slots place).queued = true ∧ place ≠ index)
      (record : start =
        { id := start.id, index := index, handle := (system.registry.slots index).handle })
      (here : (system.registry.slots index).start = some start.id) :
      Move system
        { (system.unlock (registry.quantumStarted worker previous index)).move (.worker worker)
            (.executing start []) with
          startedEpoch := Function.update system.startedEpoch start.id
            (registry.slots index).scheduleEpoch
          seenEpoch := Function.update system.seenEpoch start.id
            (registry.slots index).scheduleEpoch }
  | epochRead {carrier : Carrier pool} {start : Start capacity} {epochs : List ℕ}
      (phase : system.carriers carrier = .executing start epochs) :
      Move system
        { system.move carrier (.executing start
            ((system.registry.slots start.index).scheduleEpoch :: epochs)) with
          seenEpoch := Function.update system.seenEpoch start.id
            (system.registry.slots start.index).scheduleEpoch }
  | prepared {carrier : Carrier pool} {start : Start capacity} {epochs : List ℕ}
      (phase : system.carriers carrier = .executing start epochs) (runnable : Bool)
      (current : (system.registry.slots start.index).scheduleEpoch ∈ epochs) :
      Move system
        (system.unlock (system.registry.setSlot start.index
          { system.registry.slots start.index with rescheduleRequested := runnable }))
  | scheduled {index : Fin capacity}
      (live : (system.registry.slots index).state = .starting ∨
        (system.registry.slots index).state = .running) :
      Move system (system.unlock (system.registry.scheduleSlot index).1)
  | marked {registry : Registry capacity pool}
      (marked : Registry.Marked system.registry registry) : Move system (system.unlock registry)
  | deadlineSet {index : Fin capacity} (deadlineNs : ℕ)
      (running : (system.registry.slots index).state = .running) :
      Move system
        (system.unlock
          { system.registry.setSlot index
              { system.registry.slots index with deadlineNs := deadlineNs } with
            broadcast := true })
  | popped {index : Fin capacity} {id : ℕ}
      (head : system.registry.completions.head = some index)
      (here : (system.registry.slots index).start = some id) :
      Move system
        { system.unlock (system.registry.popped index) with
          delivered :=
            system.delivered ++ [(id, (system.registry.slots index).completion)] }
  | poppedNothing (empty : system.registry.completions.head = none) :
      Move system (system.unlock { system.registry with wakeSignalled := false })
  | claimed {joiner : ℕ} {index : Fin capacity} {id : ℕ}
      (idle : system.joiners joiner = .idle)
      (dequeued : (system.registry.slots index).state = .dequeued)
      (here : (system.registry.slots index).start = some id) :
      Move system
        ((system.unlock (system.registry.setSlot index
          { system.registry.slots index with state := .joining })).moveJoiner joiner
            (.claimed index id))
  | joinedThread {joiner : ℕ} {index : Fin capacity} {id : ℕ}
      (phase : system.joiners joiner = .claimed index id) :
      Move system (system.moveJoiner joiner (.joined index id))
  | waited {joiner : ℕ} {index : Fin capacity} {id : ℕ}
      (phase : system.joiners joiner = .joined index id)
      (delivered : (system.registry.slots index).completionDeliveryComplete = true) :
      Move system (system.moveJoiner joiner (.destroying index id))
  | rejoined {joiner : ℕ} {index : Fin capacity} {id : ℕ}
      (phase : system.joiners joiner = .destroying index id) :
      Move system
        { (system.unlock (system.registry.rejoined index)).moveJoiner joiner .idle with
          joined := system.joined ++ [id]
          freed := system.freed ++ [id] }

/-- A step that does not abort and is one of the moves. -/
def Moves (system : System capacity pool) (outcome : Except Abort (Option (System capacity pool))) :
    Prop :=
  ∃ result, outcome = .ok result ∧ ∀ after, result = some after → Move system after

theorem moves_none (system : System capacity pool) : system.Moves (.ok none) :=
  ⟨none, rfl, fun _ none => by cases none⟩

theorem moves_some {system after : System capacity pool} (move : Move system after) :
    system.Moves (.ok (some after)) := by
  refine ⟨some after, rfl, fun next same => ?_⟩
  obtain rfl := Option.some.inj same
  exact move

section Steps

variable {system : System capacity pool}

theorem moves_launch (seated : system.Seated) (request : Registry.LaunchRequest) :
    system.Moves (.ok (system.launch request)) := by
  unfold launch
  split
  · exact moves_none system
  · rename_i middle index reserved
    obtain ⟨pid, next, free, fresh, rfl⟩ := Registry.launchSlot_spec reserved
    have result := @Registry.providerLaunch_case _ _ _ _ _ system.starts.length next request
      seated.consistent free fresh
    have handle : ((system.registry.reserved index (Registry.launchedSlot
        (system.registry.slots index) index pid system.starts.length request) next).slots
        index).handle = (Registry.launchedSlot (system.registry.slots index) index pid
          system.starts.length request).handle := by
      simp [Registry.reserved, Registry.setSlot]
    dsimp only
    rw [handle]
    generalize Registry.providerLaunch _ index request = launching at result ⊢
    cases result with
    | pooled nextWorker launched broadcast =>
        have move := Move.launchedPooled nextWorker free launched broadcast
        rw [launched.slots, Function.update_self] at move
        exact moves_some move
    | failed launched broadcast => exact moves_some (.launchFailed free launched broadcast)
    | creating token launched tokens =>
        have move := Move.launchCreating token free launched tokens
        rw [launched.slots, Function.update_self] at move
        exact moves_some move

theorem moves_createThread (id : ℕ) (success : Bool) :
    system.Moves (.ok (system.createThread id success)) := by
  unfold createThread
  split
  · rename_i launcher
    split
    · exact moves_some (.created launcher)
    · exact moves_some (.refused launcher)
  · exact moves_none system

theorem moves_finishLaunch (seated : system.Seated) (id : ℕ) :
    system.Moves (system.finishLaunch id) := by
  unfold finishLaunch
  split
  · rename_i launcher
    exact moves_some (.publishedThread launcher)
  · rename_i start launcher
    rw [Registry.abandonLaunch_eq seated.consistent start.index]
    exact moves_some (.abandoned launcher)
  · exact moves_none system

theorem moves_beginThread (seated : system.Seated) (id : ℕ) :
    system.Moves (system.beginThread id) := by
  unfold beginThread
  split
  · rename_i start phase
    have fits := seated.carriers (.thread id)
    rw [phase] at fits
    rcases Registry.beginThread_cases (fits.owns start rfl).record (fits.stands start rfl).2 with
      waits | ⟨starting, born, begins⟩ | ⟨running, begins⟩
    · rw [waits]
      exact moves_none system
    · rw [begins]
      exact moves_some (.begun phase starting born)
    · rw [begins]
      exact moves_some (.begunRunning phase running)
  · exact moves_none system

theorem exitStatus_worker {worker : Option (Fin pool)} {returned : ExitStatus} {cleanup : ℤ}
    (yields : (exitStatus worker returned cleanup).kind = .yield) : worker ≠ none := by
  rintro rfl
  by_cases asked : returned.kind = .yield <;> by_cases clean : cleanup = 0 <;>
    simp [exitStatus, asked, clean] at yields

/-- A carrier that runs a main function is counted for its slot. -/
theorem Seated.executing (seated : system.Seated) {carrier : Carrier pool}
    {start : Start capacity} {epochs : List ℕ}
    (phase : system.carriers carrier = .executing start epochs) :
    (system.registry.slots start.index).state = .running ∧
      (system.registry.slots start.index).carried = true ∧
      (system.registry.slots start.index).quantumRunning = carrier.pooled ∧
      start.Owns (system.registry.slots start.index) := by
  have fits := seated.carriers carrier
  rw [phase] at fits
  obtain ⟨running, pooled, quantum⟩ := fits.stands start rfl
  refine ⟨running, ?_, quantum, fits.owns start rfl⟩
  have sound := seated.consistent.sound start.index
  cases carrier with
  | thread id =>
      have thread := sound.thread pooled (by simp [running]) (by simp [running])
      simp [BackendSlot.carried, thread, running, show _ = false from pooled]
  | worker worker => simp [BackendSlot.carried, show _ = true from quantum]

theorem moves_complete (seated : system.Seated) (carrier : Carrier pool) (returned : ExitStatus)
    (cleanup : ℤ) : system.Moves (system.complete carrier returned cleanup) := by
  unfold complete
  split
  · rename_i start epochs phase
    obtain ⟨running, carried, quantum, owns⟩ := seated.executing phase
    have same : (system.registry.slots start.index).handle.id = start.handle.id := by
      rw [owns.handle]
    dsimp only
    generalize chosen : exitStatus (workerOf carrier) returned cleanup = status
    by_cases yields : status.kind = .yield
    · cases carrier with
      | thread id => exact absurd rfl (exitStatus_worker (chosen ▸ yields))
      | worker worker =>
          have done : system.registry.completeExecution start.index start.handle status
              (workerOf (.worker worker)) = .ok (system.registry.yielded worker start.index) :=
            Registry.completeExecution_yield seated.consistent quantum same yields
          rw [done, except_ok_bind, if_pos yields]
          exact moves_some (.yielded phase)
    · have by_worker : workerOf carrier ≠ none ↔
          (system.registry.slots start.index).quantumRunning = true := by
        rw [quantum]
        cases carrier <;> simp [workerOf, Carrier.pooled]
      rw [Registry.completeExecution_exit seated.consistent running carried by_worker same yields,
        except_ok_bind, if_neg yields]
      exact moves_some (.exited status phase)
  · exact moves_none system

theorem moves_wake (carrier : Carrier pool) : system.Moves (.ok (system.wake carrier)) := by
  unfold wake
  split
  · rename_i phase
    exact moves_some (.woken phase)
  · exact moves_none system

theorem moves_deliver (seated : system.Seated) (carrier : Carrier pool) :
    system.Moves (system.deliver carrier) := by
  unfold deliver
  split
  · rename_i start phase
    have fits := seated.carriers carrier
    rw [phase] at fits
    obtain ⟨ended, undelivered, -⟩ := fits.stands start rfl
    rw [Registry.deliverCompletion_eq (fits.owns start rfl).record ended undelivered]
    exact moves_some (.delivered phase)
  · exact moves_none system

/-- The system behind a worker that goes to sleep. -/
def asleepSystem (system : System capacity pool) (worker : Fin pool)
    (registry : Registry capacity pool) (deadline : ℕ) : System capacity pool :=
  (system.unlock registry).move (.worker worker) (.asleep deadline false)

/-- The system behind a worker that has started a quantum. -/
def startedSystem (system : System capacity pool) (worker : Fin pool)
    (registry : Registry capacity pool) (previous : Option (Fin capacity)) (index : Fin capacity)
    (start : Start capacity) : System capacity pool :=
  { (system.unlock (registry.quantumStarted worker previous index)).move (.worker worker)
      (.executing start []) with
    startedEpoch := Function.update system.startedEpoch start.id
      (registry.slots index).scheduleEpoch
    seenEpoch := Function.update system.seenEpoch start.id
      (registry.slots index).scheduleEpoch }

/-- Everything a worker can do behind the deadlines that have come. -/
theorem runWorker_cases (seated : system.Seated) {worker : Fin pool} (nowNs : ℕ)
    (rests : resting (system.carriers (.worker worker)) = true) :
    ∃ registry deadline, system.registry.scheduleDueSlots nowNs = .ok (registry, deadline) ∧
      Registry.Due system.registry registry ∧
      (∀ index, Registry.Covers deadline (registry.slots index)) ∧
      (system.runWorker worker nowNs =
          .ok (some (system.asleepSystem worker registry deadline)) ∧
          (registry.executionTokensActive < registry.executionTokenCount →
            ∀ index, (registry.slots index).queued = true → ¬registry.Takeable worker index) ∨
        ∃ previous index start,
          system.runWorker worker nowNs =
            .ok (some (system.startedSystem worker registry previous index start)) ∧
          registry.dequeueSlotForWorker worker =
            .ok (registry.dequeued previous index, some index) ∧
          registry.executionTokensActive < registry.executionTokenCount ∧
          (registry.slots index).queued = true ∧
          ((registry.runnable.remove previous index).Lists fun place =>
            (registry.slots place).queued = true ∧ place ≠ index) ∧
          start =
            { id := start.id, index := index, handle := (system.registry.slots index).handle } ∧
          (system.registry.slots index).start = some start.id) := by
  obtain ⟨registry, deadline, scheduled, due, covers⟩ :=
    Registry.scheduleDueSlots_spec seated.consistent nowNs
  refine ⟨registry, deadline, scheduled, due, covers, ?_⟩
  unfold runWorker
  rw [if_neg (by simp [rests]), scheduled, except_ok_bind]
  rcases Registry.dequeueSlotForWorker_cases due.mild.consistent worker with
    ⟨nothing, none⟩ | ⟨previous, index, found, free, queued, -, listed⟩
  · dsimp only
    rw [nothing, except_ok_bind]
    exact .inl ⟨rfl, none⟩
  · dsimp only
    rw [found, except_ok_bind]
    have alike := Registry.alike_of_core (due.mild.gentle.core index)
    have running := ((due.mild.consistent.sound index).queued queued).1
    obtain ⟨id, here⟩ : ∃ id, (system.registry.slots index).start = some id := by
      rw [← alike.start]
      refine Option.ne_none_iff_exists'.mp fun missing => ?_
      rw [(due.mild.consistent.sound index).start, running] at missing
      cases missing
    have record : system.startRecord index =
        some { id := id, index := index, handle := (system.registry.slots index).handle } := by
      simp only [startRecord, here, Option.bind_eq_bind, Option.bind_some]
      exact seated.recorded index id here
    have epoch : ((registry.quantumStarted worker previous index).slots index).scheduleEpoch =
        (registry.slots index).scheduleEpoch := by
      simp [Registry.quantumStarted, Registry.setSlot, Registry.startedSlot]
    dsimp only
    rw [startQuantum, Registry.startQuantum_eq due.mild.consistent worker previous queued,
      except_ok_bind, record, epoch]
    exact .inr ⟨previous, index, _, rfl, rfl, free, queued, listed, rfl, here⟩

theorem moves_runWorker (seated : system.Seated) (worker : Fin pool) (nowNs : ℕ) :
    system.Moves (system.runWorker worker nowNs) := by
  rcases Bool.eq_false_or_eq_true (resting (system.carriers (.worker worker))) with rests | busy
  · obtain ⟨registry, deadline, -, due, covers, sleeps | starts⟩ := runWorker_cases seated nowNs rests
    · rw [sleeps.1]
      exact moves_some (.slept rests due covers sleeps.2)
    · obtain ⟨previous, index, start, ran, -, free, queued, listed, record, here⟩ := starts
      rw [ran]
      exact moves_some (.started rests due free queued listed record here)
  · unfold runWorker
    rw [if_pos busy]
    exact moves_none system

/-- The slot that a running main function finds under its own id is its own. -/
theorem Seated.quantumSlot_eq (seated : system.Seated) {carrier : Carrier pool}
    {start : Start capacity} {epochs : List ℕ}
    (phase : system.carriers carrier = .executing start epochs) {index : Fin capacity}
    (found : system.registry.quantumSlot start.handle.id = .ok index) : index = start.index := by
  unfold Registry.quantumSlot at found
  obtain ⟨place, running, found⟩ := except_bind_eq_ok.mp found
  obtain ⟨-, found⟩ := except_check_eq_ok.mp found
  obtain rfl := Except.ok.inj found
  obtain ⟨state, id⟩ := Registry.runningSlot_running running
  obtain ⟨own, -, -, owns⟩ := seated.executing phase
  refine seated.consistent.same_id (by simp [state]) (by simp [own]) ?_
  rw [id, owns.handle]

theorem moves_scheduleEpoch (seated : system.Seated) (carrier : Carrier pool) :
    system.Moves (.ok (system.scheduleEpoch carrier)) := by
  unfold scheduleEpoch
  split
  · rename_i start epochs phase
    split
    · exact moves_none system
    · rename_i epoch read
      obtain ⟨index, found, read⟩ := except_bind_eq_ok.mp read
      obtain rfl := Except.ok.inj read
      rw [seated.quantumSlot_eq phase found]
      exact moves_some (.epochRead phase)
  · exact moves_none system

theorem moves_prepareYield (seated : system.Seated) (carrier : Carrier pool) (observed : ℕ)
    (runnable : Bool) : system.Moves (.ok (system.prepareYield carrier observed runnable)) := by
  unfold prepareYield
  split
  · rename_i start epochs phase
    split
    · rename_i member
      split
      · exact moves_none system
      · rename_i registry done
        obtain ⟨index, found, done⟩ := except_bind_eq_ok.mp done
        obtain ⟨current, done⟩ := except_check_eq_ok.mp done
        obtain rfl := Except.ok.inj done
        obtain rfl := seated.quantumSlot_eq phase found
        rw [not_not] at current
        exact moves_some (.prepared phase runnable (current ▸ member))
    · exact moves_none system
  · exact moves_none system

/-! ## Calls of other threads -/

/-- A call that finds no slot changes nothing. -/
theorem Seated.unmarked (seated : system.Seated) :
    Registry.Marked system.registry system.registry :=
  ⟨seated.consistent.mild, fun _ => ⟨_, _, rfl⟩, rfl, rfl⟩

theorem moves_notify (seated : system.Seated) (id : ℕ) :
    Move system (system.unlock (system.registry.notify id).1) := by
  unfold Registry.notify
  split
  · exact .marked seated.unmarked
  · rename_i index found
    exact .scheduled (.inr (Registry.runningSlot_running found).1)

theorem moves_wakeByCompatPid (seated : system.Seated) (pid : ℕ) :
    Move system (system.unlock (system.registry.wakeByCompatPid pid).1) := by
  unfold Registry.wakeByCompatPid
  split
  · exact .marked seated.unmarked
  · rename_i index found
    exact .scheduled (Registry.findRunningSlot_live found)

theorem moves_setDeadline (seated : system.Seated) (id deadlineNs : ℕ) :
    Move system (system.unlock (system.registry.setDeadline id deadlineNs).1) := by
  unfold Registry.setDeadline
  split
  · exact .marked seated.unmarked
  · rename_i index found
    exact .deadlineSet deadlineNs (Registry.runningSlot_running found).1

/-- Rewriting the marks of one slot leaves the other fields of every slot alone. -/
theorem marked_slot {slots : Fin capacity → BackendSlot pool} {index : Fin capacity}
    (pinned blocked : Bool) (place : Fin capacity) :
    ∃ pinned' blocked', Function.update slots index
      { slots index with pinned := pinned, blocked := blocked } place =
        { slots place with pinned := pinned', blocked := blocked' } := by
  by_cases here : place = index
  · subst here
    exact ⟨pinned, blocked, by rw [Function.update_self]⟩
  · exact ⟨(slots place).pinned, (slots place).blocked, by rw [Function.update_of_ne here]⟩

theorem moves_setPinned (seated : system.Seated) (id : ℕ) (pinned : Bool) :
    Move system (system.unlock (system.registry.setPinned id pinned).1) := by
  refine .marked ⟨Registry.setPinned_mild seated.consistent id pinned, fun place => ?_, ?_, ?_⟩ <;>
    unfold Registry.setPinned
  · split
    · exact ⟨_, _, rfl⟩
    · split
      · exact ⟨_, _, rfl⟩
      · dsimp only
        split_ifs
        all_goals exact marked_slot pinned _ place
  · split
    · rfl
    · dsimp only
      split_ifs
      all_goals rfl
  · split
    · rfl
    · dsimp only
      split_ifs
      all_goals rfl

theorem moves_setBlocked (seated : system.Seated) (id : ℕ) (blocked : Bool) :
    Move system (system.unlock (system.registry.setBlocked id blocked).1) := by
  refine .marked ⟨Registry.setBlocked_mild seated.consistent id blocked, fun place => ?_, ?_, ?_⟩ <;>
    unfold Registry.setBlocked
  · split
    · exact ⟨_, _, rfl⟩
    · split
      · exact ⟨_, _, rfl⟩
      · dsimp only
        split_ifs
        all_goals exact marked_slot _ blocked place
  · split
    · rfl
    · dsimp only
      split_ifs
      all_goals rfl
  · split
    · rfl
    · dsimp only
      split_ifs
      all_goals rfl

theorem moves_completionPop (seated : system.Seated) : Move system system.completionPop := by
  unfold completionPop
  rcases Registry.completionPop_cases seated.consistent with ⟨empty, popped⟩ |
    ⟨index, head, completed, popped⟩
  · rw [popped]
    exact .poppedNothing empty
  · rw [popped]
    obtain ⟨id, here⟩ : ∃ id, (system.registry.slots index).start = some id := by
      refine Option.ne_none_iff_exists'.mp fun missing => ?_
      rw [(seated.consistent.sound index).start, completed] at missing
      cases missing
    dsimp only
    rw [here]
    exact .popped head here

theorem moves_joinClaim (seated : system.Seated) (joiner : ℕ) (completion : BackendCompletion) :
    system.Moves (.ok (system.joinClaim joiner completion)) := by
  unfold joinClaim
  split
  · rename_i registry index idle claim
    obtain ⟨dequeued, -, -, rfl⟩ := Registry.joinClaim_spec claim
    obtain ⟨id, here⟩ : ∃ id, (system.registry.slots index).start = some id := by
      refine Option.ne_none_iff_exists'.mp fun missing => ?_
      rw [(seated.consistent.sound index).start, dequeued] at missing
      cases missing
    have same : ((system.registry.setSlot index { system.registry.slots index with
        state := .joining }).slots index).start = some id := by
      simpa [Registry.setSlot] using here
    rw [same]
    exact moves_some (.claimed idle dequeued here)
  · exact moves_none system

theorem moves_joinThread (seated : system.Seated) (joiner : ℕ) :
    system.Moves (.ok (system.joinThread joiner)) := by
  unfold joinThread
  split
  · rename_i index id phase
    have fits := seated.joiners joiner
    rw [phase] at fits
    have joining := fits.joining index id rfl
    dsimp only
    by_cases pooled : (system.registry.slots index).pooled = true
    · rw [if_pos pooled]
      exact moves_some (.joinedThread phase)
    · rw [Bool.not_eq_true] at pooled
      have thread := (seated.consistent.sound index).thread pooled (by simp [joining])
        (by simp [joining])
      rw [if_neg (by simp [pooled]), if_neg (by simp [thread])]
      split
      · exact moves_some (.joinedThread phase)
      · exact moves_none system
  · exact moves_none system

theorem moves_joinWait (seated : system.Seated) (joiner : ℕ) :
    system.Moves (.ok (system.joinWait joiner)) := by
  unfold joinWait
  split
  · rename_i index id phase
    have fits := seated.joiners joiner
    rw [phase] at fits
    have joining := fits.joining index id rfl
    have start := fits.start index id rfl
    dsimp only
    rcases Bool.eq_false_or_eq_true (system.registry.slots index).completionDeliveryComplete with
      delivered | waits
    · rw [if_neg (by simp [delivered]), if_neg (by simp [joining, start, delivered])]
      exact moves_some (.waited phase delivered)
    · rw [if_pos ⟨joining, start, waits⟩]
      exact moves_none system
  · exact moves_none system

theorem moves_joinRelease (seated : system.Seated) (joiner : ℕ) :
    system.Moves (.ok (system.joinRelease joiner)) := by
  unfold joinRelease
  split
  · rename_i index id phase
    have fits := seated.joiners joiner
    rw [phase] at fits
    rw [Registry.joinRelease_eq (fits.joining index id rfl) (fits.start index id rfl)]
    exact moves_some (.rejoined phase)
  · exact moves_none system

/-- Every step of a system whose threads are seated is a move, and none aborts. -/
theorem step_moves (seated : system.Seated) (action : Action pool) :
    system.Moves (system.step action) := by
  cases action with
  | launch request => exact moves_launch seated request
  | createThread start success => exact moves_createThread start success
  | finishLaunch start => exact moves_finishLaunch seated start
  | beginThread start => exact moves_beginThread seated start
  | complete carrier returned cleanup => exact moves_complete seated carrier returned cleanup
  | wake carrier => exact moves_wake carrier
  | deliver carrier => exact moves_deliver seated carrier
  | runWorker worker nowNs => exact moves_runWorker seated worker nowNs
  | scheduleEpoch carrier => exact moves_scheduleEpoch seated carrier
  | prepareYield carrier observed runnable =>
      exact moves_prepareYield seated carrier observed runnable
  | notify id => exact moves_some (moves_notify seated id)
  | wakeByCompatPid pid => exact moves_some (moves_wakeByCompatPid seated pid)
  | setPinned id pinned => exact moves_some (moves_setPinned seated id pinned)
  | setBlocked id blocked => exact moves_some (moves_setBlocked seated id blocked)
  | setDeadline id deadlineNs => exact moves_some (moves_setDeadline seated id deadlineNs)
  | completionPop => exact moves_some (moves_completionPop seated)
  | joinClaim joiner completion => exact moves_joinClaim seated joiner completion
  | joinThread joiner => exact moves_joinThread seated joiner
  | joinWait joiner => exact moves_joinWait seated joiner
  | joinRelease joiner => exact moves_joinRelease seated joiner

end Steps

/-! ## Every move keeps the threads seated -/

variable {system : System capacity pool}

theorem unlock_self (settled : system.registry.broadcast = false) :
    system.unlock system.registry = system := by
  have same : { system.registry with broadcast := false } = system.registry := by
    rw [← settled]
  unfold unlock
  rw [same, settled]
  rfl

theorem signal_signal (phase : Phase capacity) : phase.signal.signal = phase.signal := by
  cases phase <;> rfl

/-- Two critical sections in a row signal like the second one alone when it broadcasts. -/
theorem unlock_unlock {first second : Registry capacity pool}
    (broadcast : second.broadcast = first.broadcast) :
    (system.unlock first).unlock second = system.unlock second := by
  unfold unlock
  dsimp only
  rw [broadcast]
  split
  · have twice : (fun carrier => (system.carriers carrier).signal.signal) =
        fun carrier => (system.carriers carrier).signal :=
      funext fun carrier => signal_signal _
    rw [twice]
  · rfl

/-- Nobody holds a slot without a start record. -/
theorem Seated.vacant (seated : system.Seated)
    {index : Fin capacity} (none : (system.registry.slots index).start = none) :
    (∀ carrier start, (system.carriers carrier).seat = some start → start.index ≠ index) ∧
      (∀ id start, (system.launchers id).seat = some start → start.index ≠ index) ∧
      ∀ joiner place id, (system.joiners joiner).seat = some (place, id) → place ≠ index := by
  refine ⟨?_, ?_, ?_⟩
  · rintro carrier start seat rfl
    rw [((seated.carriers carrier).owns start seat).record] at none
    cases none
  · rintro id start seat rfl
    rw [((seated.launchers id).unborn seat).1.owns.record] at none
    cases none
  · rintro joiner place id seat rfl
    rw [(seated.joiners joiner).start place id seat] at none
    cases none

/-- One slot that no thread holds is rewritten. -/
theorem Seated.rewrite (seated : system.Seated)
    {registry : Registry capacity pool} (consistent : registry.Consistent) {index : Fin capacity}
    {slot : BackendSlot pool}
    (slots : registry.slots = Function.update system.registry.slots index slot)
    (workers : registry.workerRunning = system.registry.workerRunning)
    (carriers : ∀ carrier start, (system.carriers carrier).seat = some start →
      start.index = index → (system.carriers carrier).Fits registry carrier)
    (launchers : ∀ id start, (system.launchers id).seat = some start → start.index = index →
      (system.launchers id).Fits registry system.carriers id)
    (joiners : ∀ joiner id, (system.joiners joiner).seat = some (index, id) →
      (system.joiners joiner).Fits registry)
    (starts : List (Start capacity)) (longer : system.starts <+: starts)
    (record : ∀ id, slot.start = some id →
      starts[id]? = some { id := id, index := index, handle := slot.handle }) :
    Seated { system.unlock registry with starts := starts } := by
  have elsewhere (place : Fin capacity) (apart : place ≠ index) :
      registry.slots place = system.registry.slots place := by
    rw [slots, Function.update_of_ne apart]
  have alike (place : Fin capacity) (apart : place ≠ index) :
      Registry.Alike (registry.slots place) (system.registry.slots place) := by
    rw [elsewhere place apart]
    exact Registry.alike_of_core rfl
  refine
    { consistent := consistent.unlocked _ _
      settled := rfl
      recorded := fun place id start => ?_
      carriers := fun carrier => ?_
      alone := fun carrier other start rival => ?_
      launchers := fun id => ?_
      joiners := fun joiner => ?_
      joinersAlone := seated.joinersAlone
      unstarted := fun id fresh => ?_ }
  · change (registry.slots place).start = some id at start
    change starts[id]? = some { id := id, index := place, handle := (registry.slots place).handle }
    by_cases same : place = index
    · subst same
      rw [slots, Function.update_self] at start ⊢
      exact record id start
    · rw [elsewhere place same] at start ⊢
      obtain ⟨rest, rfl⟩ := longer
      have found := seated.recorded place id start
      rw [List.getElem?_append_left (List.getElem?_eq_some_iff.mp found).1]
      exact found
  · have fits : (system.carriers carrier).Fits registry carrier := by
      rcases seat : (system.carriers carrier).seat with _ | start
      · refine (seated.carriers carrier).frame (fun worker _ => congrFun workers worker) ?_
        intro start held
        rw [seat] at held
        cases held
      · by_cases same : start.index = index
        · exact carriers carrier start seat same
        · refine (seated.carriers carrier).frame (fun worker _ => congrFun workers worker) ?_
          intro other held
          rw [seat] at held
          obtain rfl := Option.some.inj held
          exact alike start.index same
    have unlocked := unlock_fits registry fits
    exact { suits := unlocked.suits, owns := unlocked.owns, stands := unlocked.stands }
  · change ((system.unlock registry).carriers carrier).seat = some start →
      ((system.unlock registry).carriers other).seat = some rival → _
    rw [unlock_seat, unlock_seat]
    exact seated.alone carrier other start rival
  · have fits : (system.launchers id).Fits registry system.carriers id := by
      rcases seat : (system.launchers id).seat with _ | start
      · refine (seated.launchers id).frame ?_ fun _ _ => rfl
        intro start held
        rw [seat] at held
        cases held
      · by_cases same : start.index = index
        · exact launchers id start seat same
        · refine (seated.launchers id).frame ?_ fun _ _ => rfl
          intro other held
          rw [seat] at held
          obtain rfl := Option.some.inj held
          exact alike start.index same
    exact fits.frame (fun _ _ => Registry.alike_of_core rfl)
      fun _ _ => seated.unlock_thread registry id
  · have fits : (system.joiners joiner).Fits registry := by
      rcases seat : (system.joiners joiner).seat with _ | ⟨place, id⟩
      · refine (seated.joiners joiner).frame ?_
        intro place id held
        rw [seat] at held
        cases held
      · by_cases same : place = index
        · subst same
          exact joiners joiner id seat
        · refine (seated.joiners joiner).frame ?_
          intro other number held
          rw [seat] at held
          obtain ⟨rfl, rfl⟩ := Prod.mk.inj (Option.some.inj held)
          exact alike place same
    exact fits.frame fun _ _ _ => Registry.alike_of_core rfl
  · have earlier : system.starts.length ≤ id := le_trans longer.length_le fresh
    obtain ⟨idle, absent⟩ := seated.unstarted id earlier
    exact ⟨idle, (seated.unlock_thread registry id).trans absent⟩

section Keep

variable {system : System capacity pool}

variable {registry : Registry capacity pool} {carrier : Carrier pool}

/-- A free slot is reserved for a new start record. -/
theorem Seated.reserve (seated : system.Seated)
    {index : Fin capacity} {slot : BackendSlot pool} {handle : BackendHandle}
    (free : (system.registry.slots index).state = .free)
    (launched : Registry.Launched system.registry registry index slot)
    (record : ∀ id, slot.start = some id → id = system.starts.length ∧ slot.handle = handle) :
    ((system.recorded { id := system.starts.length, index := index
                        handle := handle }).unlock registry).Seated := by
  have vacant := seated.vacant (((seated.consistent.sound index).start).mpr free)
  refine seated.rewrite launched.consistent launched.slots launched.workers
    (fun carrier start seat same => absurd same (vacant.1 carrier start seat))
    (fun id start seat same => absurd same (vacant.2.1 id start seat))
    (fun joiner id seat => absurd rfl (vacant.2.2 joiner index id seat))
    (system.starts ++ [{ id := system.starts.length, index := index, handle := handle }])
    (List.prefix_append _ _) fun id start => ?_
  obtain ⟨rfl, rfl⟩ := record id start
  exact List.getElem?_concat_length

/-- A joining call that holds nothing moves on to hold a slot that no other one holds, or keeps
its slot. -/
theorem Seated.moveJoiner (seated : system.Seated) {joiner : ℕ} {phase : Joiner capacity}
    (fits : phase.Fits system.registry)
    (alone : ∀ other index id rival, other ≠ joiner → phase.seat = some (index, id) →
      (system.joiners other).seat ≠ some (index, rival)) :
    (system.moveJoiner joiner phase).Seated := by
  have at_joiner : (system.moveJoiner joiner phase).joiners joiner = phase := Function.update_self ..
  have elsewhere (other : ℕ) (apart : other ≠ joiner) :
      (system.moveJoiner joiner phase).joiners other = system.joiners other :=
    Function.update_of_ne apart ..
  refine { seated with joiners := fun other => ?_, joinersAlone := ?_ }
  · by_cases same : other = joiner
    · rw [same, at_joiner]
      exact fits
    · rw [elsewhere other same]
      exact seated.joiners other
  · intro one two index id rival first second
    by_cases here : one = joiner
    · by_cases there : two = joiner
      · rw [here, there]
      · rw [here, at_joiner] at first
        rw [elsewhere two there] at second
        exact absurd second (alone two index id rival there first)
    · rw [elsewhere one here] at first
      by_cases there : two = joiner
      · rw [there, at_joiner] at second
        exact absurd first (alone one index rival id here second)
      · rw [elsewhere two there] at second
        exact seated.joinersAlone one two index id rival first second

/-- A launching call moves on, and its thread may appear with it. -/
theorem Seated.moveLauncher (seated : system.Seated) {id : ℕ} {phase : Launcher capacity}
    (fits : phase.Fits system.registry system.carriers id) (known : id < system.starts.length) :
    (system.moveLauncher id phase).Seated := by
  refine { seated with launchers := fun other => ?_, unstarted := fun other fresh => ?_ }
  · by_cases same : other = id
    · rw [same, show (system.moveLauncher id phase).launchers id = phase from
        Function.update_self ..]
      exact fits
    · rw [show (system.moveLauncher id phase).launchers other = system.launchers other from
        Function.update_of_ne same ..]
      exact seated.launchers other
  · have apart : other ≠ id := by
      rintro rfl
      exact absurd known (Nat.not_lt.mpr fresh)
    rw [show (system.moveLauncher id phase).launchers other = system.launchers other from
      Function.update_of_ne apart ..]
    exact seated.unstarted other fresh

/-- The start record of a launching call exists. -/
theorem Seated.launcher_known (seated : system.Seated) {id : ℕ} {start : Start capacity}
    (seat : (system.launchers id).seat = some start) : id < system.starts.length := by
  refine Nat.lt_of_not_le fun fresh => ?_
  rw [(seated.unstarted id fresh).1] at seat
  cases seat

theorem Seated.launcher_carrier (seated : system.Seated) {id : ℕ} {start rival : Start capacity}
    (seat : (system.launchers id).seat = some start)
    (held : (system.carriers carrier).seat = some rival) (same : rival.index = start.index) :
    carrier = .thread id ∧ system.carriers (.thread id) = .born start := by
  obtain ⟨unborn, number⟩ := (seated.launchers id).unborn seat
  have fits := seated.carriers carrier
  have owns := fits.owns rival held
  have stands := fits.stands rival held
  rw [same] at owns stands
  have thread : carrier = .thread id := by
    cases carrier with
    | thread other =>
        have mine := seated.thread_start held
        have record := owns.record
        rw [unborn.owns.record] at record
        rw [← mine, ← Option.some.inj record, number]
    | worker worker =>
        have suits := fits.suits
        generalize system.carriers (.worker worker) = phase at suits stands held
        cases phase with
        | born => exact absurd rfl (suits.2.2.1 _)
        | executing =>
            have running := stands.1
            rw [unborn.starting] at running
            cases running
        | published =>
            have ended := stands.1
            simp [BackendSlot.ended, unborn.starting] at ended
        | woken =>
            have ended := stands.1
            simp [BackendSlot.ended, unborn.starting] at ended
        | _ => cases held
  refine ⟨thread, ?_⟩
  rcases seated.launcher_thread seat with absent | born
  · rw [thread, absent] at held
    cases held
  · exact born

/-- Another launching call has another slot. -/
theorem Seated.launcher_alone (seated : system.Seated) {id other : ℕ} {start rival : Start capacity}
    (seat : (system.launchers id).seat = some start)
    (held : (system.launchers other).seat = some rival) (same : rival.index = start.index) :
    other = id := by
  obtain ⟨unborn, number⟩ := (seated.launchers id).unborn seat
  obtain ⟨second, tag⟩ := (seated.launchers other).unborn held
  have record := second.owns.record
  rw [same, unborn.owns.record] at record
  rw [← tag, ← number, Option.some.inj record]

/-- No joining call holds the slot of a launching call. -/
theorem Seated.not_joining (seated : system.Seated) {index : Fin capacity}
    (elsewhere : (system.registry.slots index).state ≠ .joining) (joiner id : ℕ) :
    (system.joiners joiner).seat ≠ some (index, id) :=
  fun seat => elsewhere ((seated.joiners joiner).joining index id seat)

/-- The system behind the first critical section of a launch that creates a thread. -/
theorem Seated.launch_creating (seated : system.Seated)
    {index : Fin capacity} {pid : ℕ} {request : Registry.LaunchRequest} {token : Bool}
    (free : (system.registry.slots index).state = .free)
    (launched : Registry.Launched system.registry registry index
      (Registry.startingSlot (Registry.launchedSlot (system.registry.slots index) index pid
        system.starts.length request) token)) :
    (((system.recorded { id := system.starts.length, index := index
                         handle := (registry.slots index).handle }).unlock
      registry).moveLauncher system.starts.length
        (.creating { id := system.starts.length, index := index
                     handle := (registry.slots index).handle } request)).Seated := by
  have here : registry.slots index = Registry.startingSlot (Registry.launchedSlot
      (system.registry.slots index) index pid system.starts.length request) token := by
    rw [launched.slots, Function.update_self]
  have keeps := seated.reserve free launched fun id start => ⟨(Option.some.inj start).symm, rfl⟩
  rw [← here] at keeps
  refine keeps.moveLauncher ⟨rfl, ⟨⟨?_, rfl⟩, ?_, ?_⟩, ?_, ?_⟩ ?_
  · exact (congrArg BackendSlot.start here).trans rfl
  · exact (congrArg BackendSlot.state here).trans rfl
  · exact (congrArg BackendSlot.thread here).trans rfl
  · exact (congrArg (fun slot => slot.handle.executionClass) here).trans rfl
  · exact (seated.unlock_thread registry _).trans (seated.unstarted _ le_rfl).2
  · change system.starts.length < (system.starts ++ [_]).length
    simp

/-- The thread of a launching call appears. -/
theorem Seated.create (seated : system.Seated) {id : ℕ} {start : Start capacity}
    {request : Registry.LaunchRequest} (launcher : system.launchers id = .creating start request) :
    ((system.moveLauncher id (.created start request)).move (.thread id) (.born start)).Seated := by
  have seat : (system.launchers id).seat = some start := by rw [launcher]; rfl
  have fits := seated.launchers id
  rw [launcher] at fits
  obtain ⟨number, unborn, kind, absent⟩ := fits
  have dedicated := (seated.consistent.sound start.index).starting unborn.starting
  have empty (carrier : Carrier pool) (rival : Start capacity)
      (held : (system.carriers carrier).seat = some rival) : rival.index ≠ start.index := by
    intro same
    have born := (seated.launcher_carrier seat held same).2
    rw [absent] at born
    cases born
  have elsewhere (carrier : Carrier pool) (apart : carrier ≠ .thread id) :
      ((system.moveLauncher id (.created start request)).move (.thread id)
        (.born start)).carriers carrier = system.carriers carrier := Function.update_of_ne apart ..
  have here : ((system.moveLauncher id (.created start request)).move (.thread id)
      (.born start)).carriers (.thread id) = .born start := Function.update_self ..
  refine { seated with
    carriers := fun carrier => ?_, alone := ?_, launchers := fun other => ?_, unstarted := ?_ }
  · by_cases same : carrier = .thread id
    · rw [same, here]
      refine ⟨.inr (.inr ⟨start, rfl, number⟩), fun other held => ?_, fun other held => ?_⟩
      · obtain rfl := Option.some.inj held
        exact unborn.owns
      · obtain rfl := Option.some.inj held
        exact ⟨dedicated, .inl unborn.starting⟩
    · rw [elsewhere carrier same]
      exact seated.carriers carrier
  · intro one two first second held taken same
    by_cases mine : one = .thread id
    · by_cases yours : two = .thread id
      · rw [mine, yours]
      · rw [mine, here] at held
        obtain rfl := Option.some.inj held
        rw [elsewhere two yours] at taken
        exact absurd same.symm (empty two second taken)
    · rw [elsewhere one mine] at held
      by_cases yours : two = .thread id
      · rw [yours, here] at taken
        obtain rfl := Option.some.inj taken
        exact absurd same (empty one first held)
      · rw [elsewhere two yours] at taken
        exact seated.alone one two first second held taken same
  · by_cases same : other = id
    · have now : ((system.moveLauncher id (.created start request)).move (.thread id)
          (.born start)).launchers id = .created start request := Function.update_self ..
      rw [same, now]
      exact ⟨number, unborn, kind, here⟩
    · have now : ((system.moveLauncher id (.created start request)).move (.thread id)
          (.born start)).launchers other = system.launchers other := Function.update_of_ne same ..
      rw [now]
      refine (seated.launchers other).frame (fun _ _ => Registry.alike_of_core rfl) fun _ _ => ?_
      exact elsewhere _ (fun eq => same (Carrier.thread.inj eq))
  · intro other fresh
    have apart : other ≠ id := by
      rintro rfl
      exact absurd (seated.launcher_known seat) (Nat.not_lt.mpr fresh)
    refine ⟨?_, ?_⟩
    · exact (Function.update_of_ne apart ..).trans (seated.unstarted other fresh).1
    · rw [elsewhere _ (fun eq => apart (Carrier.thread.inj eq))]
      exact (seated.unstarted other fresh).2

/-- A launching call ends, with a slot that its thread may hold. -/
theorem Seated.end_launch (seated : system.Seated) {id : ℕ} {start : Start capacity}
    (seat : (system.launchers id).seat = some start)
    (consistent : registry.Consistent) {slot : BackendSlot pool}
    (slots : registry.slots = Function.update system.registry.slots start.index slot)
    (workers : registry.workerRunning = system.registry.workerRunning)
    (born : system.carriers (.thread id) = .born start → start.Owns slot ∧ slot.pooled = false ∧
      (slot.state = .starting ∨ slot.state = .running))
    (record : ∀ other, slot.start = some other → (system.registry.slots start.index).start =
      some other ∧ slot.handle = (system.registry.slots start.index).handle) :
    ((system.unlock registry).moveLauncher id .idle).Seated := by
  have unborn := ((seated.launchers id).unborn seat).1
  have here : registry.slots start.index = slot := by rw [slots, Function.update_self]
  -- The launcher leaves first, so that nothing relies on the old slot.
  have left : (system.moveLauncher id .idle).Seated :=
    seated.moveLauncher trivial (seated.launcher_known seat)
  have gone (other : ℕ) (apart : other ≠ id) :
      (system.moveLauncher id .idle).launchers other = system.launchers other :=
    Function.update_of_ne apart ..
  refine left.rewrite consistent slots workers ?_ ?_ ?_ system.starts (List.prefix_refl _) ?_
  · intro carrier rival held same
    obtain ⟨rfl, phase⟩ := seated.launcher_carrier seat held same
    obtain ⟨owns, dedicated, live⟩ := born phase
    change (system.carriers (.thread id)).Fits registry (.thread id)
    have fits := seated.carriers (.thread id)
    rw [phase] at fits ⊢
    refine ⟨fits.suits, fun other seated => ?_, fun other seated => ?_⟩
    · obtain rfl := Option.some.inj seated
      rw [here]
      exact owns
    · obtain rfl := Option.some.inj seated
      rw [here]
      exact ⟨dedicated, live⟩
  · intro other rival held same
    by_cases mine : other = id
    · rw [mine, show (system.moveLauncher id .idle).launchers id = .idle from
        Function.update_self ..] at held
      cases held
    · rw [gone other mine] at held
      exact absurd (seated.launcher_alone seat held same) mine
  · intro joiner number held
    exact absurd held (seated.not_joining (by simp [unborn.starting]) joiner number)
  · intro other start
    obtain ⟨old, handle⟩ := record other start
    rw [handle]
    exact seated.recorded _ other old

/-- A slot whose execution has ended moves on to the next state. -/
theorem Seated.restate (seated : system.Seated)
    (state : SlotState) (consistent : registry.Consistent) {index : Fin capacity}
    (slots : registry.slots = Function.update system.registry.slots index
      { system.registry.slots index with state := state })
    (workers : registry.workerRunning = system.registry.workerRunning)
    (ended : (system.registry.slots index).ended = true)
    (next : BackendSlot.ended { system.registry.slots index with state := state } = true)
    (unclaimed : (system.registry.slots index).state ≠ .joining) :
    (system.unlock registry).Seated := by
  have here : registry.slots index = { system.registry.slots index with state := state } := by
    rw [slots, Function.update_self]
  have past := BackendSlot.ended_state ended
  refine seated.rewrite consistent slots workers ?_ ?_ ?_ system.starts (List.prefix_refl _) ?_
  · rintro carrier start seat rfl
    refine (seated.carriers carrier).change (fun worker _ => congrFun workers worker) ?_
    intro other held owns stands
    rw [seat] at held
    obtain rfl := Option.some.inj held
    rw [here]
    refine ⟨⟨owns.record, owns.handle⟩, ?_⟩
    generalize system.carriers carrier = phase at stands seat ⊢
    cases phase with
    | born =>
        rcases stands.2 with starting | running
        · exact absurd starting past.2.1
        · exact absurd running past.2.2
    | executing => exact absurd stands.1 past.2.2
    | published => exact ⟨next, stands.2⟩
    | woken => exact ⟨next, stands.2⟩
    | _ => cases seat
  · rintro id start seat same
    exact absurd same (seated.not_launching (.inl past.2.1) id start seat)
  · intro joiner id seat
    exact absurd seat (seated.not_joining unclaimed joiner id)
  · intro id start
    exact seated.recorded index id start

theorem Seated.rest (seated : system.Seated) {worker : Fin pool} {phase : Phase capacity}
    (rests : resting (system.carriers (.worker worker)) = true) (next : resting phase = true) :
    (system.move (.worker worker) phase).Seated := by
  have unseated {other : Phase capacity} (rests : resting other = true) :
      other.seat = none ∧ other.runs = false ∧ other ≠ .absent ∧ other ≠ .finished ∧
        ∀ start, other ≠ .born start := by
    cases other <;> simp_all [resting, Phase.seat, Phase.runs]
  obtain ⟨empty, still, present, unfinished, unborn⟩ := unseated next
  have flag := (seated.carriers (.worker worker)).suits.2.2.2
  rw [(unseated rests).2.1] at flag
  have seats (carrier : Carrier pool) :
      ((system.move (.worker worker) phase).carriers carrier).seat =
        (system.carriers carrier).seat := by
    by_cases same : carrier = .worker worker
    · rw [same, move_self, empty, (unseated rests).1]
    · rw [move_other _ _ same]
  refine { seated with
    carriers := fun carrier => ?_, alone := ?_, launchers := fun id => ?_, unstarted := ?_ }
  · by_cases same : carrier = .worker worker
    · rw [same, move_self]
      refine ⟨⟨present, unfinished, unborn, flag.trans still.symm⟩, ?_, ?_⟩
      · intro start held
        rw [empty] at held
        cases held
      · intro start held
        rw [empty] at held
        cases held
    · rw [move_other _ _ same]
      exact seated.carriers carrier
  · intro one two first second
    rw [seats, seats]
    exact seated.alone one two first second
  · exact (seated.launchers id).frame (fun _ _ => Registry.alike_of_core rfl)
      fun _ _ => move_other _ _ (by simp)
  · intro id fresh
    rw [move_other _ _ (by simp)]
    exact seated.unstarted id fresh

theorem unlock_wake (settled : system.registry.broadcast = false) (signalled : Bool) :
    system.unlock { system.registry with wakeSignalled := signalled } =
      { system with registry := { system.registry with wakeSignalled := signalled } } := by
  simp [unlock, settled]

theorem resting_seat {phase : Phase capacity} (rests : resting phase = true) :
    phase.seat = none := by
  cases phase with
  | idle => rfl
  | asleep => rfl
  | _ => cases rests

theorem resting_signal (phase : Phase capacity) : resting phase.signal = resting phase := by
  cases phase <;> rfl

theorem published_suits {running : Fin pool → Bool}
    {start : Start capacity} (suits : (Phase.published start).Suits running carrier) :
    (Phase.woken start).Suits running carrier := by
  cases carrier with
  | thread id =>
      rcases suits with none | none | held
      · cases none
      · cases none
      · exact .inr (.inr held)
  | worker worker => exact ⟨by simp, by simp, by simp, suits.2.2.2⟩

theorem released_suits {running : Fin pool → Bool}
    {start : Start capacity} (suits : (Phase.woken start).Suits running carrier) :
    (released carrier : Phase capacity).Suits running carrier := by
  cases carrier with
  | thread id => exact .inr (.inl rfl)
  | worker worker =>
      exact ⟨by simp [released], by simp [released], by simp [released], suits.2.2.2⟩

theorem released_seat (carrier : Carrier pool) :
    (released carrier : Phase capacity).seat = none := by
  cases carrier <;> rfl

theorem executing_suits {running : Fin pool → Bool} {start : Start capacity} {epochs later : List ℕ}
    (suits : (Phase.executing start epochs).Suits running carrier) :
    (Phase.executing start later).Suits running carrier := by
  cases carrier with
  | thread id =>
      rcases suits with none | none | held
      · cases none
      · cases none
      · exact .inr (.inr held)
  | worker worker => exact ⟨by simp, by simp, by simp, suits.2.2.2⟩

/-- A carrier publishes the end of its execution. -/
theorem Seated.exit (seated : system.Seated) {start : Start capacity}
    {epochs : List ℕ} (phase : system.carriers carrier = .executing start epochs)
    (status : ExitStatus) :
    ((system.unlock (system.registry.exited start.index status (workerOf carrier))).move carrier
      (.published start)).Seated := by
  have seat : (system.carriers carrier).seat = some start := by rw [phase]; rfl
  have fits := seated.carriers carrier
  rw [phase] at fits
  obtain ⟨-, pooled, -⟩ := fits.stands start rfl
  obtain ⟨running, carried, quantum, -⟩ := seated.executing phase
  have sound := seated.consistent.sound start.index
  have undelivered : (system.registry.slots start.index).completionDeliveryComplete = false := by
    refine Bool.eq_false_iff.mpr fun delivered => ?_
    have ended := sound.delivery delivered
    simp [BackendSlot.ended, running] at ended
  have outside : (system.registry.slots start.index).queued = false := by
    cases carrier with
    | thread id => exact sound.not_queued (.inr (.inl pooled))
    | worker worker => exact sound.not_queued (.inl quantum)
  refine seated.proceed _ seat (Registry.exited_consistent seated.consistent status (workerOf carrier)
    running carried outside) rfl ?_ ?_ (.inr rfl) ⟨rfl, undelivered, pooled⟩
    (.inl (by simp [running])) ?_ rfl rfl
  · intro worker apart
    cases carrier with
    | thread id => rfl
    | worker own => exact Function.update_of_ne (fun eq => apart (by rw [eq])) _ _
  · cases carrier with
    | thread id => exact .inr (.inr ⟨start, rfl, seated.thread_start seat⟩)
    | worker own => exact ⟨by simp, by simp, by simp, Function.update_self ..⟩
  · intro waits
    rw [running] at waits
    cases waits

/-- A queued slot is held by no thread. -/
theorem Seated.queued_vacant (seated : system.Seated) {index : Fin capacity}
    (queued : (system.registry.slots index).queued = true) (carrier : Carrier pool)
    (start : Start capacity) (seat : (system.carriers carrier).seat = some start) :
    start.index ≠ index := by
  rintro rfl
  have stands := (seated.carriers carrier).stands start seat
  have suits := (seated.carriers carrier).suits
  obtain ⟨running, pooled, parked, -⟩ := (seated.consistent.sound start.index).queued queued
  generalize system.carriers carrier = phase at stands seat suits
  cases phase with
  | born =>
      have kind := stands.1
      rw [pooled] at kind
      cases kind
  | executing =>
      have kind := stands.2.1.symm.trans pooled
      have quantum := stands.2.2.symm.trans parked
      rw [kind] at quantum
      cases quantum
  | published =>
      have ended := stands.1
      simp [BackendSlot.ended, running] at ended
  | woken =>
      have ended := stands.1
      simp [BackendSlot.ended, running] at ended
  | _ => cases seat

/-- A worker starts a quantum. -/
theorem Seated.start (seated : system.Seated) {worker : Fin pool}
    {registry : Registry capacity pool} {previous : Option (Fin capacity)} {index : Fin capacity}
    {start : Start capacity} (rests : resting (system.carriers (.worker worker)) = true)
    (due : Registry.Due system.registry registry)
    (free : registry.executionTokensActive < registry.executionTokenCount)
    (queued : (registry.slots index).queued = true)
    (listed : (registry.runnable.remove previous index).Lists fun place =>
      (registry.slots place).queued = true ∧ place ≠ index)
    (record : start =
      { id := start.id, index := index, handle := (system.registry.slots index).handle })
    (here : (system.registry.slots index).start = some start.id) :
    ((system.unlock (registry.quantumStarted worker previous index)).move (.worker worker)
      (.executing start [])).Seated := by
  have keeps := seated.mild due.mild
  have alike := Registry.alike_of_core (due.mild.gentle.core index)
  obtain ⟨running, pooled, -, -⟩ := (due.mild.consistent.sound index).queued queued
  have place : start.index = index := by rw [record]
  have same : (system.unlock registry).unlock (registry.quantumStarted worker previous index) =
      system.unlock (registry.quantumStarted worker previous index) := unlock_unlock rfl
  rw [← same]
  refine keeps.advance (Registry.quantumStarted_consistent due.mild.consistent worker queued free
    listed) rfl ?_ ⟨⟨by simp, by simp, by simp, Function.update_self ..⟩, ?_, ?_⟩ ?_ ?_ ?_ ?_ ?_ ?_
    rfl rfl
  · intro other apart
    exact Function.update_of_ne (fun eq => apart (by rw [eq])) _ _
  · intro other held
    obtain rfl := Option.some.inj held
    rw [place]
    refine ⟨?_, ?_⟩
    · simpa [Registry.quantumStarted, Registry.setSlot, Registry.startedSlot] using
        alike.start.trans here
    · rw [record]
      simpa [Registry.quantumStarted, Registry.setSlot, Registry.startedSlot] using alike.handle
  · intro other held
    obtain rfl := Option.some.inj held
    rw [place]
    simpa [Registry.quantumStarted, Registry.setSlot, Registry.startedSlot, Phase.Stands,
      Carrier.pooled] using ⟨running, pooled⟩
  · intro absent
    have suits := (keeps.carriers (.worker worker)).suits
    rw [absent] at suits
    exact suits.1 rfl
  · intro other held
    rw [unlock_seat, resting_seat rests] at held
    cases held
  · intro other held
    obtain rfl := Option.some.inj held
    exact place
  · intro carrier _ other held
    exact keeps.queued_vacant queued carrier other held
  · exact keeps.not_launching (.inl (by
      change (registry.slots index).state ≠ .starting
      simp [running]))
  · intro joiner id _ waits
    change (registry.slots index).state = .joining at waits
    rw [running] at waits
    cases waits

/-- A joining call gives its slot back. -/
theorem Seated.release (seated : system.Seated) {joiner : ℕ} {index : Fin capacity} {id : ℕ}
    (phase : system.joiners joiner = .destroying index id) :
    ((system.unlock (system.registry.rejoined index)).moveJoiner joiner .idle).Seated := by
  have fits := seated.joiners joiner
  rw [phase] at fits
  have joining := fits.joining index id rfl
  have delivered := fits.delivered index id rfl
  have left : (system.moveJoiner joiner .idle).Seated := by
    refine seated.moveJoiner ⟨by simp, ?_, ?_, by simp⟩ ?_
    · intro place number held
      cases held
    · intro place number held
      cases held
    · intro other place number rival _ held
      cases held
  refine left.rewrite (Registry.rejoined_consistent seated.consistent joining) rfl rfl ?_ ?_ ?_
    system.starts (List.prefix_refl _) ?_
  · rintro carrier start seat rfl
    have stands := (seated.carriers carrier).stands start seat
    change (system.carriers carrier).seat = some start at seat
    generalize system.carriers carrier = phase at stands seat
    cases phase with
    | born =>
        rcases stands.2 with state | state
        · rw [joining] at state
          cases state
        · rw [joining] at state
          cases state
    | executing =>
        have state := stands.1
        rw [joining] at state
        cases state
    | published =>
        have waits := stands.2.1
        rw [delivered] at waits
        cases waits
    | woken =>
        have waits := stands.2.1
        rw [delivered] at waits
        cases waits
    | _ => cases seat
  · intro other start seat same
    exact absurd same (seated.not_launching (.inl (by simp [joining])) other start seat)
  · intro other number held
    by_cases same : other = joiner
    · rw [same, show (system.moveJoiner joiner .idle).joiners joiner = .idle from
        Function.update_self ..] at held
      cases held
    · rw [show (system.moveJoiner joiner .idle).joiners other = system.joiners other from
        Function.update_of_ne same ..] at held
      refine absurd (seated.joinersAlone other joiner index number id held ?_) same
      rw [phase]
      rfl
  · intro number start
    cases start

end Keep

theorem Move.seated {system after : System capacity pool} (seated : system.Seated)
    (move : Move system after) : after.Seated := by
  cases move with
  | launchedPooled nextWorker free launched broadcast =>
      have keeps := seated.reserve free launched fun id start => ⟨(Option.some.inj start).symm, rfl⟩
      rw [launched.slots, Function.update_self]
      exact { keeps with }
  | @launchFailed registry index pid request free launched broadcast =>
      have keeps : Seated ((system.recorded
          { id := system.starts.length, index := index
            handle := (Registry.launchedSlot (system.registry.slots index) index pid
              system.starts.length request).handle }).unlock registry) :=
        seated.reserve free launched fun id start => by cases start
      exact { keeps with }
  | launchCreating token free launched tokens => exact seated.launch_creating free launched
  | created launcher => exact seated.create launcher
  | @refused id start request launcher =>
      have fits := seated.launchers id
      rw [launcher] at fits
      exact seated.moveLauncher ⟨fits.1, fits.2.1, fits.2.2.2⟩
        (seated.launcher_known (by rw [launcher]; rfl))
  | @publishedThread id start request launcher =>
      have seat : (system.launchers id).seat = some start := by rw [launcher]; rfl
      have fits := seated.launchers id
      rw [launcher] at fits
      obtain ⟨number, unborn, kind, phase⟩ := fits
      have dedicated := (seated.consistent.sound start.index).starting unborn.starting
      have keeps := seated.end_launch seat (Registry.publishThread_consistent seated.consistent
        unborn.starting unborn.unborn (unborn.owns.handle ▸ kind))
        (Registry.publishThread_slots ..) rfl ?_ fun other start => ⟨start, rfl⟩
      · exact { keeps with }
      · intro _
        refine ⟨⟨unborn.owns.record, unborn.owns.handle⟩, dedicated, ?_⟩
        unfold Registry.publishedSlot
        split
        · exact .inl unborn.starting
        · exact .inr rfl
  | @abandoned id start launcher =>
      have seat : (system.launchers id).seat = some start := by rw [launcher]; rfl
      have fits := seated.launchers id
      rw [launcher] at fits
      obtain ⟨number, unborn, absent⟩ := fits
      have keeps := seated.end_launch seat (Registry.abandoned_consistent seated.consistent
        unborn.starting unborn.unborn) rfl rfl ?_ fun other start => by cases start
      · exact { keeps with }
      · intro born
        rw [absent] at born
        cases born
  | @begun id start phase starting born =>
      have seat : (system.carriers (.thread id)).seat = some start := by rw [phase]; rfl
      have preparing := (seated.consistent.sound start.index).preparing starting
      refine seated.proceed _ seat (Registry.begun_consistent seated.consistent starting born) rfl
        (fun _ _ => rfl) (.inr (.inr ⟨start, rfl, seated.thread_start seat⟩)) (.inr rfl)
        ⟨rfl, preparing.dedicated, preparing.parked⟩ (.inr born) ?_ rfl rfl
      intro waits
      rw [starting] at waits
      cases waits
  | @begunRunning id start phase running =>
      have seat : (system.carriers (.thread id)).seat = some start := by rw [phase]; rfl
      have stands := (seated.carriers (.thread id)).stands start seat
      rw [phase] at stands
      have parked : (system.registry.slots start.index).quantumRunning = false := by
        refine Bool.eq_false_iff.mpr fun quantum => ?_
        have pooled := ((seated.consistent.sound start.index).quantum quantum).2.1
        rw [stands.1] at pooled
        cases pooled
      exact seated.proceed _ seat seated.consistent (Function.update_eq_self ..).symm
        (fun _ _ => rfl) (.inr (.inr ⟨start, rfl, seated.thread_start seat⟩)) (.inr rfl)
        ⟨running, stands.1, parked⟩ (.inl (by simp [running]))
        (fun waits => ⟨waits, fun delivered => delivered⟩) rfl rfl
  | @yielded worker start epochs phase =>
      have seat : (system.carriers (.worker worker)).seat = some start := by rw [phase]; rfl
      obtain ⟨running, -, quantum, -⟩ := seated.executing phase
      refine seated.proceed _ seat (Registry.yielded_consistent seated.consistent worker quantum) rfl
        (fun other apart => Function.update_of_ne (fun eq => apart (by rw [eq])) _ _)
        ⟨by simp, by simp, by simp, Function.update_self ..⟩ (.inl rfl) trivial
        (.inl (by simp [running])) ?_ rfl rfl
      intro waits
      rw [running] at waits
      cases waits
  | exited status phase =>
      have keeps := seated.exit phase status
      exact { keeps with }
  | @woken carrier start phase =>
      have seat : (system.carriers carrier).seat = some start := by rw [phase]; rfl
      have fits := seated.carriers carrier
      rw [phase] at fits
      have keeps := seated.proceed (.woken start) seat
        (seated.consistent.unlocked true system.registry.broadcast)
        (Function.update_eq_self ..).symm (fun _ _ => rfl) (published_suits fits.suits) (.inr rfl)
        (fits.stands start rfl)
        (.inl (BackendSlot.ended_state (fits.stands start rfl).1).2.1)
        (fun waits => ⟨waits, fun delivered => delivered⟩) rfl rfl
      rw [unlock_wake seated.settled] at keeps
      exact keeps
  | @delivered carrier start phase =>
      have seat : (system.carriers carrier).seat = some start := by rw [phase]; rfl
      have fits := seated.carriers carrier
      rw [phase] at fits
      obtain ⟨ended, -, -⟩ := fits.stands start rfl
      refine seated.proceed _ seat (Registry.deliveredRegistry_consistent seated.consistent ended) rfl
        (fun _ _ => rfl) (released_suits fits.suits) (.inl (released_seat carrier)) ?_
        (.inl (BackendSlot.ended_state ended).2.1) (fun waits => ⟨waits, fun _ => rfl⟩) rfl rfl
      cases carrier <;> trivial
  | slept rests due covers nothing =>
      refine (seated.mild due.mild).rest ?_ rfl
      unfold unlock
      dsimp only
      split
      · exact (resting_signal _).trans rests
      · exact rests
  | started rests due free queued listed record here =>
      have keeps := seated.start rests due free queued listed record here
      exact { keeps with }
  | @epochRead carrier start epochs phase =>
      have seat : (system.carriers carrier).seat = some start := by rw [phase]; rfl
      have fits := seated.carriers carrier
      rw [phase] at fits
      obtain ⟨running, -, -, -⟩ := seated.executing phase
      have keeps := seated.proceed
        (.executing start ((system.registry.slots start.index).scheduleEpoch :: epochs)) seat
        seated.consistent (Function.update_eq_self ..).symm (fun _ _ => rfl)
        (executing_suits fits.suits) (.inr rfl) (fits.stands start rfl) (.inl (by simp [running]))
        (fun waits => ⟨waits, fun delivered => delivered⟩) rfl rfl
      rw [unlock_self seated.settled] at keeps
      exact { keeps with }
  | @prepared carrier start epochs phase runnable current =>
      exact seated.mild (Registry.reschedule_mild seated.consistent start.index runnable)
  | @deadlineSet index deadlineNs running =>
      exact seated.mild (Registry.deadline_mild seated.consistent index deadlineNs)
  | scheduled live => exact seated.mild (Registry.scheduleSlot_mild seated.consistent live)
  | marked marked => exact seated.mild marked.mild
  | @popped index id head here =>
      have completed : (system.registry.slots index).state = .completed :=
        seated.consistent.completions.of_head head
      have keeps := seated.restate .dequeued (Registry.popped_consistent seated.consistent head) rfl rfl
        (by simp [BackendSlot.ended, completed]) rfl (by simp [completed])
      exact { keeps with }
  | poppedNothing empty =>
      rw [unlock_wake seated.settled]
      exact { seated with
        consistent := seated.consistent.unlocked _ _
        carriers := fun carrier => (seated.carriers carrier).frame (fun _ _ => rfl)
          fun _ _ => Registry.alike_of_core rfl
        launchers := fun id => (seated.launchers id).frame (fun _ _ => Registry.alike_of_core rfl)
          fun _ _ => rfl
        joiners := fun joiner =>
          (seated.joiners joiner).frame fun _ _ _ => Registry.alike_of_core rfl }
  | @claimed joiner index id idle dequeued here =>
      have ended : (system.registry.slots index).ended = true := by
        simp [BackendSlot.ended, dequeued]
      have keeps := seated.restate .joining
        (Registry.joining_consistent seated.consistent dequeued) rfl rfl ended rfl
        (by simp [dequeued])
      refine keeps.moveJoiner ⟨by simp, ?_, ?_, by simp⟩ ?_
      · rintro place number held
        obtain ⟨rfl, rfl⟩ := Prod.mk.inj (Option.some.inj held)
        simpa [unlock, Registry.setSlot] using here
      · rintro place number held
        obtain ⟨rfl, rfl⟩ := Prod.mk.inj (Option.some.inj held)
        simp [unlock, Registry.setSlot]
      · rintro other place number rival apart held
        obtain ⟨rfl, rfl⟩ := Prod.mk.inj (Option.some.inj held)
        exact seated.not_joining (by simp [dequeued]) other rival
  | @joinedThread joiner index id phase =>
      have fits := seated.joiners joiner
      rw [phase] at fits
      refine seated.moveJoiner ⟨by simp, fits.start, fits.joining, by simp⟩ ?_
      intro other place number rival apart held taken
      refine apart (seated.joinersAlone other joiner place rival number taken ?_)
      rw [phase]
      exact held
  | @waited joiner index id phase delivered =>
      have fits := seated.joiners joiner
      rw [phase] at fits
      refine seated.moveJoiner ⟨by simp, fits.start, fits.joining, ?_⟩ ?_
      · rintro place number same
        obtain ⟨rfl, rfl⟩ := Joiner.destroying.inj same
        exact delivered
      · intro other place number rival apart held taken
        refine apart (seated.joinersAlone other joiner place rival number taken ?_)
        rw [phase]
        exact held
  | @rejoined joiner index id phase =>
      have keeps := seated.release phase
      exact { keeps with }

end System

end Postgamma.Runtime
