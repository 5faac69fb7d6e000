import Mathlib
import Postgamma.Runtime.RegistryScheduling

/-!
# Schedules across a yield

The schedule epoch of an execution counts its schedules.  A quantum acknowledges the schedules up to
its start and up to every epoch that it reads; a schedule that it has not acknowledged makes
`postgamma_backend_prepare_yield` refuse, or queues the execution again at the end of the quantum,
and never leaves it idle.
-/

namespace Postgamma.Runtime

variable {capacity pool : ℕ}

namespace BackendSlot

/-- The slot of a pooled execution that neither waits for a worker nor has one. -/
def idle (slot : BackendSlot pool) : Bool :=
  slot.pooled && slot.state = .running && !slot.queued && !slot.quantumRunning

/-- The schedules behind an acknowledged epoch are not forgotten. -/
structure Attentive (seen : ℕ) (slot : BackendSlot pool) : Prop where
  bound : seen ≤ slot.scheduleEpoch
  requested : slot.quantumRunning = true → seen < slot.scheduleEpoch →
    slot.rescheduleRequested = true
  parked : slot.idle = true → seen = slot.scheduleEpoch

theorem idle_iff {slot : BackendSlot pool} : slot.idle = true ↔
    slot.pooled = true ∧ slot.state = .running ∧ slot.queued = false ∧
      slot.quantumRunning = false := by
  simp [idle, and_assoc]

end BackendSlot

namespace System

/-- No schedule of a pooled execution is forgotten. -/
structure Heard (system : System capacity pool) : Prop where
  slots : ∀ index id, (system.registry.slots index).start = some id →
    (system.registry.slots index).Attentive (system.seenEpoch id)
  epochs : ∀ carrier start epochs, system.carriers carrier = .executing start epochs →
    ∀ epoch ∈ epochs, epoch ≤ system.seenEpoch start.id
  fresh : ∀ id, system.starts.length ≤ id → system.seenEpoch id = 0

variable {carrier : Carrier pool} {registry : Registry capacity pool} {start : Start capacity}
  {system after : System capacity pool} {index : Fin capacity}

/-- A broadcast does not touch a main function. -/
theorem unlock_executing {epochs : List ℕ}
    (phase : (system.unlock registry).carriers carrier = .executing start epochs) :
    system.carriers carrier = .executing start epochs := by
  unfold unlock at phase
  dsimp only at phase
  split at phase
  · change (system.carriers carrier).signal = _ at phase
    generalize system.carriers carrier = old at phase ⊢
    cases old <;> first | exact phase | cases phase
  · exact phase

/-- A step that acknowledges nothing. -/
theorem Heard.keep (heard : system.Heard) (seen : after.seenEpoch = system.seenEpoch)
    (longer : system.starts.length ≤ after.starts.length)
    (executing : ∀ carrier start epochs, after.carriers carrier = .executing start epochs →
      epochs = [] ∨ system.carriers carrier = .executing start epochs)
    (slots : ∀ index id, (after.registry.slots index).start = some id →
      (after.registry.slots index).Attentive (system.seenEpoch id)) : after.Heard := by
  refine ⟨fun index id => ?_, fun carrier start epochs phase epoch member => ?_, fun id later => ?_⟩
  · rw [seen]
    exact slots index id
  · rw [seen]
    rcases executing carrier start epochs phase with none | same
    · rw [none] at member
      cases member
    · exact heard.epochs carrier start epochs same epoch member
  · rw [seen]
    exact heard.fresh id (longer.trans later)

/-- A step that acknowledges nothing and rewrites one slot. -/
theorem Heard.one {system after : System capacity pool} (heard : system.Heard)
    (seen : after.seenEpoch = system.seenEpoch)
    (longer : system.starts.length ≤ after.starts.length)
    (executing : ∀ carrier start epochs, after.carriers carrier = .executing start epochs →
      epochs = [] ∨ system.carriers carrier = .executing start epochs)
    {index : Fin capacity} {slot : BackendSlot pool}
    (slots : after.registry.slots = Function.update system.registry.slots index slot)
    (here : ∀ id, slot.start = some id → slot.Attentive (system.seenEpoch id)) :
    after.Heard := by
  refine heard.keep seen longer executing fun place id => ?_
  rw [slots]
  by_cases same : place = index
  · rw [same, Function.update_self]
    exact here id
  · rw [Function.update_of_ne same]
    exact heard.slots place id

theorem move_executing {actor : Carrier pool} {phase : Phase capacity}
    (quiet : ∀ start epochs, phase = .executing start epochs → epochs = []) (carrier : Carrier pool)
    (start : Start capacity) (epochs : List ℕ)
    (now : ((system.unlock registry).move actor phase).carriers carrier = .executing start epochs) :
    epochs = [] ∨ system.carriers carrier = .executing start epochs := by
  by_cases same : carrier = actor
  · rw [same, move_self] at now
    exact .inl (quiet start epochs now)
  · rw [move_other _ _ same] at now
    exact .inr (unlock_executing now)

/-- A slot with the epoch, the queue and the quantum of another one. -/
theorem attentive_congr {seen : ℕ} {old new : BackendSlot pool}
    (attentive : old.Attentive seen) (epoch : new.scheduleEpoch = old.scheduleEpoch)
    (quantum : new.quantumRunning = old.quantumRunning)
    (request : old.rescheduleRequested = true → new.rescheduleRequested = true)
    (idle : new.idle = true → old.idle = true) : new.Attentive seen := by
  refine ⟨epoch ▸ attentive.bound, fun runs later => ?_, fun rests => ?_⟩
  · exact request (attentive.requested (quantum ▸ runs) (epoch ▸ later))
  · rw [epoch]
    exact attentive.parked (idle rests)

/-- A start record is held by one carrier. -/
theorem Seated.same_record (seated : system.Seated)
    {carrier other : Carrier pool} {start rival : Start capacity}
    (held : (system.carriers carrier).seat = some start)
    (taken : (system.carriers other).seat = some rival) (same : start.id = rival.id) :
    carrier = other := by
  refine seated.alone carrier other start rival held taken ?_
  have one := seated.recorded _ _ ((seated.carriers carrier).owns start held).record
  have two := seated.recorded _ _ ((seated.carriers other).owns rival taken).record
  rw [same, two] at one
  exact (congrArg Start.index (Option.some.inj one)).symm

theorem Seated.same_slot (seated : system.Seated)
    {index other : Fin capacity} {id : ℕ} (here : (system.registry.slots index).start = some id)
    (there : (system.registry.slots other).start = some id) : index = other := by
  have one := seated.recorded index id here
  rw [seated.recorded other id there] at one
  exact (congrArg Start.index (Option.some.inj one)).symm

/-- A slot behind the deadlines that have come. -/
theorem attentive_due {seen : ℕ} {before after : Registry capacity pool}
    (due : Registry.Due before after) {index : Fin capacity}
    (attentive : (before.slots index).Attentive seen) : (after.slots index).Attentive seen := by
  rcases due.slots index with same | ⟨sleeps, -, queued⟩
  · rw [same]
    exact attentive
  · rw [queued]
    refine attentive_congr attentive rfl rfl (fun requested => requested) fun rests => ?_
    simp [BackendSlot.idle] at rests

/-- A schedule is heard by its slot. -/
theorem attentive_scheduled (consistent : registry.Consistent) {seen : ℕ}
    (live : (registry.slots index).state = .starting ∨ (registry.slots index).state = .running)
    (attentive : (registry.slots index).Attentive seen) :
    ((registry.scheduleSlot index).1.slots index).Attentive seen := by
  have later := Nat.le_succ_of_le attentive.bound
  rcases Registry.scheduleSlot_cases consistent live with ⟨-, eq⟩ | ⟨dedicated, eq⟩ |
    ⟨-, quantum, eq⟩ | ⟨-, parked, queued, eq⟩ | ⟨-, parked, -, eq⟩
  · rw [eq]
    exact attentive
  · have parked : (registry.slots index).quantumRunning = false := by
      refine Bool.eq_false_iff.mpr fun quantum => ?_
      have pooled := ((consistent.sound index).quantum quantum).2.1
      rw [dedicated] at pooled
      cases pooled
    rw [eq]
    simp only [Registry.setSlot, Function.update_self]
    refine ⟨later, fun runs => ?_, fun rests => ?_⟩
    · rw [show _ = false from parked] at runs
      cases runs
    · rw [BackendSlot.idle_iff] at rests
      rw [show _ = false from dedicated] at rests
      cases rests.1
  · rw [eq]
    simp only [Registry.setSlot, Function.update_self]
    refine ⟨later, fun _ _ => rfl, fun rests => ?_⟩
    rw [BackendSlot.idle_iff] at rests
    rw [show _ = true from quantum] at rests
    cases rests.2.2.2
  · rw [eq]
    simp only [Registry.setSlot, Function.update_self]
    refine ⟨later, fun runs => ?_, fun rests => ?_⟩
    · rw [show _ = false from parked] at runs
      cases runs
    · rw [BackendSlot.idle_iff] at rests
      rw [show _ = true from queued] at rests
      cases rests.2.2.1
  · rw [eq]
    simp only [Registry.enqueued, Registry.setSlot, Function.update_self]
    refine ⟨later, fun runs => ?_, fun rests => ?_⟩
    · rw [show _ = false from parked] at runs
      cases runs
    · simp [BackendSlot.idle] at rests

theorem scheduleSlot_other (consistent : registry.Consistent) {index place : Fin capacity}
    (live : (registry.slots index).state = .starting ∨ (registry.slots index).state = .running)
    (apart : place ≠ index) : (registry.scheduleSlot index).1.slots place = registry.slots place := by
  rcases Registry.scheduleSlot_cases consistent live with ⟨-, eq⟩ | ⟨-, eq⟩ | ⟨-, -, eq⟩ |
    ⟨-, -, -, eq⟩ | ⟨-, -, -, eq⟩
  · rw [eq]
  all_goals
    rw [eq]
    simp [Registry.enqueued, Registry.setSlot, apart]

/-- A step that acknowledges the schedules of one execution. -/
theorem Heard.acknowledge (heard : system.Heard) (seated : system.Seated) {id epoch : ℕ}
    (record : (system.registry.slots index).start = some id)
    (seen : after.seenEpoch = Function.update system.seenEpoch id epoch)
    (starts : after.starts = system.starts)
    (executing : ∀ carrier start epochs, after.carriers carrier = .executing start epochs →
      start.id = id ∧ (∀ old ∈ epochs, old ≤ epoch) ∨
        start.id ≠ id ∧ system.carriers carrier = .executing start epochs)
    (start : ∀ place, (after.registry.slots place).start = (system.registry.slots place).start)
    (here : (after.registry.slots index).Attentive epoch)
    (slots : ∀ place ≠ index, ∀ other, (after.registry.slots place).start = some other →
      (after.registry.slots place).Attentive (system.seenEpoch other)) : after.Heard := by
  refine ⟨fun place other now => ?_, fun carrier begun epochs phase old member => ?_,
    fun other later => ?_⟩
  · by_cases same : place = index
    · subst same
      rw [start, record] at now
      rw [seen, ← Option.some.inj now, Function.update_self]
      exact here
    · have apart : other ≠ id := by
        rintro rfl
        rw [start] at now
        exact same (seated.same_slot now record)
      rw [seen, Function.update_of_ne apart]
      exact slots place same other now
  · rw [seen]
    rcases executing carrier begun epochs phase with ⟨mine, below⟩ | ⟨apart, same⟩
    · rw [mine, Function.update_self]
      exact below old member
    · rw [Function.update_of_ne apart]
      exact heard.epochs carrier begun epochs same old member
  · have apart : other ≠ id := by
      rintro rfl
      have known := seated.recorded index other record
      have inside := (List.getElem?_eq_some_iff.mp known).1
      rw [starts] at later
      exact absurd inside (Nat.not_lt.mpr later)
    rw [starts] at later
    rw [seen, Function.update_of_ne apart]
    exact heard.fresh other later

/-- Every step keeps the schedules heard. -/
theorem Move.heard (seated : system.Seated)
    (heard : system.Heard) (move : Move system after) : after.Heard := by
  have same (carrier : Carrier pool) (start : Start capacity) (epochs : List ℕ)
      (phase : system.carriers carrier = .executing start epochs) :
      epochs = [] ∨ system.carriers carrier = .executing start epochs := .inr phase
  have signalled (registry : Registry capacity pool) (carrier : Carrier pool)
      (start : Start capacity) (epochs : List ℕ)
      (phase : (system.unlock registry).carriers carrier = .executing start epochs) :
      epochs = [] ∨ system.carriers carrier = .executing start epochs :=
    .inr (unlock_executing phase)
  cases move with
  | launchedPooled nextWorker free launched broadcast =>
      refine heard.one rfl (by simp [unlock, recorded]) (signalled _) launched.slots fun id start => ?_
      obtain rfl := Option.some.inj start
      rw [heard.fresh _ le_rfl]
      exact ⟨le_rfl, by intros; contradiction, by intros; contradiction⟩
  | launchFailed free launched broadcast =>
      exact heard.one rfl (by simp [unlock, recorded]) (signalled _) launched.slots
        fun id start => by cases start
  | launchCreating token free launched tokens =>
      refine heard.one rfl (by simp [unlock, recorded, moveLauncher]) (signalled _) launched.slots
        fun id start => ?_
      obtain rfl := Option.some.inj start
      rw [heard.fresh _ le_rfl]
      exact ⟨le_rfl, by intros; contradiction, by intros; contradiction⟩
  | @created id start request launcher =>
      refine heard.keep rfl le_rfl (fun carrier begun epochs phase => ?_) heard.slots
      by_cases here : carrier = .thread id
      · rw [here, move_self] at phase
        cases phase
      · rw [move_other _ _ here] at phase
        exact .inr phase
  | refused launcher => exact heard.keep rfl le_rfl same heard.slots
  | @publishedThread id start request launcher =>
      have unborn := ((seated.launchers id).unborn (by rw [launcher]; rfl)).1
      have dedicated := (seated.consistent.sound start.index).starting unborn.starting
      refine heard.one rfl le_rfl (signalled (system.registry.publishThread start.index request))
        (Registry.publishThread_slots ..) fun number record => ?_
      unfold Registry.publishedSlot at record ⊢
      split at record <;>
      · refine attentive_congr (heard.slots start.index number record) rfl rfl
          (fun requested => requested) fun rests => ?_
        rw [(BackendSlot.idle_iff.mp rests).1] at dedicated
        cases dedicated
  | @abandoned id start launcher =>
      exact heard.one rfl le_rfl (signalled (system.registry.abandoned start.index)) rfl fun id start => by cases start
  | @begun id start phase starting born =>
      have dedicated := (seated.consistent.sound start.index).starting starting
      refine heard.one rfl le_rfl (move_executing ?_) rfl fun number record => ?_
      · exact fun begun epochs phase => (Phase.executing.inj phase).2.symm
      · refine attentive_congr (heard.slots start.index number record) rfl rfl
          (fun requested => requested) fun rests => ?_
        rw [show _ = true from (BackendSlot.idle_iff.mp rests).1] at dedicated
        cases dedicated
  | begunRunning phase running =>
      refine heard.keep rfl le_rfl (move_executing ?_) heard.slots
      exact fun begun epochs phase => (Phase.executing.inj phase).2.symm
  | @yielded worker start epochs phase =>
      obtain ⟨-, -, quantum, -⟩ := seated.executing phase
      refine heard.one rfl le_rfl (move_executing (by simp)) rfl fun id record => ?_
      have attentive := heard.slots start.index id record
      refine ⟨attentive.bound, by intros; contradiction, fun rests => ?_⟩
      have quiet : (system.registry.slots start.index).rescheduleRequested = false :=
        (BackendSlot.idle_iff.mp rests).2.2.1
      refine le_antisymm attentive.bound (Nat.le_of_not_lt fun later => ?_)
      rw [attentive.requested quantum later] at quiet
      cases quiet
  | exited status phase =>
      refine heard.one rfl le_rfl (move_executing (by simp)) rfl fun id record => ?_
      have attentive := heard.slots _ id record
      refine ⟨attentive.bound, by intros; contradiction, fun rests => ?_⟩
      cases (BackendSlot.idle_iff.mp rests).2.1
  | @woken carrier start phase =>
      refine heard.keep rfl le_rfl (fun other begun epochs now => ?_) heard.slots
      by_cases here : other = carrier
      · rw [here] at now
        rw [show _ = Phase.woken start from move_self ..] at now
        cases now
      · exact .inr ((move_other _ _ here).symm.trans now)
  | @delivered carrier start phase =>
      refine heard.one rfl le_rfl (move_executing fun begun epochs now => ?_) rfl
        fun id record => ?_
      · cases carrier <;> cases now
      · exact attentive_congr (heard.slots _ id record) rfl rfl
          (fun requested => requested) fun rests => rests
  | slept rests due covers nothing =>
      refine heard.keep rfl le_rfl (move_executing (by simp)) fun index id record => ?_
      have alike := Registry.alike_of_core (due.mild.gentle.core index)
      exact attentive_due due (heard.slots index id (alike.start ▸ record))
  | @started worker registry previous index start rests due free queued listed record here =>
      have alike (place : Fin capacity) := Registry.alike_of_core (due.mild.gentle.core place)
      have elsewhere (place : Fin capacity) (apart : place ≠ index) :
          (registry.quantumStarted worker previous index).slots place = registry.slots place :=
        Function.update_of_ne apart ..
      have begins : (registry.quantumStarted worker previous index).slots index =
          Registry.startedSlot (registry.slots index) := Function.update_self ..
      obtain ⟨-, pooled, parked, -⟩ := (due.mild.consistent.sound index).queued queued
      refine heard.acknowledge seated here rfl rfl (fun carrier begun epochs phase => ?_)
        (fun place => ?_) ?_ fun place apart other now => ?_
      · by_cases mine : carrier = .worker worker
        · rw [mine] at phase
          obtain ⟨rfl, rfl⟩ := Phase.executing.inj ((move_self ..).symm.trans phase)
          exact .inl ⟨rfl, by simp⟩
        · have old := unlock_executing ((move_other _ _ mine).symm.trans phase)
          refine .inr ⟨fun same => ?_, old⟩
          obtain ⟨-, carried, -, owns⟩ := seated.executing old
          rw [seated.same_slot owns.record (same ▸ here)] at carried
          simp [BackendSlot.carried, ← (alike index).quantum, parked, ← (alike index).pooled,
            pooled] at carried
      · change ((registry.quantumStarted worker previous index).slots place).start = _
        by_cases mine : place = index
        · rw [mine, begins]
          exact (alike index).start
        · rw [elsewhere place mine]
          exact (alike place).start
      · change ((registry.quantumStarted worker previous index).slots index).Attentive _
        rw [begins]
        refine ⟨le_rfl, fun _ later => absurd later (Nat.lt_irrefl _), fun rests => ?_⟩
        cases (BackendSlot.idle_iff.mp rests).2.2.2
      · change ((registry.quantumStarted worker previous index).slots place).start = _ at now
        change ((registry.quantumStarted worker previous index).slots place).Attentive _
        rw [elsewhere place apart] at now ⊢
        exact attentive_due due (heard.slots place other ((alike place).start ▸ now))
  | @epochRead carrier start epochs phase =>
      have owns := (seated.executing phase).2.2.2
      have attentive := heard.slots start.index start.id owns.record
      refine heard.acknowledge seated owns.record rfl rfl (fun other begun later now => ?_)
        (fun _ => rfl) ?_ fun place _ other now => heard.slots place other now
      · by_cases mine : other = carrier
        · rw [mine] at now
          obtain ⟨rfl, rfl⟩ := Phase.executing.inj ((move_self ..).symm.trans now)
          refine .inl ⟨rfl, fun old member => ?_⟩
          rcases List.mem_cons.mp member with rfl | member
          · exact le_rfl
          · exact (heard.epochs carrier start epochs phase old member).trans attentive.bound
        · have old := (move_other _ _ mine).symm.trans now
          refine .inr ⟨fun same => mine ?_, old⟩
          exact seated.same_record (by rw [old]; rfl) (by rw [phase]; rfl) same
      · refine ⟨le_rfl, fun _ later => absurd later (Nat.lt_irrefl _), fun rests => rfl⟩
  | @prepared carrier start epochs phase runnable current =>
      refine heard.one rfl le_rfl (signalled _) rfl fun id record => ?_
      have owns := (seated.executing phase).2.2.2
      have attentive := heard.slots start.index id record
      have mine : start.id = id := Option.some.inj (owns.record.symm.trans record)
      have seen := heard.epochs carrier start epochs phase _ current
      rw [mine] at seen
      have acknowledged := le_antisymm attentive.bound seen
      refine ⟨attentive.bound, fun _ later => ?_, fun _ => acknowledged⟩
      exact absurd later (Nat.not_lt.mpr seen)
  | @scheduled index live =>
      refine heard.keep rfl le_rfl (signalled _) fun place id record => ?_
      have alike := Registry.alike_of_core
        ((Registry.scheduleSlot_mild seated.consistent live).gentle.core place)
      have attentive := heard.slots place id (alike.start ▸ record)
      by_cases mine : place = index
      · subst mine
        exact attentive_scheduled seated.consistent live attentive
      · change ((system.registry.scheduleSlot index).1.slots place).Attentive _
        rw [scheduleSlot_other seated.consistent live mine]
        exact attentive
  | @marked registry marked =>
      refine heard.keep rfl le_rfl (signalled _) fun place id record => ?_
      obtain ⟨pinned, blocked, eq⟩ := marked.slots place
      change (registry.slots place).start = some id at record
      change (registry.slots place).Attentive _
      rw [eq] at record ⊢
      exact attentive_congr (heard.slots place id record) rfl rfl
        (fun requested => requested) fun rests => rests
  | deadlineSet deadlineNs running =>
      refine heard.one rfl le_rfl (signalled _) rfl fun id record => ?_
      exact attentive_congr (heard.slots _ id record) rfl rfl
        (fun requested => requested) fun rests => rests
  | @popped index id head here =>
      refine heard.one rfl le_rfl (signalled _) rfl fun id record => ?_
      have completed : (system.registry.slots index).state = .completed :=
        seated.consistent.completions.of_head head
      refine attentive_congr (heard.slots _ id record) rfl rfl
        (fun requested => requested) fun rests => ?_
      cases (BackendSlot.idle_iff.mp rests).2.1
  | poppedNothing empty => exact heard.keep rfl le_rfl (signalled _) heard.slots
  | claimed idle dequeued here =>
      refine heard.one rfl le_rfl (signalled _) rfl fun id record => ?_
      refine attentive_congr (heard.slots _ id record) rfl rfl
        (fun requested => requested) fun rests => ?_
      cases (BackendSlot.idle_iff.mp rests).2.1
  | joinedThread phase => exact heard.keep rfl le_rfl same heard.slots
  | waited phase delivered => exact heard.keep rfl le_rfl same heard.slots
  | rejoined phase =>
      exact heard.one rfl le_rfl (signalled _) rfl fun id start => by cases start

theorem Reachable.heard {config : ProviderConfig} (accepted : config.Accepted capacity pool)
    (reachable : Reachable config system) : system.Heard := by
  induction reachable with
  | create => exact ⟨nofun, fun carrier => by cases carrier <;> nofun, fun _ _ => rfl⟩
  | step before taken heard => exact (before.move accepted taken).heard (before.seated accepted) heard

/-- Steps through which a carrier goes on executing. -/
inductive Within (carrier : Carrier pool) (start : Start capacity)
    (system : System capacity pool) : System capacity pool → Prop
  | here {epochs : List ℕ} (phase : system.carriers carrier = .executing start epochs) :
      Within carrier start system system
  | step {middle after : System capacity pool} {action : Action pool} {epochs : List ℕ}
      (before : Within carrier start system middle)
      (taken : middle.step action = .ok (some after))
      (phase : after.carriers carrier = .executing start epochs) :
      Within carrier start system after

/-- Steps through which a carrier goes on executing and reads no schedule epoch. -/
inductive Unread (carrier : Carrier pool) (start : Start capacity) (epochs : List ℕ)
    (system : System capacity pool) : System capacity pool → Prop
  | here (phase : system.carriers carrier = .executing start epochs) :
      Unread carrier start epochs system system
  | step {middle after : System capacity pool} {action : Action pool}
      (before : Unread carrier start epochs system middle)
      (taken : middle.step action = .ok (some after))
      (phase : after.carriers carrier = .executing start epochs) :
      Unread carrier start epochs system after

/-- A change of one slot that does not turn its schedule epoch back. -/
theorem epoch_update {before after : Registry capacity pool} {place : Fin capacity}
    {slot : BackendSlot pool} (slots : after.slots = Function.update before.slots place slot)
    (later : index = place → (before.slots place).scheduleEpoch ≤ slot.scheduleEpoch) :
    (before.slots index).scheduleEpoch ≤ (after.slots index).scheduleEpoch := by
  rw [slots]
  by_cases same : index = place
  · rw [same, Function.update_self]
    exact later same
  · rw [Function.update_of_ne same]

theorem epoch_due {before after : Registry capacity pool} (due : Registry.Due before after)
    (index : Fin capacity) :
    (after.slots index).scheduleEpoch = (before.slots index).scheduleEpoch := by
  rcases due.slots index with same | ⟨-, -, queued⟩
  · rw [same]
  · rw [queued]

theorem epoch_scheduled (consistent : registry.Consistent)
    (live : (registry.slots index).state = .starting ∨ (registry.slots index).state = .running) :
    (registry.scheduleSlot index).2 = some .EOVERFLOW ∧
        (registry.scheduleSlot index).1 = registry ∨
      (registry.scheduleSlot index).2 = none ∧
        ((registry.scheduleSlot index).1.slots index).scheduleEpoch =
          (registry.slots index).scheduleEpoch + 1 := by
  rcases Registry.scheduleSlot_cases consistent live with ⟨-, eq⟩ | ⟨-, eq⟩ | ⟨-, -, eq⟩ |
    ⟨-, -, -, eq⟩ | ⟨-, -, -, eq⟩
  · exact .inl (by simp [eq])
  all_goals
    right
    simp [eq, Registry.enqueued, Registry.setSlot]

/-- A step never turns the schedule epoch of an execution back. -/
theorem Move.epoch (seated : system.Seated) (move : Move system after) {id : ℕ}
    (before : (system.registry.slots index).start = some id)
    (now : (after.registry.slots index).start = some id) :
    (system.registry.slots index).scheduleEpoch ≤ (after.registry.slots index).scheduleEpoch := by
  have used {place : Fin capacity} (free : (system.registry.slots place).state = .free)
      (same : index = place) : False := by
    rw [same, (seated.consistent.sound place).start.mpr free] at before
    cases before
  cases move with
  | launchedPooled nextWorker free launched broadcast =>
      exact epoch_update launched.slots fun same => (used free same).elim
  | launchFailed free launched broadcast =>
      exact epoch_update launched.slots fun same => (used free same).elim
  | launchCreating token free launched tokens =>
      exact epoch_update launched.slots fun same => (used free same).elim
  | @publishedThread id start request launcher =>
      refine epoch_update (Registry.publishThread_slots ..) fun _ => ?_
      unfold Registry.publishedSlot
      split <;> exact le_rfl
  | abandoned launcher =>
      refine epoch_update rfl fun _ => ?_
      exact le_rfl
  | begun phase starting born =>
      refine epoch_update rfl fun _ => ?_
      exact le_rfl
  | yielded phase =>
      refine epoch_update rfl fun _ => ?_
      exact le_rfl
  | exited status phase =>
      refine epoch_update rfl fun _ => ?_
      exact le_rfl
  | delivered phase =>
      refine epoch_update rfl fun _ => ?_
      exact le_rfl
  | slept rests due covers nothing => exact (epoch_due due index).ge
  | @started worker registry previous place start rests due free queued listed record here =>
      refine (epoch_due due index).ge.trans ?_
      have begins : (registry.quantumStarted worker previous place).slots =
          Function.update registry.slots place (Registry.startedSlot (registry.slots place)) := rfl
      exact epoch_update begins fun _ => le_rfl
  | prepared phase runnable current =>
      refine epoch_update rfl fun _ => ?_
      exact le_rfl
  | @scheduled place live =>
      change _ ≤ ((system.registry.scheduleSlot place).1.slots index).scheduleEpoch
      by_cases same : index = place
      · subst same
        rcases epoch_scheduled seated.consistent live with ⟨-, eq⟩ | ⟨-, next⟩
        · rw [eq]
        · rw [next]
          exact Nat.le_succ _
      · rw [scheduleSlot_other seated.consistent live same]
  | @marked registry marked =>
      obtain ⟨pinned, blocked, eq⟩ := marked.slots index
      change _ ≤ (registry.slots index).scheduleEpoch
      rw [eq]
  | deadlineSet deadlineNs running =>
      refine epoch_update rfl fun _ => ?_
      exact le_rfl
  | popped head here =>
      refine epoch_update rfl fun _ => ?_
      exact le_rfl
  | claimed idle dequeued here =>
      refine epoch_update rfl fun _ => ?_
      exact le_rfl
  | @rejoined joiner place number phase =>
      have gone : ((system.registry.rejoined place).slots place).start = none := by
        simp [Registry.rejoined, Registry.setSlot, Registry.freeSlot]
      refine epoch_update rfl fun same => ?_
      rw [same] at now
      cases gone.symm.trans now
  | _ => exact le_rfl

/-- A quantum that goes on without a read has acknowledged nothing new. -/
theorem Move.seen (seated : system.Seated) (move : Move system after) {epochs : List ℕ}
    (before : system.carriers carrier = .executing start epochs)
    (now : after.carriers carrier = .executing start epochs) :
    after.seenEpoch start.id = system.seenEpoch start.id := by
  have owns := (seated.executing before).2.2.2
  cases move with
  | @started worker registry previous index begun rests due free queued listed record here =>
      refine Function.update_of_ne (fun same => ?_) ..
      have mine : index = start.index := seated.same_slot (same ▸ here) owns.record
      rw [mine] at queued
      obtain ⟨-, pooled, parked, -⟩ := (due.mild.consistent.sound start.index).queued queued
      have alike := Registry.alike_of_core (due.mild.gentle.core start.index)
      have carried := (seated.executing before).2.1
      simp [BackendSlot.carried, ← alike.quantum, parked, ← alike.pooled, pooled] at carried
  | @epochRead other begun later phase =>
      refine Function.update_of_ne (fun same => ?_) ..
      have mine : carrier = other :=
        seated.same_record (by rw [before]; rfl) (by rw [phase]; rfl) same
      rw [mine] at before now
      rw [before] at phase
      obtain ⟨rfl, rfl⟩ := Phase.executing.inj phase
      have longer := (Phase.executing.inj ((move_self ..).symm.trans now)).2
      exact List.cons_ne_self _ _ longer
  | _ => rfl

theorem Unread.phase {epochs : List ℕ} (run : Unread carrier start epochs system after) :
    after.carriers carrier = .executing start epochs := by
  cases run with
  | here phase => exact phase
  | step _ _ phase => exact phase

theorem Within.phase (run : Within carrier start system after) :
    ∃ epochs, after.carriers carrier = .executing start epochs := by
  cases run with
  | here phase => exact ⟨_, phase⟩
  | step _ _ phase => exact ⟨_, phase⟩

theorem Unread.within {epochs : List ℕ} (run : Unread carrier start epochs system after) :
    Within carrier start system after := by
  induction run with
  | here phase => exact .here phase
  | step _ taken phase induction => exact .step induction taken phase

/-- The schedule epoch of an execution grows while a carrier executes it. -/
theorem Within.frame (run : Within carrier start system after)
    (seated : system.Seated) (heard : system.Heard) (numbered : Numbered system.registry) :
    after.Seated ∧ after.Heard ∧ Numbered after.registry ∧
      (system.registry.slots start.index).scheduleEpoch ≤
        (after.registry.slots start.index).scheduleEpoch := by
  induction run with
  | here => exact ⟨seated, heard, numbered, le_rfl⟩
  | step before taken phase induction =>
      obtain ⟨still, attentive, issued, grows⟩ := induction
      obtain ⟨result, outcome, moves⟩ := step_moves still _
      rw [taken] at outcome
      have move := moves _ (Except.ok.inj outcome).symm
      obtain ⟨epochs, executing⟩ := before.phase
      have owned := (still.executing executing).2.2.2.record
      have owns := ((move.seated still).executing phase).2.2.2.record
      exact ⟨move.seated still, move.heard still attentive, move.numbered still issued,
        grows.trans (move.epoch still owned owns)⟩

/-- Nothing is acknowledged in a run without a read. -/
theorem Unread.seen {epochs : List ℕ} (run : Unread carrier start epochs system after)
    (seated : system.Seated) (heard : system.Heard) (numbered : Numbered system.registry) :
    after.seenEpoch start.id = system.seenEpoch start.id := by
  induction run with
  | here => rfl
  | step before taken phase induction =>
      have still := (before.within.frame seated heard numbered).1
      obtain ⟨result, outcome, moves⟩ := step_moves still _
      rw [taken] at outcome
      have move := moves _ (Except.ok.inj outcome).symm
      exact (move.seen still before.phase phase).trans induction

/-- The epoch that a quantum yields with has to be the present one. -/
theorem prepareYield_stale (consistent : registry.Consistent) (numbered : Numbered registry)
    (quantum : (registry.slots index).quantumRunning = true) {epoch : ℕ}
    (later : epoch < (registry.slots index).scheduleEpoch) (runnable : Bool) :
    registry.prepareYield (registry.slots index).handle.id epoch runnable = .error .EAGAIN := by
  obtain ⟨running, pooled, -⟩ := (consistent.sound index).quantum quantum
  have slot : registry.quantumSlot (registry.slots index).handle.id = .ok index := by
    simp [Registry.quantumSlot, runningSlot_issued consistent numbered running, pooled, quantum,
      bind, Except.bind]
  rw [Registry.prepareYield, slot, except_ok_bind, if_pos later.ne']

/-- A quantum with a schedule that it has not seen is queued again when it yields. -/
theorem yield_requeues {system ended : System capacity pool} (seated : system.Seated)
    (heard : system.Heard) {worker : Fin pool} {epochs : List ℕ}
    (phase : system.carriers (.worker worker) = .executing start epochs)
    (unseen : system.seenEpoch start.id < (system.registry.slots start.index).scheduleEpoch)
    {code cleanup : ℤ}
    (taken : system.step (.complete (.worker worker) { kind := .yield, code := code } cleanup) =
      .ok (some ended)) : (ended.registry.slots start.index).queued = true := by
  obtain ⟨-, -, quantum, owns⟩ := seated.executing phase
  have same : (system.registry.slots start.index).handle.id = start.handle.id := by
    rw [owns.handle]
  have status : exitStatus (workerOf (.worker worker)) { kind := .yield, code := code } cleanup =
      { kind := .yield, code := code } := by
    simp [exitStatus, workerOf]
  have done : system.registry.completeExecution start.index start.handle
      { kind := .yield, code := code } (workerOf (.worker worker)) =
        .ok (system.registry.yielded worker start.index) :=
    Registry.completeExecution_yield seated.consistent quantum same rfl
  simp only [step, complete, phase, status, done, except_ok_bind] at taken
  obtain rfl := Option.some.inj (Except.ok.inj taken)
  have again := (heard.slots start.index start.id owns.record).requested quantum unseen
  simpa [move, unlock, Registry.yielded, Registry.setSlot, Registry.yieldedSlot] using again

/-- Behind a schedule of a quantum the epoch is past all that the quantum has seen before. -/
theorem Within.scheduled {worker : Fin pool} {start : Start capacity} {epochs : List ℕ}
    {system after : System capacity pool} (seated : system.Seated) (heard : system.Heard)
    (numbered : Numbered system.registry)
    (phase : system.carriers (.worker worker) = .executing start epochs)
    (scheduled : (system.registry.scheduleSlot start.index).2 = none)
    (run : Within (.worker worker) start
      (system.unlock (system.registry.scheduleSlot start.index).1) after) :
    after.Seated ∧ after.Heard ∧ Numbered after.registry ∧
      system.seenEpoch start.id < (after.registry.slots start.index).scheduleEpoch := by
  obtain ⟨running, -, -, owns⟩ := seated.executing phase
  have move : Move system (system.unlock (system.registry.scheduleSlot start.index).1) :=
    .scheduled (.inr running)
  have next : ((system.registry.scheduleSlot start.index).1.slots start.index).scheduleEpoch =
      (system.registry.slots start.index).scheduleEpoch + 1 := by
    rcases epoch_scheduled seated.consistent (.inr running) with ⟨full, -⟩ | ⟨-, next⟩
    · rw [scheduled] at full
      cases full
    · exact next
  obtain ⟨still, attentive, issued, grows⟩ :=
    run.frame (move.seated seated) (move.heard seated heard) (move.numbered seated numbered)
  refine ⟨still, attentive, issued, ?_⟩
  calc system.seenEpoch start.id ≤ (system.registry.slots start.index).scheduleEpoch :=
        (heard.slots start.index start.id owns.record).bound
    _ < (system.registry.slots start.index).scheduleEpoch + 1 := Nat.lt_succ_self _
    _ = ((system.registry.scheduleSlot start.index).1.slots start.index).scheduleEpoch := next.symm
    _ ≤ (after.registry.slots start.index).scheduleEpoch := grows

/-- No schedule of a pooled execution is lost across a yield.  A schedule behind an epoch that a
quantum has read makes every later `postgamma_backend_prepare_yield` of the quantum with that epoch
fail with `EAGAIN`, whatever the quantum reads since, and queues the execution again when the
quantum yields without another read; a schedule of an idle execution queues it; and the schedules of
an idle execution were all seen by a quantum, at its start or by a read of its epoch. -/
theorem no_lost_wake {config : ProviderConfig} (accepted : config.Accepted capacity pool)
    {system : System capacity pool} (reachable : Reachable config system) :
    (∀ worker start epochs after,
      system.carriers (.worker worker) = .executing start epochs →
      (system.registry.scheduleSlot start.index).2 = none →
      Within (.worker worker) start
        (system.unlock (system.registry.scheduleSlot start.index).1) after →
      (∀ epoch ∈ epochs, ∀ runnable,
        after.registry.prepareYield start.handle.id epoch runnable = .error .EAGAIN) ∧
      (Unread (.worker worker) start epochs
          (system.unlock (system.registry.scheduleSlot start.index).1) after →
        ∀ code cleanup ended,
          after.step (.complete (.worker worker) { kind := .yield, code := code } cleanup) =
            .ok (some ended) → (ended.registry.slots start.index).queued = true)) ∧
    (∀ index, (system.registry.slots index).idle = true →
      (system.registry.scheduleSlot index).2 = none →
      ((system.registry.scheduleSlot index).1.slots index).queued = true) ∧
    ∀ index id, (system.registry.slots index).start = some id →
      (system.registry.slots index).idle = true →
      system.seenEpoch id = (system.registry.slots index).scheduleEpoch := by
  have seated := reachable.seated accepted
  have heard := reachable.heard accepted
  have numbered := reachable.numbered accepted
  refine ⟨fun worker start epochs after phase scheduled run => ?_,
    fun index idle scheduled => ?_, fun index id record => (heard.slots index id record).parked⟩
  · obtain ⟨still, hears, issued, unseen⟩ :=
      Within.scheduled seated heard numbered phase scheduled run
    obtain ⟨later, executing⟩ := run.phase
    obtain ⟨-, -, quantum, owns⟩ := still.executing executing
    refine ⟨fun epoch member runnable => ?_, fun unread code cleanup ended taken => ?_⟩
    · rw [← owns.handle]
      refine prepareYield_stale still.consistent issued quantum ?_ runnable
      exact (heard.epochs _ start epochs phase epoch member).trans_lt unseen
    · have move : Move system (system.unlock (system.registry.scheduleSlot start.index).1) :=
        .scheduled (.inr (seated.executing phase).1)
      have seen := unread.seen (move.seated seated) (move.heard seated heard)
        (move.numbered seated numbered)
      have same : after.seenEpoch start.id = system.seenEpoch start.id := seen
      exact yield_requeues still hears unread.phase (by rw [same]; exact unseen) taken
  · obtain ⟨-, running, waiting, parked⟩ := BackendSlot.idle_iff.mp idle
    rcases Registry.scheduleSlot_cases seated.consistent (.inr running) with ⟨-, eq⟩ |
      ⟨dedicated, -⟩ | ⟨-, quantum, -⟩ | ⟨-, -, queued, -⟩ | ⟨-, -, -, eq⟩
    · rw [eq] at scheduled
      cases scheduled
    · rw [(BackendSlot.idle_iff.mp idle).1] at dedicated
      cases dedicated
    · rw [parked] at quantum
      cases quantum
    · rw [waiting] at queued
      cases queued
    · simp [eq, Registry.enqueued, Registry.setSlot]

/-- A client is launched, its quantum starts and reads its schedule epoch. -/
def readingRun : List (Action 2) :=
  [.launch clientRequest, .runWorker firstWorker 1, .scheduleEpoch (.worker firstWorker)]

/-- The execution of the client. -/
def readingStart : Start 2 :=
  { id := 0, index := firstSlot
    handle :=
      { id := 2 ^ 32 + 1, compatPid := 1000000000, backendType := 0, executionClass := .client } }

/-- A schedule behind the read refuses the yield with the epoch that was read. -/
theorem no_lost_wake_readingRun :
    ∃ system, (create pairConfig : System 2 2).run readingRun = some system ∧
      (system.unlock (system.registry.scheduleSlot 0).1).registry.prepareYield
        readingStart.handle.id 0 false = .error .EAGAIN := by
  have facts : ((create pairConfig : System 2 2).run readingRun).map
      (fun system => (system.carriers (.worker 0), (system.registry.scheduleSlot 0).2,
        (system.unlock (system.registry.scheduleSlot 0).1).carriers (.worker 0))) =
      some (.executing readingStart [0], none, .executing readingStart [0]) := by decide
  obtain ⟨system, runs, seen⟩ := Option.map_eq_some_iff.mp facts
  obtain ⟨phase, rest⟩ := Prod.mk.inj seen
  obtain ⟨scheduled, still⟩ := Prod.mk.inj rest
  have reachable := Reachable.create.run runs
  refine ⟨system, runs, ?_⟩
  exact ((no_lost_wake pairConfig_accepted reachable).1 0 readingStart [0] _ phase scheduled
    (.here still)).1 0 List.mem_cons_self false

/-- The client is scheduled while its quantum runs; the quantum reads its epoch, prepares to yield
with it and yields. -/
def acknowledgingRun : List (Action 2) :=
  [.launch clientRequest, .runWorker firstWorker 1, .wakeByCompatPid 1000000000,
    .scheduleEpoch (.worker firstWorker), .prepareYield (.worker firstWorker) 1 false,
    .complete (.worker firstWorker) { kind := .yield, code := 0 } 0]

/-- A schedule that the running quantum has read leaves the execution idle, with no later quantum
start. -/
theorem acknowledged_without_quantum :
    ¬∀ system : System 2 2, Reachable pairConfig system → ∀ index id,
      (system.registry.slots index).start = some id →
      (system.registry.slots index).idle = true → (system.registry.slots index).deadlineNs = 0 →
      ¬system.startedEpoch id < (system.registry.slots index).scheduleEpoch := by
  intro claimed
  have facts : ((create pairConfig : System 2 2).run acknowledgingRun).map
      (fun system => ((system.registry.slots 0).start, (system.registry.slots 0).idle,
        (system.registry.slots 0).deadlineNs, system.startedEpoch 0,
        (system.registry.slots 0).scheduleEpoch)) = some (some 0, true, 0, 0, 1) := by decide
  obtain ⟨system, runs, seen⟩ := Option.map_eq_some_iff.mp facts
  simp only [Prod.mk.injEq] at seen
  obtain ⟨record, idle, deadline, started, epoch⟩ := seen
  refine claimed system (Reachable.create.run runs) 0 0 record idle deadline ?_
  rw [started, epoch]
  exact Nat.one_pos

end System

end Postgamma.Runtime
