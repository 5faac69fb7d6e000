import Mathlib
import Postgamma.Runtime.RegistryExecutions

/-!
# Who holds which slot

A thread between two critical sections relies on what it has found in its slot.  `Seated` says that
what every launching call, every carrier and every joining call relies on still holds, that no two
of a kind rely on the same slot, and that the registry is consistent; every step keeps it, and none
aborts.
-/

namespace Postgamma.Runtime

variable {capacity pool : ℕ}

def Carrier.pooled : Carrier pool → Bool
  | thread _ => false
  | worker _ => true

namespace Phase

/-- The carrier runs a main function. -/
def runs : Phase capacity → Bool
  | executing _ _ => true
  | _ => false

/-- What a carrier in a phase relies on in its slot. -/
def Stands (carrier : Carrier pool) (slot : BackendSlot pool) : Phase capacity → Prop
  | born _ => slot.pooled = false ∧ (slot.state = .starting ∨ slot.state = .running)
  | executing _ _ => slot.state = .running ∧ slot.pooled = carrier.pooled ∧
      slot.quantumRunning = carrier.pooled
  | published _ => slot.ended = true ∧ slot.completionDeliveryComplete = false ∧
      slot.pooled = carrier.pooled
  | woken _ => slot.ended = true ∧ slot.completionDeliveryComplete = false ∧
      slot.pooled = carrier.pooled
  | _ => True

/-- The phases of a carrier, with the flag of a worker. -/
def Suits (running : Fin pool → Bool) : Carrier pool → Phase capacity → Prop
  | .thread id, phase => phase = absent ∨ phase = finished ∨ ∃ start, phase.seat = some start ∧
      start.id = id
  | .worker index, phase => phase ≠ absent ∧ phase ≠ finished ∧ (∀ start, phase ≠ born start) ∧
      running index = phase.runs

theorem signal_seat (phase : Phase capacity) : phase.signal.seat = phase.seat := by
  cases phase <;> rfl

theorem signal_stands {carrier : Carrier pool} {slot : BackendSlot pool} {phase : Phase capacity}
    (stands : phase.Stands carrier slot) : phase.signal.Stands carrier slot := by
  cases phase <;> exact stands

theorem signal_suits {running : Fin pool → Bool} {carrier : Carrier pool} {phase : Phase capacity}
    (suits : phase.Suits running carrier) : phase.signal.Suits running carrier := by
  cases phase with
  | asleep deadline signalled =>
      cases carrier with
      | thread id =>
          rcases suits with none | none | ⟨start, seat, -⟩
          · cases none
          · cases none
          · cases seat
      | worker index =>
          exact ⟨by simp [signal], by simp [signal], by simp [signal], suits.2.2.2⟩
  | _ => exact suits

end Phase

/-- The slot belongs to the start record. -/
structure Start.Owns (start : Start capacity) (slot : BackendSlot pool) : Prop where
  record : slot.start = some start.id
  handle : slot.handle = start.handle

/-- What a carrier relies on. -/
structure Phase.Fits (registry : Registry capacity pool) (carrier : Carrier pool)
    (phase : Phase capacity) : Prop where
  suits : phase.Suits registry.workerRunning carrier
  owns : ∀ start, phase.seat = some start → start.Owns (registry.slots start.index)
  stands : ∀ start, phase.seat = some start →
    phase.Stands carrier (registry.slots start.index)

/-- The slot of a launching call: its thread has not been published. -/
structure Start.Unborn (start : Start capacity) (registry : Registry capacity pool) : Prop where
  owns : start.Owns (registry.slots start.index)
  starting : (registry.slots start.index).state = .starting
  unborn : (registry.slots start.index).thread = false

namespace Launcher

/-- What a launching call relies on. -/
def Fits (registry : Registry capacity pool) (carriers : Carrier pool → Phase capacity) (id : ℕ) :
    Launcher capacity → Prop
  | idle => True
  | creating start request => start.id = id ∧ start.Unborn registry ∧
      start.handle.executionClass = request.executionClass ∧ carriers (.thread id) = .absent
  | created start request => start.id = id ∧ start.Unborn registry ∧
      start.handle.executionClass = request.executionClass ∧ carriers (.thread id) = .born start
  | refused start => start.id = id ∧ start.Unborn registry ∧ carriers (.thread id) = .absent

/-- The slot of a launching call. -/
def seat : Launcher capacity → Option (Start capacity)
  | idle => none
  | creating start _ => some start
  | created start _ => some start
  | refused start => some start

end Launcher

namespace Joiner

/-- The slot and the start record of a joining call. -/
def seat : Joiner capacity → Option (Fin capacity × ℕ)
  | claimed index id => some (index, id)
  | joined index id => some (index, id)
  | destroying index id => some (index, id)
  | _ => none

/-- What a joining call relies on; it never fails behind its claim. -/
structure Fits (registry : Registry capacity pool) (joiner : Joiner capacity) : Prop where
  sound : ∀ errno, joiner ≠ failed errno
  start : ∀ index id, joiner.seat = some (index, id) → (registry.slots index).start = some id
  joining : ∀ index id, joiner.seat = some (index, id) → (registry.slots index).state = .joining
  delivered : ∀ index id, joiner = destroying index id →
    (registry.slots index).completionDeliveryComplete = true

end Joiner

theorem Start.Owns.of_alike {start : Start capacity} {old new : BackendSlot pool}
    (owns : start.Owns old) (same : Registry.Alike new old) : start.Owns new :=
  ⟨same.start.trans owns.record, same.handle.trans owns.handle⟩

namespace Phase

variable {carrier : Carrier pool} {phase : Phase capacity}

theorem stands_congr {old new : BackendSlot pool} (state : new.state = old.state)
    (pooled : new.pooled = old.pooled) (quantum : new.quantumRunning = old.quantumRunning)
    (delivery : new.completionDeliveryComplete = old.completionDeliveryComplete)
    (stands : phase.Stands carrier old) : phase.Stands carrier new := by
  have ended : new.ended = old.ended := by rw [BackendSlot.ended, BackendSlot.ended, state]
  cases phase with
  | born => exact ⟨pooled.trans stands.1, by rw [state]; exact stands.2⟩
  | executing => exact ⟨state.trans stands.1, pooled.trans stands.2.1, quantum.trans stands.2.2⟩
  | published =>
      exact ⟨ended.trans stands.1, delivery.trans stands.2.1, pooled.trans stands.2.2⟩
  | woken => exact ⟨ended.trans stands.1, delivery.trans stands.2.1, pooled.trans stands.2.2⟩
  | _ => trivial

theorem stands_of_alike {old new : BackendSlot pool}
    (same : Registry.Alike new old) (stands : phase.Stands carrier old) :
    phase.Stands carrier new :=
  stands_congr same.state same.pooled same.quantum same.delivery stands

theorem Fits.signal {registry : Registry capacity pool} (fits : phase.Fits registry carrier) :
    phase.signal.Fits registry carrier := by
  refine ⟨signal_suits fits.suits, fun start seat => ?_, fun start seat => ?_⟩
  · rw [signal_seat] at seat
    exact fits.owns start seat
  · rw [signal_seat] at seat
    exact signal_stands (fits.stands start seat)

/-- A carrier whose slot, if any, it can still rely on. -/
theorem Fits.change {before after : Registry capacity pool} (fits : phase.Fits before carrier)
    (workers : ∀ index, carrier = .worker index →
      after.workerRunning index = before.workerRunning index)
    (keeps : ∀ start, phase.seat = some start → start.Owns (before.slots start.index) →
      phase.Stands carrier (before.slots start.index) →
      start.Owns (after.slots start.index) ∧ phase.Stands carrier (after.slots start.index)) :
    phase.Fits after carrier := by
  have kept (start : Start capacity) (seat : phase.seat = some start) :=
    keeps start seat (fits.owns start seat) (fits.stands start seat)
  refine ⟨?_, fun start seat => (kept start seat).1, fun start seat => (kept start seat).2⟩
  cases carrier with
  | thread id => exact fits.suits
  | worker index =>
      obtain ⟨present, unfinished, unborn, flag⟩ := fits.suits
      exact ⟨present, unfinished, unborn, (workers index rfl).trans flag⟩

theorem Fits.frame {before after : Registry capacity pool} (fits : phase.Fits before carrier)
    (workers : ∀ index, carrier = .worker index →
      after.workerRunning index = before.workerRunning index)
    (same : ∀ start, phase.seat = some start →
      Registry.Alike (after.slots start.index) (before.slots start.index)) :
    phase.Fits after carrier :=
  fits.change workers fun start seat owns stands =>
    ⟨owns.of_alike (same start seat), stands_of_alike (same start seat) stands⟩

end Phase

variable {before after : Registry capacity pool}

theorem Launcher.Fits.frame
    {carriers carriers' : Carrier pool → Phase capacity} {id : ℕ} {launcher : Launcher capacity}
    (fits : launcher.Fits before carriers id)
    (same : ∀ start, launcher.seat = some start →
      Registry.Alike (after.slots start.index) (before.slots start.index))
    (thread : ∀ start, launcher.seat = some start → carriers' (.thread id) = carriers (.thread id)) :
    launcher.Fits after carriers' id := by
  have unborn (start : Start capacity) (seat : launcher.seat = some start)
      (old : start.Unborn before) : start.Unborn after :=
    { owns := old.owns.of_alike (same start seat)
      starting := (same start seat).state.trans old.starting
      unborn := (same start seat).thread.trans old.unborn }
  cases launcher with
  | idle => trivial
  | creating start request =>
      obtain ⟨number, old, kind, absent⟩ := fits
      exact ⟨number, unborn start rfl old, kind, (thread start rfl).trans absent⟩
  | created start request =>
      obtain ⟨number, old, kind, born⟩ := fits
      exact ⟨number, unborn start rfl old, kind, (thread start rfl).trans born⟩
  | refused start =>
      obtain ⟨number, old, absent⟩ := fits
      exact ⟨number, unborn start rfl old, (thread start rfl).trans absent⟩

theorem Launcher.Fits.unborn {registry : Registry capacity pool}
    {carriers : Carrier pool → Phase capacity} {id : ℕ} {launcher : Launcher capacity}
    (fits : launcher.Fits registry carriers id) {start : Start capacity}
    (seat : launcher.seat = some start) : start.Unborn registry ∧ start.id = id := by
  cases launcher with
  | idle => cases seat
  | creating other request =>
      obtain rfl := Option.some.inj seat
      exact ⟨fits.2.1, fits.1⟩
  | created other request =>
      obtain rfl := Option.some.inj seat
      exact ⟨fits.2.1, fits.1⟩
  | refused other =>
      obtain rfl := Option.some.inj seat
      exact ⟨fits.2.1, fits.1⟩

theorem Joiner.Fits.change {joiner : Joiner capacity} (fits : joiner.Fits before)
    (keeps : ∀ index id, joiner.seat = some (index, id) →
      (before.slots index).state = .joining → (before.slots index).start = some id →
      (after.slots index).state = .joining ∧ (after.slots index).start = some id ∧
        ((before.slots index).completionDeliveryComplete = true →
          (after.slots index).completionDeliveryComplete = true)) : joiner.Fits after := by
  have kept (index : Fin capacity) (id : ℕ) (seat : joiner.seat = some (index, id)) :=
    keeps index id seat (fits.joining index id seat) (fits.start index id seat)
  refine ⟨fits.sound, fun index id seat => (kept index id seat).2.1,
    fun index id seat => (kept index id seat).1, fun index id at_end => ?_⟩
  have seat : joiner.seat = some (index, id) := by rw [at_end]; rfl
  exact (kept index id seat).2.2 (fits.delivered index id at_end)

theorem Joiner.Fits.frame {joiner : Joiner capacity} (fits : joiner.Fits before)
    (same : ∀ index id, joiner.seat = some (index, id) →
      Registry.Alike (after.slots index) (before.slots index)) :
    joiner.Fits after := by
  refine fits.change fun index id seat joining start => ?_
  have alike := same index id seat
  exact ⟨alike.state.trans joining, alike.start.trans start,
    fun delivered => alike.delivery.trans delivered⟩

namespace System

/-- Every thread can rely on what it has found. -/
structure Seated (system : System capacity pool) : Prop where
  consistent : system.registry.Consistent
  settled : system.registry.broadcast = false
  recorded : ∀ index id, (system.registry.slots index).start = some id →
    system.starts[id]? =
      some { id := id, index := index, handle := (system.registry.slots index).handle }
  carriers : ∀ carrier, (system.carriers carrier).Fits system.registry carrier
  alone : ∀ carrier other start rival, (system.carriers carrier).seat = some start →
    (system.carriers other).seat = some rival → start.index = rival.index → carrier = other
  launchers : ∀ id, (system.launchers id).Fits system.registry system.carriers id
  joiners : ∀ joiner, (system.joiners joiner).Fits system.registry
  joinersAlone : ∀ joiner other index id rival, (system.joiners joiner).seat = some (index, id) →
    (system.joiners other).seat = some (index, rival) → joiner = other
  unstarted : ∀ id, system.starts.length ≤ id →
    system.launchers id = .idle ∧ system.carriers (.thread id) = .absent

theorem unlock_seat (system : System capacity pool) (registry : Registry capacity pool)
    (carrier : Carrier pool) :
    ((system.unlock registry).carriers carrier).seat = (system.carriers carrier).seat := by
  unfold unlock
  dsimp only
  split
  · exact Phase.signal_seat _
  · rfl

variable {system : System capacity pool}

/-- A thread never waits on the registry as a sleeper. -/
theorem Seated.unlock_thread (seated : system.Seated) (registry : Registry capacity pool) (id : ℕ) :
    (system.unlock registry).carriers (.thread id) = system.carriers (.thread id) := by
  unfold unlock
  dsimp only
  split
  · have suits := (seated.carriers (.thread id)).suits
    change (system.carriers (.thread id)).signal = _
    generalize system.carriers (.thread id) = phase at suits ⊢
    cases phase with
    | asleep deadline signalled =>
        rcases suits with none | none | ⟨start, seat, -⟩
        · cases none
        · cases none
        · cases seat
    | _ => rfl
  · rfl

theorem unlock_fits (registry : Registry capacity pool)
    {carrier : Carrier pool}
    (fits : (system.carriers carrier).Fits after carrier) :
    ((system.unlock registry).carriers carrier).Fits after carrier := by
  unfold unlock
  dsimp only
  split
  · exact fits.signal
  · exact fits

/-- A critical section that neither starts nor ends anything. -/
theorem Seated.mild (seated : system.Seated)
    {registry : Registry capacity pool} (mild : Registry.Mild system.registry registry) :
    (system.unlock registry).Seated := by
  have alike (index : Fin capacity) := Registry.alike_of_core (mild.gentle.core index)
  refine
    { consistent := mild.consistent.unlocked _ _
      settled := rfl
      recorded := fun index id start => ?_
      carriers := fun carrier => unlock_fits _ ((seated.carriers carrier).frame
        (fun index _ => congrFun mild.gentle.workers index) fun start _ => alike start.index)
      alone := fun carrier other start rival => ?_
      launchers := fun id => (seated.launchers id).frame (fun start _ => alike start.index)
        fun _ _ => seated.unlock_thread registry id
      joiners := fun joiner => (seated.joiners joiner).frame fun index _ _ => alike index
      joinersAlone := seated.joinersAlone
      unstarted := fun id fresh => ?_ }
  · rw [show ((system.unlock registry).registry.slots index).handle =
      (system.registry.slots index).handle from (alike index).handle]
    exact seated.recorded index id ((alike index).start.symm.trans start)
  · rw [unlock_seat, unlock_seat]
    exact seated.alone carrier other start rival
  · rw [seated.unlock_thread registry id]
    exact seated.unstarted id fresh

theorem move_self (system : System capacity pool) (carrier : Carrier pool)
    (phase : Phase capacity) : (system.move carrier phase).carriers carrier = phase :=
  Function.update_self ..

theorem move_other (system : System capacity pool) {carrier other : Carrier pool}
    (phase : Phase capacity) (apart : other ≠ carrier) :
    (system.move carrier phase).carriers other = system.carriers other :=
  Function.update_of_ne apart ..

/-- A launching call that holds a slot has a thread that is absent or born. -/
theorem Seated.launcher_thread (seated : system.Seated) {id : ℕ}
    {start : Start capacity} (seat : (system.launchers id).seat = some start) :
    system.carriers (.thread id) = .absent ∨ system.carriers (.thread id) = .born start := by
  have fits := seated.launchers id
  generalize system.launchers id = launcher at seat fits
  cases launcher with
  | idle => cases seat
  | creating other request => exact .inl fits.2.2.2
  | created other request =>
      obtain rfl := Option.some.inj seat
      exact .inr fits.2.2.2
  | refused other => exact .inl fits.2.2

/-- A carrier that alone holds a slot rewrites it and moves on. -/
theorem Seated.advance (seated : system.Seated)
    {registry : Registry capacity pool} (consistent : registry.Consistent) {actor : Carrier pool}
    {phase : Phase capacity} {index : Fin capacity} {slot : BackendSlot pool}
    (slots : registry.slots = Function.update system.registry.slots index slot)
    (workers : ∀ worker, Carrier.worker worker ≠ actor →
      registry.workerRunning worker = system.registry.workerRunning worker)
    (fits : phase.Fits registry actor)
    (present : system.carriers actor ≠ .absent)
    (own : ∀ start, (system.carriers actor).seat = some start → start.index = index)
    (seat : ∀ start, phase.seat = some start → start.index = index)
    (others : ∀ carrier ≠ actor, ∀ start, (system.carriers carrier).seat = some start →
      start.index ≠ index)
    (launching : ∀ id start, (system.launchers id).seat = some start → start.index ≠ index)
    (joining : ∀ joiner id, (system.joiners joiner).seat = some (index, id) →
      (system.registry.slots index).state = .joining → slot.state = .joining ∧
        ((system.registry.slots index).completionDeliveryComplete = true →
          slot.completionDeliveryComplete = true))
    (record : slot.start = (system.registry.slots index).start)
    (handle : slot.handle = (system.registry.slots index).handle) :
    ((system.unlock registry).move actor phase).Seated := by
  have here : registry.slots index = slot := by rw [slots, Function.update_self]
  have elsewhere (place : Fin capacity) (apart : place ≠ index) :
      registry.slots place = system.registry.slots place := by
    rw [slots, Function.update_of_ne apart]
  have alike (place : Fin capacity) (apart : place ≠ index) :
      Registry.Alike (registry.slots place) (system.registry.slots place) := by
    rw [elsewhere place apart]
    exact Registry.alike_of_core rfl
  have outside (carrier : Carrier pool) (apart : carrier ≠ actor) :
      (((system.unlock registry).move actor phase).carriers carrier).seat =
        (system.carriers carrier).seat := by
    rw [move_other _ _ apart, unlock_seat]
  refine
    { consistent := consistent.unlocked _ _
      settled := rfl
      recorded := fun place id start => ?_
      carriers := fun carrier => ?_
      alone := fun carrier other start rival first second same => ?_
      launchers := fun id => ?_
      joiners := fun joiner => ?_
      joinersAlone := seated.joinersAlone
      unstarted := fun id fresh => ?_ }
  · change (registry.slots place).start = some id at start
    change system.starts[id]? = some { id := id, index := place, handle := (registry.slots place).handle }
    by_cases same : place = index
    · rw [same, here] at start ⊢
      rw [handle]
      exact seated.recorded index id (record.symm.trans start)
    · rw [elsewhere place same] at start ⊢
      exact seated.recorded place id start
  · by_cases same : carrier = actor
    · rw [same, move_self]
      exact { suits := fits.suits, owns := fits.owns, stands := fits.stands }
    · rw [move_other _ _ same]
      refine unlock_fits _ ((seated.carriers carrier).frame (fun worker eq => ?_) fun start seat => ?_)
      · exact workers worker (eq ▸ same)
      · exact alike start.index (others carrier same start seat)
  · by_cases one : carrier = actor
    · by_cases two : other = actor
      · rw [one, two]
      · rw [one, move_self] at first
        rw [outside other two] at second
        exact absurd (same.symm.trans (seat start first)) (others other two rival second)
    · rw [outside carrier one] at first
      by_cases two : other = actor
      · rw [two, move_self] at second
        exact absurd (same.trans (seat rival second)) (others carrier one start first)
      · rw [outside other two] at second
        exact seated.alone carrier other start rival first second same
  · refine (seated.launchers id).frame (fun start seat => ?_) fun start seat => ?_
    · exact alike start.index (launching id start seat)
    · have apart : Carrier.thread id ≠ actor := by
        rintro rfl
        rcases seated.launcher_thread seat with absent | born
        · exact present absent
        · exact launching id start seat (own start (by rw [born]; rfl))
      rw [move_other _ _ apart, seated.unlock_thread]
  · refine (seated.joiners joiner).change fun place id claim waits start => ?_
    change (registry.slots place).state = .joining ∧ (registry.slots place).start = some id ∧
      (_ → (registry.slots place).completionDeliveryComplete = true)
    by_cases same : place = index
    · subst same
      obtain ⟨state, delivery⟩ := joining joiner id claim waits
      rw [here]
      exact ⟨state, record.trans start, delivery⟩
    · rw [elsewhere place same]
      exact ⟨waits, start, fun delivered => delivered⟩
  · obtain ⟨idle, absent⟩ := seated.unstarted id fresh
    have apart : Carrier.thread id ≠ actor := by
      rintro rfl
      exact present absent
    rw [move_other _ _ apart, seated.unlock_thread]
    exact ⟨idle, absent⟩

section Carriers

variable {system : System capacity pool}

/-- Nobody else holds the slot of a carrier. -/
theorem Seated.others (seated : system.Seated) {actor : Carrier pool} {start : Start capacity}
    (seat : (system.carriers actor).seat = some start) :
    ∀ carrier ≠ actor, ∀ rival, (system.carriers carrier).seat = some rival →
      rival.index ≠ start.index :=
  fun carrier apart rival taken same => apart (seated.alone carrier actor rival start taken seat same)

/-- No launching call holds a slot that is not starting or has its thread. -/
theorem Seated.not_launching (seated : system.Seated) {index : Fin capacity}
    (past : (system.registry.slots index).state ≠ .starting ∨
      (system.registry.slots index).thread = true) :
    ∀ id start, (system.launchers id).seat = some start → start.index ≠ index := by
  rintro id start seat rfl
  have unborn := ((seated.launchers id).unborn seat).1
  rcases past with past | born
  · exact past unborn.starting
  · rw [unborn.unborn] at born
    cases born

/-- A carrier rewrites the slot that it holds and moves on. -/
theorem Seated.proceed (seated : system.Seated) {actor : Carrier pool} {start : Start capacity}
    (phase : Phase capacity) (seat : (system.carriers actor).seat = some start)
    {registry : Registry capacity pool} (consistent : registry.Consistent) {slot : BackendSlot pool}
    (slots : registry.slots = Function.update system.registry.slots start.index slot)
    (workers : ∀ worker, Carrier.worker worker ≠ actor →
      registry.workerRunning worker = system.registry.workerRunning worker)
    (suits : phase.Suits registry.workerRunning actor)
    (stays : phase.seat = none ∨ phase.seat = some start)
    (stands : phase.Stands actor slot)
    (past : (system.registry.slots start.index).state ≠ .starting ∨
      (system.registry.slots start.index).thread = true)
    (joining : (system.registry.slots start.index).state = .joining → slot.state = .joining ∧
      ((system.registry.slots start.index).completionDeliveryComplete = true →
        slot.completionDeliveryComplete = true))
    (record : slot.start = (system.registry.slots start.index).start)
    (handle : slot.handle = (system.registry.slots start.index).handle) :
    ((system.unlock registry).move actor phase).Seated := by
  have here : registry.slots start.index = slot := by rw [slots, Function.update_self]
  have owns := (seated.carriers actor).owns start seat
  have held (other : Start capacity) (holds : phase.seat = some other) : other = start := by
    rcases stays with leaves | stays
    · rw [leaves] at holds
      cases holds
    · rw [stays] at holds
      exact (Option.some.inj holds).symm
  refine seated.advance consistent slots workers ⟨suits, ?_, ?_⟩ ?_ ?_ ?_ (seated.others seat)
    (seated.not_launching past) (fun _ _ _ => joining) record handle
  · intro other holds
    rw [held other holds, here]
    exact ⟨record.trans owns.record, handle.trans owns.handle⟩
  · intro other holds
    rw [held other holds, here]
    exact stands
  · intro absent
    rw [absent] at seat
    cases seat
  · intro other holds
    rw [seat] at holds
    rw [Option.some.inj holds]
  · intro other holds
    rw [held other holds]

theorem Seated.thread_start (seated : system.Seated) {id : ℕ} {start : Start capacity}
    (seat : (system.carriers (.thread id)).seat = some start) : start.id = id := by
  rcases (seated.carriers (.thread id)).suits with absent | finished | ⟨other, same, number⟩
  · rw [absent] at seat
    cases seat
  · rw [finished] at seat
    cases seat
  · rw [seat] at same
    rw [Option.some.inj same, number]

end Carriers

end System

end Postgamma.Runtime
