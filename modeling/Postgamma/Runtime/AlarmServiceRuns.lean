import Mathlib
import Postgamma.Library.Program
import Postgamma.Library.TwosComplement
import Postgamma.Runtime.AlarmService

/-!
# Runs of the alarm service

The heap holds the armed alarms of running slots along every run, the owner's wait covers them, and
a pass of the owner signals each alarm that is due exactly once.
-/

namespace Postgamma.Runtime.AlarmService

variable {capacity : ℕ}

/-- The first time behind `now` that is a whole number of intervals behind `due`. -/
def upcoming (now due interval : ℕ) : ℕ := due + ((now - due) / interval + 1) * interval

theorem upcoming_isLeast {now due interval : ℕ} (past : due ≤ now) (periodic : interval ≠ 0) :
    IsLeast {time | now < time ∧ ∃ periods, time = due + periods * interval}
      (upcoming now due interval) := by
  have positive := Nat.pos_of_ne_zero periodic
  refine ⟨⟨?_, _, rfl⟩, ?_⟩
  · have short := Nat.lt_mul_of_div_lt (Nat.lt_succ_self ((now - due) / interval)) positive
    rw [upcoming]
    exact lt_of_lt_of_le (by omega) (Nat.add_le_add_left short due)
  · rintro time ⟨later, periods, rfl⟩
    have more : (now - due) / interval < periods :=
      (Nat.div_lt_iff_lt_mul positive).2 (by omega)
    exact Nat.add_le_add_left (Nat.mul_le_mul_right interval more) due

/-- No operation of `following` wraps. -/
theorem following_eq {now due interval : ℕ} (past : due ≤ now) (bounded : now ≤ uint64Max) :
    following now due interval =
      if interval = 0 ∨ uint64Max < upcoming now due interval then 0
      else upcoming now due interval := by
  rw [following]
  by_cases once : interval = 0
  · rw [if_pos once, if_pos (.inl once)]
  · have positive := Nat.pos_of_ne_zero once
    have limit : uint64Max + 1 = 2 ^ 64 := rfl
    have elapsed : (now + 2 ^ 64 - due) % 2 ^ 64 = now - due :=
      sub_no_wrap (Nat.lt_of_le_of_lt bounded (by rw [← limit]; exact Nat.lt_succ_self _)) past
    have left : (uint64Max + 2 ^ 64 - due) % 2 ^ 64 = uint64Max - due :=
      sub_no_wrap (by rw [← limit]; exact Nat.lt_succ_self _) (past.trans bounded)
    rw [if_neg once]
    simp only [elapsed, left]
    generalize share : (now - due) / interval = periods
    have whole : upcoming now due interval = due + (periods + 1) * interval := by
      rw [upcoming, share]
    have fits : periods + 1 ≤ (uint64Max - due) / interval ↔
        upcoming now due interval ≤ uint64Max := by
      rw [Nat.le_div_iff_mul_le positive, whole]
      exact Nat.le_sub_iff_add_le' (past.trans bounded)
    by_cases small : upcoming now due interval ≤ uint64Max
    · have product : (periods + 1) * interval ≤ uint64Max :=
        (Nat.le_add_left _ due).trans (whole ▸ small)
      have factor : periods + 1 ≤ uint64Max :=
        (Nat.le_mul_of_pos_right _ positive).trans product
      have exact (value : ℕ) (below : value ≤ uint64Max) : value % 2 ^ 64 = value :=
        Nat.mod_eq_of_lt (limit ▸ Nat.lt_succ_of_le below)
      rw [exact _ factor, exact _ product, ← whole, exact _ small,
        if_pos ⟨factor, fits.2 small⟩, if_neg (by rintro (none | large) <;> omega)]
    · have wide : ¬(periods < uint64Max ∧
          (periods + 1) % 2 ^ 64 ≤ (uint64Max - due) / interval) := by
        rintro ⟨below, enough⟩
        rw [Nat.mod_eq_of_lt (limit ▸ Nat.succ_lt_succ below)] at enough
        exact small (fits.1 enough)
      rw [if_neg wide, if_pos (Or.inr (Nat.lt_of_not_le small))]

theorem following_settled {now due : ℕ} (interval : ℕ) (past : due ≤ now)
    (bounded : now ≤ uint64Max) :
    (following now due interval = 0 ∨ now < following now due interval) ∧
      following now due interval ≤ uint64Max := by
  rw [following_eq past bounded]
  split_ifs with stops
  · exact ⟨.inl rfl, Nat.zero_le _⟩
  · rw [not_or, Nat.not_lt] at stops
    exact ⟨.inr (upcoming_isLeast past stops.1).1.1, stops.2⟩

/-- What holds of the alarms at every moment. -/
structure Steady (service : AlarmService capacity) : Prop where
  sound : service.alarms.Sound
  room : service.alarms.capacity = capacity
  bounded : ∀ index, service.alarms.dueAt index ≤ uint64Max
  running : ∀ index, service.alarms.dueAt index ≠ 0 → (service.slots index).state = .running
  armed : ∀ index, service.alarms.dueAt index ≠ 0 →
    (service.slots index).armedBy = (service.slots index).execution
  delivered : ∀ index, (service.slots index).pending = true →
    (service.slots index).pendingOf = (service.slots index).execution
  published : ∀ publication ∈ service.published, publication.armedBy = publication.execution

/-- A wait that nobody has signalled ends no later than the first alarm. -/
def Covered (service : AlarmService capacity) : Prop :=
  service.asleep = true → service.signalled = false →
    ∀ index, service.alarms.dueAt index ≠ 0 → service.waitDeadline ≤ service.alarms.dueAt index

theorem Steady.set {service : AlarmService capacity} (steady : service.Steady)
    (index : Fin capacity) (deadline : ℕ) :
    ∃ alarms, service.alarms.set index deadline = some alarms ∧ alarms.Sound ∧
      alarms.capacity = capacity ∧
      alarms.dueAt = Function.update service.alarms.dueAt index deadline := by
  have room : Fintype.card (Fin capacity) ≤ service.alarms.capacity := by
    rw [Fintype.card_fin, steady.room]
  obtain ⟨alarms, done, sound, same, dues⟩ := steady.sound.set room index deadline
  exact ⟨alarms, done, sound, same.trans steady.room, dues⟩

/-- The alarm is armed and due. -/
def Due (service : AlarmService capacity) (now : ℕ) (index : Fin capacity) : Prop :=
  service.alarms.dueAt index ≠ 0 ∧ service.alarms.dueAt index ≤ now

instance (service : AlarmService capacity) (now : ℕ) : DecidablePred (service.Due now) :=
  fun _ => inferInstanceAs (Decidable (_ ∧ _))

def dueCount (service : AlarmService capacity) (now : ℕ) : ℕ :=
  (Finset.univ.filter (service.Due now)).card

def publications (service : AlarmService capacity) (index : Fin capacity) : ℕ :=
  service.published.countP fun publication => publication.index = index

/-- The slot behind a publication. -/
def signalledSlot (slot : AlarmSlot) : AlarmSlot :=
  { slot with pending := true, pendingOf := slot.armedBy }

/-- Every alarm that is due is signalled once and set to its following deadline. -/
structure Passed (now : ℕ) (before after : AlarmService capacity) : Prop where
  dueAt : ∀ index, after.alarms.dueAt index =
    if before.Due now index then
      following now (before.alarms.dueAt index) (before.slots index).intervalNs
    else before.alarms.dueAt index
  slots : ∀ index, after.slots index =
    if before.Due now index then signalledSlot (before.slots index) else before.slots index
  published : ∀ index, after.publications index =
    before.publications index + if before.Due now index then 1 else 0

theorem Passed.refl {now : ℕ} {service : AlarmService capacity}
    (none : ∀ index, ¬service.Due now index) : Passed now service service where
  dueAt := fun index => by rw [if_neg (none index)]
  slots := fun index => by rw [if_neg (none index)]
  published := fun index => by rw [if_neg (none index), Nat.add_zero]

/-- The service behind the signal of one alarm. -/
def fired (service : AlarmService capacity) (index : Fin capacity)
    (alarms : DeadlineHeap (Fin capacity)) : AlarmService capacity :=
  { service with alarms := alarms }.publish index

section Fire

variable {service : AlarmService capacity} {now : ℕ} {index : Fin capacity}
  {alarms : DeadlineHeap (Fin capacity)}

theorem fired_slots : (service.fired index alarms).slots =
    Function.update service.slots index (signalledSlot (service.slots index)) := rfl

theorem fired_due_iff (bounded : now ≤ uint64Max) (due : service.Due now index)
    (dues : alarms.dueAt = Function.update service.alarms.dueAt index
      (following now (service.alarms.dueAt index) (service.slots index).intervalNs))
    (other : Fin capacity) :
    (service.fired index alarms).Due now other ↔ service.Due now other ∧ other ≠ index := by
  change alarms.dueAt other ≠ 0 ∧ alarms.dueAt other ≤ now ↔ _
  rw [dues]
  by_cases same : other = index
  · subst same
    have settled := (following_settled (service.slots other).intervalNs due.2 bounded).1
    simp only [Function.update_self, ne_eq, not_true_eq_false, and_false, iff_false]
    omega
  · simp [same, Due]

theorem fired_passed (bounded : now ≤ uint64Max) (due : service.Due now index)
    (dues : alarms.dueAt = Function.update service.alarms.dueAt index
      (following now (service.alarms.dueAt index) (service.slots index).intervalNs))
    {after : AlarmService capacity} (passed : Passed now (service.fired index alarms) after) :
    Passed now service after := by
  have rest := fired_due_iff bounded due dues
  refine ⟨fun other => ?_, fun other => ?_, fun other => ?_⟩
  · rw [passed.dueAt]
    change (if _ then following now (alarms.dueAt other) _ else alarms.dueAt other) = _
    rw [dues]
    by_cases same : other = index
    · subst same
      rw [if_neg fun again => ((rest other).1 again).2 rfl, if_pos due, Function.update_self]
    · have agree : (service.fired index alarms).Due now other ↔ service.Due now other := by
        simp [rest, same]
      rw [if_congr agree rfl rfl, Function.update_of_ne same, fired_slots,
        Function.update_of_ne same]
  · rw [passed.slots, fired_slots]
    by_cases same : other = index
    · subst same
      rw [if_neg fun again => ((rest other).1 again).2 rfl, if_pos due, Function.update_self]
    · have agree : (service.fired index alarms).Due now other ↔ service.Due now other := by
        simp [rest, same]
      rw [if_congr agree rfl rfl, Function.update_of_ne same]
  · have one : (service.fired index alarms).publications other =
        service.publications other + if index = other then 1 else 0 := by
      simp [publications, fired, publish, setSlot, List.countP_cons]
    rw [passed.published, one]
    by_cases same : other = index
    · subst same
      rw [if_neg fun again => ((rest other).1 again).2 rfl, if_pos due, if_pos rfl]
    · have agree : (service.fired index alarms).Due now other ↔ service.Due now other := by
        simp [rest, same]
      rw [if_congr agree rfl rfl, if_neg (Ne.symm same), Nat.add_zero]

theorem fired_dueCount (bounded : now ≤ uint64Max) (due : service.Due now index)
    (dues : alarms.dueAt = Function.update service.alarms.dueAt index
      (following now (service.alarms.dueAt index) (service.slots index).intervalNs)) :
    (service.fired index alarms).dueCount now < service.dueCount now := by
  refine Finset.card_lt_card (Finset.ssubset_iff_subset_ne.2 ⟨fun other => ?_, fun same => ?_⟩)
  · simp only [Finset.mem_filter, Finset.mem_univ, true_and]
    exact fun still => ((fired_due_iff bounded due dues other).1 still).1
  · have member : index ∈ Finset.univ.filter (service.Due now) := by simpa using due
    rw [← same] at member
    simp only [Finset.mem_filter, Finset.mem_univ, true_and] at member
    exact ((fired_due_iff bounded due dues index).1 member).2 rfl

theorem Steady.fired (steady : service.Steady) (bounded : now ≤ uint64Max)
    (due : service.Due now index) (sound : alarms.Sound) (room : alarms.capacity = capacity)
    (dues : alarms.dueAt = Function.update service.alarms.dueAt index
      (following now (service.alarms.dueAt index) (service.slots index).intervalNs)) :
    (service.fired index alarms).Steady := by
  have earlier (other : Fin capacity) (armed : alarms.dueAt other ≠ 0) :
      service.alarms.dueAt other ≠ 0 := by
    by_cases same : other = index
    · exact same ▸ due.1
    · rwa [dues, Function.update_of_ne same] at armed
  have slot (other : Fin capacity) : other = index ∧
      (service.fired index alarms).slots other = signalledSlot (service.slots index) ∨
      other ≠ index ∧ (service.fired index alarms).slots other = service.slots other := by
    rw [fired_slots]
    by_cases same : other = index
    · exact .inl ⟨same, by rw [same, Function.update_self]⟩
    · exact .inr ⟨same, Function.update_of_ne same _ _⟩
  refine
    { sound := sound, room := room, bounded := fun other => ?_, running := fun other armed => ?_
      armed := fun other armed => ?_, delivered := fun other pending => ?_
      published := fun publication member => ?_ }
  · change alarms.dueAt other ≤ uint64Max
    rw [dues]
    by_cases same : other = index
    · rw [same, Function.update_self]
      exact (following_settled _ due.2 bounded).2
    · rw [Function.update_of_ne same]
      exact steady.bounded other
  · obtain ⟨rfl, new⟩ | ⟨-, kept⟩ := slot other
    · rw [new]
      exact steady.running other (earlier other armed)
    · rw [kept]
      exact steady.running other (earlier other armed)
  · obtain ⟨rfl, new⟩ | ⟨-, kept⟩ := slot other
    · rw [new]
      exact steady.armed other (earlier other armed)
    · rw [kept]
      exact steady.armed other (earlier other armed)
  · obtain ⟨rfl, new⟩ | ⟨-, kept⟩ := slot other
    · rw [new]
      exact steady.armed other due.1
    · rw [kept] at pending ⊢
      exact steady.delivered other pending
  · obtain rfl | old := List.mem_cons.1 member
    · exact steady.armed index due.1
    · exact steady.published publication old

end Fire

/-- The loop comes to its end behind all the alarms that are due, with the first of the others as
the deadline of the wait. -/
theorem passLoop_passed {now : ℕ} (bounded : now ≤ uint64Max) {wakes : Fin capacity → Bool}
    (awake : ∀ index, wakes index = true) {fuel : ℕ} {service : AlarmService capacity}
    (steady : service.Steady) (enough : service.dueCount now < fuel) :
    ∃ after next, passLoop now wakes fuel service = .ok (some (after, next)) ∧ after.Steady ∧
      Passed now service after ∧
      ∀ index, after.alarms.dueAt index ≠ 0 → next ≤ after.alarms.dueAt index := by
  induction fuel generalizing service with
  | zero => exact absurd enough (Nat.not_lt_zero _)
  | succ fuel induction =>
      rw [passLoop]
      by_cases empty : service.alarms.count = 0
      · rw [if_pos empty]
        have unarmed := steady.sound.empty empty
        exact ⟨service, _, rfl, steady, .refl fun index due => due.1 (unarmed index),
          fun index armed => absurd (unarmed index) armed⟩
      · obtain ⟨armed, first⟩ := steady.sound.root empty
        rw [if_neg empty]
        dsimp only
        rw [if_neg (not_not.2 (steady.running _ armed))]
        by_cases later : now < service.alarms.dueAt (service.alarms.entries 0)
        · rw [if_pos later]
          exact ⟨service, _, rfl, steady,
            .refl fun index due => absurd (first index due.1) (by have := due.2; omega), first⟩
        · have due : service.Due now (service.alarms.entries 0) :=
            ⟨armed, Nat.le_of_not_lt later⟩
          obtain ⟨alarms, done, sound, room, dues⟩ := steady.set (service.alarms.entries 0)
            (following now (service.alarms.dueAt (service.alarms.entries 0))
              (service.slots (service.alarms.entries 0)).intervalNs)
          rw [if_neg later, done]
          dsimp only
          rw [if_pos (awake _)]
          have fewer := fired_dueCount bounded due dues
          obtain ⟨after, next, looped, kept, passed, covers⟩ :=
            induction (steady.fired bounded due sound room dues) (by omega)
          exact ⟨after, next, looped, kept, fired_passed bounded due dues passed, covers⟩

/-- A wake that fails only stops the loop. -/
theorem passLoop_outcome (now : ℕ) (wakes : Fin capacity → Bool) (fuel : ℕ)
    (service : AlarmService capacity) :
    passLoop now wakes fuel service = passLoop now (fun _ => true) fuel service ∨
      passLoop now wakes fuel service = .error .wakeBackendSlot := by
  induction fuel generalizing service with
  | zero => exact .inl rfl
  | succ fuel induction =>
      simp only [passLoop]
      split_ifs with empty stopped later wakes
      · exact .inl rfl
      · exact .inl rfl
      · exact .inl rfl
      · split
        · exact .inl rfl
        · exact induction _
      · split
        · exact .inl rfl
        · exact .inr rfl

theorem Steady.pass {service : AlarmService capacity} (steady : service.Steady) {now : ℕ}
    (bounded : now ≤ uint64Max) {wakes : Fin capacity → Bool}
    (awake : ∀ index, wakes index = true) :
    ∃ after, service.pass now wakes = .ok (some after) ∧ after.Steady ∧ after.Covered ∧
      Passed now service after := by
  have enough : service.dueCount now < capacity + 1 :=
    Nat.lt_succ_of_le ((Finset.card_le_univ _).trans_eq (Fintype.card_fin capacity))
  obtain ⟨after, next, looped, kept, passed, covers⟩ :=
    passLoop_passed bounded awake steady enough
  refine ⟨{ after with waitDeadline := next, asleep := true, signalled := false }, ?_,
    { kept with }, fun _ _ => covers, { passed with }⟩
  rw [AlarmService.pass, looped]
  rfl

theorem pass_outcome (service : AlarmService capacity) (now : ℕ) (wakes : Fin capacity → Bool) :
    service.pass now wakes = service.pass now (fun _ => true) ∨
      service.pass now wakes = .error .wakeBackendSlot := by
  rw [AlarmService.pass, AlarmService.pass]
  refine (passLoop_outcome now wakes (capacity + 1) service).imp (fun same => ?_) fun failed => ?_
  · rw [same]
  · rw [failed]
    rfl

section Steps

variable {service : AlarmService capacity} {index : Fin capacity}

theorem Steady.setSlot (steady : service.Steady) {slot : AlarmSlot}
    (alarmed : service.alarms.dueAt index ≠ 0 →
      slot.state = .running ∧ slot.armedBy = slot.execution)
    (delivered : slot.pending = true → slot.pendingOf = slot.execution) :
    (service.setSlot index slot).Steady := by
  have slots (other : Fin capacity) : other = index ∧ (service.setSlot index slot).slots other = slot ∨
      (service.setSlot index slot).slots other = service.slots other := by
    by_cases same : other = index
    · exact .inl ⟨same, by rw [same]; exact Function.update_self ..⟩
    · exact .inr (Function.update_of_ne same _ _)
  refine
    { steady with
      running := fun other armed => ?_, armed := fun other armed => ?_
      delivered := fun other pending => ?_ }
  · obtain ⟨rfl, new⟩ | kept := slots other
    · rw [new]
      exact (alarmed armed).1
    · rw [kept]
      exact steady.running other armed
  · obtain ⟨rfl, new⟩ | kept := slots other
    · rw [new]
      exact (alarmed armed).2
    · rw [kept]
      exact steady.armed other armed
  · obtain ⟨rfl, new⟩ | kept := slots other
    · rw [new] at pending ⊢
      exact delivered pending
    · rw [kept] at pending ⊢
      exact steady.delivered other pending

/-- The service with another slot and another heap. -/
def alter (service : AlarmService capacity) (index : Fin capacity) (slot : AlarmSlot)
    (alarms : DeadlineHeap (Fin capacity)) : AlarmService capacity :=
  { service.setSlot index slot with alarms := alarms }

theorem alter_slot (slot : AlarmSlot) (alarms : DeadlineHeap (Fin capacity)) :
    (service.alter index slot alarms).slots index = slot := Function.update_self ..

/-- A slot has another deadline. -/
theorem Steady.alter (steady : service.Steady) {alarms : DeadlineHeap (Fin capacity)}
    {deadline : ℕ} (slot : AlarmSlot) (sound : alarms.Sound) (room : alarms.capacity = capacity)
    (dues : alarms.dueAt = Function.update service.alarms.dueAt index deadline)
    (bounded : deadline ≤ uint64Max)
    (alarmed : deadline ≠ 0 → slot.state = .running ∧ slot.armedBy = slot.execution)
    (delivered : slot.pending = true → slot.pendingOf = slot.execution) :
    (service.alter index slot alarms).Steady := by
  have due (other : Fin capacity) : other = index ∧ alarms.dueAt other = deadline ∨
      other ≠ index ∧ alarms.dueAt other = service.alarms.dueAt other := by
    rw [dues]
    by_cases same : other = index
    · exact .inl ⟨same, by rw [same, Function.update_self]⟩
    · exact .inr ⟨same, Function.update_of_ne same _ _⟩
  refine
    { sound := sound, room := room, bounded := fun other => ?_, running := fun other armed => ?_
      armed := fun other armed => ?_, delivered := fun other pending => ?_
      published := steady.published }
  · obtain ⟨-, new⟩ | ⟨-, kept⟩ := due other
    · exact new.trans_le bounded
    · exact kept.trans_le (steady.bounded other)
  · change (Function.update service.slots index slot other).state = _
    obtain ⟨rfl, new⟩ | ⟨apart, kept⟩ := due other
    · rw [Function.update_self]
      exact (alarmed (new ▸ armed)).1
    · rw [Function.update_of_ne apart]
      exact steady.running other (kept ▸ armed)
  · change (Function.update service.slots index slot other).armedBy =
      (Function.update service.slots index slot other).execution
    obtain ⟨rfl, new⟩ | ⟨apart, kept⟩ := due other
    · rw [Function.update_self]
      exact (alarmed (new ▸ armed)).2
    · rw [Function.update_of_ne apart]
      exact steady.armed other (kept ▸ armed)
  · change (Function.update service.slots index slot other).pending = true at pending
    change (Function.update service.slots index slot other).pendingOf =
      (Function.update service.slots index slot other).execution
    by_cases same : other = index
    · rw [same, Function.update_self] at pending ⊢
      exact delivered pending
    · rw [Function.update_of_ne same] at pending ⊢
      exact steady.delivered other pending

theorem Steady.idle (steady : service.Steady) (stopped : (service.slots index).state ≠ .running) :
    service.alarms.dueAt index = 0 := by
  by_contra armed
  exact stopped (steady.running index armed)

/-- A reset of a slot that is not running leaves the heap as it is. -/
theorem Steady.reset_eq (steady : service.Steady) (stopped : (service.slots index).state ≠ .running)
    (slot : AlarmSlot) :
    service.reset index slot =
      service.setSlot index { slot with pending := false, intervalNs := 0 } := by
  have same : Function.update service.alarms.dueAt index 0 = service.alarms.dueAt :=
    Function.update_eq_self_iff.2 (steady.idle stopped).symm
  rw [reset, same]
  rfl

theorem Steady.arm (steady : service.Steady) (running : (service.slots index).state = .running)
    {deadline armedBy : ℕ} (interval : ℕ) (bounded : deadline ≤ uint64Max)
    (owned : deadline ≠ 0 → armedBy = (service.slots index).execution) :
    ∃ alarms,
      service.arm index deadline interval armedBy = .ok (service.alter index
        { service.slots index with intervalNs := interval, armedBy := armedBy } alarms) ∧
      alarms.dueAt = Function.update service.alarms.dueAt index deadline ∧
      (service.alter index
        { service.slots index with intervalNs := interval, armedBy := armedBy } alarms).Steady := by
  obtain ⟨alarms, done, sound, room, dues⟩ := steady.set index deadline
  refine ⟨alarms, by rw [AlarmService.arm, done]; rfl, dues, ?_⟩
  exact steady.alter _ sound room dues bounded (fun arms => ⟨running, owned arms⟩)
    (steady.delivered index)

/-- An alarm that is set has the deadline and the interval of the call. -/
theorem Steady.arm_dueAt (steady : service.Steady) {deadline interval armedBy : ℕ}
    {armed : AlarmService capacity}
    (arms : service.arm index deadline interval armedBy = .ok armed) :
    armed.alarms.dueAt = Function.update service.alarms.dueAt index deadline ∧
      (armed.slots index).intervalNs = interval := by
  obtain ⟨alarms, done, -, -, dues⟩ := steady.set index deadline
  rw [AlarmService.arm, done] at arms
  obtain rfl := Except.ok.inj arms
  refine ⟨dues, ?_⟩
  simp [AlarmService.setSlot]

theorem Steady.setAlarm_dueAt (steady : service.Steady) {generation deadline interval : ℕ}
    {signals : Bool} {after : AlarmService capacity}
    (sets : service.setAlarm index generation deadline interval signals = .ok (after, none)) :
    after.alarms.dueAt = Function.update service.alarms.dueAt index deadline ∧
      (after.slots index).intervalNs = interval := by
  rw [AlarmService.setAlarm] at sets
  dsimp only at sets
  by_cases stale : (service.slots index).generation ≠ generation ∨
      (service.slots index).state ≠ .running
  · rw [if_pos stale] at sets
    cases sets
  rw [if_neg stale] at sets
  obtain ⟨armed, arms, sets⟩ := except_bind_eq_ok.mp sets
  have dues := steady.arm_dueAt arms
  split_ifs at sets
  · obtain rfl := (Prod.mk.inj (Except.ok.inj sets)).1
    exact dues
  · obtain ⟨restored, -, fails⟩ := except_bind_eq_ok.mp sets
    cases fails
  · obtain rfl := (Prod.mk.inj (Except.ok.inj sets)).1
    exact dues

theorem Steady.complete_dueAt (steady : service.Steady) {after : AlarmService capacity}
    (completes : service.complete index = .ok after) :
    after.alarms.dueAt = Function.update service.alarms.dueAt index 0 := by
  obtain ⟨alarms, done, -, -, dues⟩ := steady.set index 0
  rw [AlarmService.complete, done] at completes
  split_ifs at completes
  obtain rfl := Except.ok.inj completes
  exact dues

/-- What holds between the critical sections. -/
structure Invariant (service : AlarmService capacity) : Prop extends Steady service where
  covered : service.Covered

theorem Invariant.setSlot (invariant : service.Invariant) {slot : AlarmSlot}
    (alarmed : service.alarms.dueAt index ≠ 0 →
      slot.state = .running ∧ slot.armedBy = slot.execution)
    (delivered : slot.pending = true → slot.pendingOf = slot.execution) :
    (service.setSlot index slot).Invariant :=
  { invariant.toSteady.setSlot alarmed delivered with covered := invariant.covered }

theorem Invariant.setAlarm (invariant : service.Invariant) (index : Fin capacity)
    (generation : ℕ) {deadline : ℕ} (interval : ℕ) (signals : Bool) (bounded : deadline ≤ uint64Max) :
    ∃ after status, service.setAlarm index generation deadline interval signals =
      .ok (after, status) ∧ after.Invariant := by
  rw [AlarmService.setAlarm]
  dsimp only
  by_cases stale : (service.slots index).generation ≠ generation ∨
      (service.slots index).state ≠ .running
  · exact ⟨service, _, if_pos stale, invariant⟩
  · have running : (service.slots index).state = .running := not_not.1 (not_or.1 stale).2
    obtain ⟨alarms, done, dues, steady⟩ :=
      invariant.toSteady.arm running interval bounded fun _ => rfl
    rw [if_neg stale, done]
    simp only [bind, Except.bind]
    split_ifs with earlier signals
    · -- the owner is told of the earlier deadline
      refine ⟨_, _, rfl, { steady with covered := fun asleep unsignalled => ?_ }⟩
      change service.asleep = true at asleep
      change (service.signalled || service.asleep) = false at unsignalled
      rw [asleep, Bool.or_true] at unsignalled
      cases unsignalled
    · -- the alarm is taken back
      obtain ⟨restored, undone, back, kept⟩ := steady.arm
        (by rw [alter_slot]; exact running) (service.slots index).intervalNs
        (invariant.bounded index) (by rw [alter_slot]; exact invariant.armed index)
      rw [undone]
      refine ⟨_, _, rfl, { kept with covered := fun asleep unsignalled other armed => ?_ }⟩
      have same : restored.dueAt = service.alarms.dueAt := by
        rw [back]
        change Function.update alarms.dueAt index _ = _
        rw [dues, Function.update_idem, Function.update_eq_self]
      change service.waitDeadline ≤ restored.dueAt other
      change restored.dueAt other ≠ 0 at armed
      rw [same] at armed ⊢
      exact invariant.covered asleep unsignalled other armed
    · -- the wait ends before the new deadline
      refine ⟨_, _, rfl, { steady with covered := fun asleep unsignalled other armed => ?_ }⟩
      change service.waitDeadline ≤ alarms.dueAt other
      change alarms.dueAt other ≠ 0 at armed
      rw [dues] at armed ⊢
      by_cases same : other = index
      · rw [same, Function.update_self] at armed ⊢
        exact Nat.le_of_not_lt fun less => earlier ⟨armed, less⟩
      · rw [Function.update_of_ne same] at armed ⊢
        exact invariant.covered asleep unsignalled other armed

theorem Invariant.complete (invariant : service.Invariant)
    (running : (service.slots index).state = .running) :
    ∃ after, service.complete index = .ok after ∧ after.Invariant := by
  obtain ⟨alarms, done, sound, room, dues⟩ := invariant.toSteady.set index 0
  have steady := invariant.toSteady.alter { service.slots index with state := .completed } sound room
    dues (Nat.zero_le _) (fun arms => absurd rfl arms) (invariant.delivered index)
  refine ⟨_, by rw [AlarmService.complete, if_neg (not_not.2 running), done]; rfl,
    { steady with covered := fun asleep unsignalled other armed => ?_ }⟩
  change service.waitDeadline ≤ alarms.dueAt other
  change alarms.dueAt other ≠ 0 at armed
  rw [dues] at armed ⊢
  by_cases same : other = index
  · rw [same, Function.update_self] at armed
    exact absurd rfl armed
  · rw [Function.update_of_ne same] at armed ⊢
    exact invariant.covered asleep unsignalled other armed

theorem Invariant.become (invariant : service.Invariant) {old new : SlotState}
    (stopped : old ≠ .running) {after : AlarmService capacity}
    (became : service.become index old new = some after) : after.Invariant := by
  rw [AlarmService.become] at became
  split_ifs at became with state
  obtain rfl := Option.some.inj became
  refine invariant.setSlot (fun armed => ?_) (invariant.delivered index)
  exact absurd (invariant.toSteady.idle (state ▸ stopped)) armed

theorem Invariant.reset (invariant : service.Invariant)
    (stopped : (service.slots index).state ≠ .running) (slot : AlarmSlot) :
    (service.reset index slot).Invariant := by
  rw [invariant.toSteady.reset_eq stopped]
  exact invariant.setSlot (fun armed => absurd (invariant.toSteady.idle stopped) armed) nofun

end Steps

theorem uint64_le (word : UInt64) : word.toNat ≤ uint64Max :=
  Nat.le_sub_one_of_lt word.toNat_lt

/-- The invariant behind a step, which only a wake that fails may stop. -/
def Keeps (result : Except AlarmAbort (Option (AlarmService capacity))) : Prop :=
  (∀ after, result = .ok (some after) → after.Invariant) ∧
    ∀ abort, result = .error abort → abort = .wakeBackendSlot

theorem keeps_none : Keeps (.ok (none : Option (AlarmService capacity))) := ⟨nofun, nofun⟩

variable {service : AlarmService capacity}

theorem Invariant.keeps (invariant : service.Invariant) : Keeps (.ok (some service)) :=
  ⟨fun _ same => Option.some.inj (Except.ok.inj same) ▸ invariant, nofun⟩

theorem Invariant.become_keeps {index : Fin capacity}
    (invariant : service.Invariant) {old : SlotState} (new : SlotState)
    (stopped : old ≠ .running) : Keeps (.ok (service.become index old new)) :=
  ⟨fun _ same => invariant.become stopped (Except.ok.inj same), nofun⟩

theorem step_keeps (invariant : service.Invariant)
    (action : AlarmAction capacity) : Keeps (service.step action) := by
  unfold step
  cases action with
  | launch index pooled =>
      dsimp only
      split_ifs with free
      · exact (invariant.reset (by rw [free]; nofun) _).keeps
      · exact (invariant.reset (by rw [free]; nofun) _).keeps
      · exact keeps_none
  | abandon index => exact invariant.become_keeps _ nofun
  | begin index => exact invariant.become_keeps _ nofun
  | setAlarm index generation deadline interval signals =>
      obtain ⟨next, status, done, kept⟩ :=
        invariant.setAlarm index generation interval.toNat signals (uint64_le deadline)
      dsimp only
      rw [done]
      exact kept.keeps
  | takeSignals index =>
      refine (invariant.setSlot (fun armed => ?_) ?_).keeps
      · exact ⟨invariant.running index armed, invariant.armed index armed⟩
      · nofun
  | complete index =>
      dsimp only
      split_ifs with running
      · obtain ⟨next, done, kept⟩ := invariant.complete running
        rw [done]
        exact kept.keeps
      · exact keeps_none
  | pop index => exact invariant.become_keeps _ nofun
  | joinClaim index => exact invariant.become_keeps _ nofun
  | joinRelease index =>
      dsimp only
      split_ifs with joining
      · exact (invariant.reset (by rw [joining]; nofun) _).keeps
      · exact keeps_none
  | stir =>
      have awake : ({ service with asleep := false, signalled := false } :
          AlarmService capacity).Invariant := { invariant.toSteady with covered := nofun }
      exact awake.keeps
  | pass now wakes =>
      dsimp only
      split_ifs with asleep
      · exact keeps_none
      · obtain ⟨next, done, steady, covered, -⟩ :=
          invariant.toSteady.pass (uint64_le now) fun _ : Fin capacity => rfl
        obtain same | failed := pass_outcome service now.toNat wakes
        · rw [same, done]
          exact Invariant.keeps { steady with covered := covered }
        · rw [failed]
          exact ⟨nofun, fun abort same => (Except.error.inj same).symm⟩

theorem create_invariant [NeZero capacity] : (create : AlarmService capacity).Invariant where
  sound :=
    { placed := fun _ inside => absurd inside (Nat.not_lt_zero _)
      ordered := fun _ _ inside => absurd inside (Nat.not_lt_zero _)
      holds := fun _ =>
        ⟨fun ⟨_, inside, _⟩ => absurd inside (Nat.not_lt_zero _), fun armed => absurd rfl armed⟩ }
  room := rfl
  bounded := fun _ => Nat.zero_le _
  running := fun _ armed => absurd rfl armed
  armed := fun _ armed => absurd rfl armed
  delivered := nofun
  published := nofun
  covered := nofun

theorem Reached.invariant [NeZero capacity] (reached : service.Reached) : service.Invariant := by
  obtain ⟨actions, ran⟩ := reached
  exact runs_preserves (fun before taken => (step_keeps before _).1 _ taken) create_invariant ran

/-! ## The alarm service -/

/-- The deadline behind a signal: none for an alarm of one shot or beyond the 64-bit range. -/
def Rearmed (now due interval deadline : ℕ) : Prop :=
  (interval = 0 → deadline = 0) ∧
    (interval ≠ 0 → ∃ next,
      IsLeast {time | now < time ∧ ∃ periods, time = due + periods * interval} next ∧
        deadline = if next ≤ uint64Max then next else 0)

theorem following_rearmed {now due : ℕ} (interval : ℕ) (past : due ≤ now)
    (bounded : now ≤ uint64Max) : Rearmed now due interval (following now due interval) := by
  refine ⟨fun once => ?_, fun periodic => ⟨_, upcoming_isLeast past periodic, ?_⟩⟩
  · rw [following_eq past bounded, if_pos (.inl once)]
  · rw [following_eq past bounded]
    by_cases small : upcoming now due interval ≤ uint64Max
    · rw [if_pos small, if_neg (by rintro (once | large) <;> omega)]
    · rw [if_neg small, if_pos (.inr (Nat.lt_of_not_le small))]

/-- The heap holds the armed alarms of running slots, each once; a wait that nobody has signalled
covers them; a call that sets an alarm and the end of an execution leave the alarm that they name as
they say and all others alone; a pass signals and rearms each alarm that is due; and no alarm or
pending signal outlives the execution that armed it. -/
theorem alarm_service [NeZero capacity] {service : AlarmService capacity}
    (reached : service.Reached) :
    (∀ index, service.alarms.Holds index ↔ service.alarms.dueAt index ≠ 0) ∧
    (∀ first < service.alarms.count, ∀ second < service.alarms.count,
      service.alarms.entries first = service.alarms.entries second → first = second) ∧
    (∀ index, service.alarms.dueAt index ≠ 0 → (service.slots index).state = .running) ∧
    service.Covered ∧
    (∀ index generation (deadlineNs intervalNs : UInt64) signals after,
      service.setAlarm index generation deadlineNs.toNat intervalNs.toNat signals =
          .ok (after, none) →
        after.alarms.dueAt =
            Function.update service.alarms.dueAt index deadlineNs.toNat ∧
          (after.slots index).intervalNs = intervalNs.toNat) ∧
    (∀ index after, service.complete index = .ok after →
      after.alarms.dueAt = Function.update service.alarms.dueAt index 0) ∧
    (∀ (now : UInt64) (wakes : Fin capacity → Bool), (∀ index, wakes index = true) →
      ∃ after, service.pass now.toNat wakes = .ok (some after) ∧ ∀ index,
        (service.Due now.toNat index →
          after.publications index = service.publications index + 1 ∧
          (after.slots index).pending = true ∧
          Rearmed now.toNat (service.alarms.dueAt index) (service.slots index).intervalNs
            (after.alarms.dueAt index)) ∧
        (¬service.Due now.toNat index →
          after.publications index = service.publications index ∧
          after.alarms.dueAt index = service.alarms.dueAt index)) ∧
    (∀ index, (service.slots index).pending = true →
      (service.slots index).pendingOf = (service.slots index).execution) ∧
    (∀ publication ∈ service.published, publication.armedBy = publication.execution) ∧
    ∀ action abort, service.step action = .error abort → abort = .wakeBackendSlot := by
  have invariant := reached.invariant
  refine ⟨invariant.sound.holds, fun first one second two => invariant.sound.placed.injective one two,
    invariant.running, invariant.covered,
    fun _ _ _ _ _ _ sets => invariant.toSteady.setAlarm_dueAt sets,
    fun _ _ completes => invariant.toSteady.complete_dueAt completes,
    fun now wakes awake => ?_, invariant.delivered,
    invariant.published, fun action => (step_keeps invariant action).2⟩
  obtain ⟨after, done, -, -, passed⟩ := invariant.toSteady.pass (uint64_le now) awake
  refine ⟨after, done, fun index => ⟨fun due => ?_, fun idle => ?_⟩⟩
  · rw [passed.published, passed.slots, passed.dueAt, if_pos due, if_pos due, if_pos due]
    exact ⟨rfl, rfl, following_rearmed _ due.2 (uint64_le now)⟩
  · rw [passed.published, passed.dueAt, if_neg idle, if_neg idle]
    exact ⟨rfl, rfl⟩

/-- An alarm at 5 with the interval 3, which a pass at 12 sets to 14. -/
theorem alarm_service_periodic : ∃ service : AlarmService 1,
    runs step create [.launch 0 true, .setAlarm 0 1 5 3 true, .pass 12 fun _ => true] =
        some service ∧
      service.publications 0 = 1 ∧ service.alarms.dueAt 0 = 14 ∧ service.alarms.Holds 0 := by
  have values : (runs step create
      [.launch 0 true, .setAlarm 0 1 5 3 true, .pass 12 fun _ => true]).map
        (fun service : AlarmService 1 => (service.publications 0, service.alarms.dueAt 0)) =
      some (1, 14) := by decide +kernel
  obtain ⟨service, ran, same⟩ := Option.map_eq_some_iff.1 values
  obtain ⟨once, later⟩ := Prod.mk.inj same
  refine ⟨service, ran, once, later, ((alarm_service ⟨_, ran⟩).1 0).2 ?_⟩
  rw [later]
  decide

end Postgamma.Runtime.AlarmService
