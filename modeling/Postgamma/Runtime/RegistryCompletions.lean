import Mathlib
import Postgamma.Runtime.RegistryYields

/-!
# The completion protocol

Every execution is in the lists of launched, queued, delivered, joined and freed executions as often
as its slot says; an execution that has left its slot was freed once, and delivered and joined as
often as it was launched.  From this follow the order of the completions, that each is joined once,
and that no slot is given away under a thread that still uses it.
-/

namespace Postgamma.Runtime

variable {capacity pool : ℕ}

/-- How often an execution is in each list of a system. -/
structure Marks where
  launched : ℕ
  queued : ℕ
  delivered : ℕ
  joined : ℕ
  freed : ℕ
  deriving DecidableEq

/-- The completion of the slot has been popped. -/
def BackendSlot.taken (slot : BackendSlot pool) : Bool :=
  slot.state = .dequeued || slot.state = .joining

def BackendSlot.marks (slot : BackendSlot pool) : Marks :=
  { launched := (slot.pooled || slot.thread).toNat, queued := slot.ended.toNat
    delivered := slot.taken.toNat, joined := 0, freed := 0 }

namespace System

/-- The marks that an execution has left in the lists. -/
def tally (system : System capacity pool) (id : ℕ) : Marks :=
  { launched := system.launched.count id
    queued := (system.queued.map Prod.fst).count id
    delivered := (system.delivered.map Prod.fst).count id
    joined := system.joined.count id
    freed := system.freed.count id }

/-- The completion of a slot, with its execution. -/
def entry (registry : Registry capacity pool) (index : Fin capacity) : ℕ × BackendCompletion :=
  ((registry.slots index).start.getD 0, (registry.slots index).completion)

/-- The lists of the system agree with the slots. -/
structure Ledger (system : System capacity pool) : Prop where
  live : ∀ index id, (system.registry.slots index).start = some id →
    system.tally id = (system.registry.slots index).marks
  unborn : ∀ id, system.starts.length ≤ id → system.tally id = ⟨0, 0, 0, 0, 0⟩
  gone : ∀ id < system.starts.length, (∀ index, (system.registry.slots index).start ≠ some id) →
    ∃ joined ≤ 1, system.tally id = ⟨joined, joined, joined, joined, 1⟩
  queue : ∃ items, system.registry.completions.Holds items ∧
    system.queued = system.delivered ++ items.map (entry system.registry)
  logged : ∀ index id completion, (system.registry.slots index).start = some id →
    (id, completion) ∈ system.queued → completion = (system.registry.slots index).completion
  wake : system.registry.completions.head ≠ none → system.registry.wakeSignalled = true ∨
    ∃ carrier start, system.carriers carrier = .published start
  claimed : ∀ index id, (system.registry.slots index).start = some id →
    (system.registry.slots index).state = .joining →
    ∃ joiner, (system.joiners joiner).seat = some (index, id)

/-- What a step without a new execution leaves of the slots and the lists. -/
structure Quiet (system after : System capacity pool) : Prop where
  tally : after.tally = system.tally
  starts : after.starts = system.starts
  queued : after.queued = system.queued
  delivered : after.delivered = system.delivered
  completions : after.registry.completions = system.registry.completions
  record : ∀ index, (after.registry.slots index).start = (system.registry.slots index).start
  completion : ∀ index, (after.registry.slots index).start ≠ none →
    (after.registry.slots index).completion = (system.registry.slots index).completion
  marks : ∀ index, (after.registry.slots index).marks = (system.registry.slots index).marks

theorem entry_congr {before after : Registry capacity pool} {items : List (Fin capacity)}
    (record : ∀ index ∈ items, (after.slots index).start = (before.slots index).start)
    (completion : ∀ index ∈ items, (after.slots index).completion = (before.slots index).completion) :
    items.map (entry after) = items.map (entry before) := by
  refine List.map_congr_left fun index member => ?_
  rw [entry, entry, record index member, completion index member]

/-- A completion that waits has its execution. -/
theorem Seated.waiting_start {system : System capacity pool} (seated : system.Seated)
    {items : List (Fin capacity)} (holds : system.registry.completions.Holds items)
    {index : Fin capacity} (member : index ∈ items) :
    (system.registry.slots index).state = .completed ∧
      (system.registry.slots index).start ≠ none := by
  obtain ⟨others, same, listed⟩ := seated.consistent.completions
  rw [holds.path.unique same.path, listed] at member
  refine ⟨member, fun none => ?_⟩
  rw [(seated.consistent.sound index).start, member] at none
  cases none

theorem Ledger.quiet {system after : System capacity pool} (ledger : system.Ledger)
    (seated : system.Seated) (quiet : Quiet system after)
    (wake : after.registry.completions.head ≠ none → system.registry.wakeSignalled = true ∨
      (∃ carrier start, system.carriers carrier = .published start) →
      after.registry.wakeSignalled = true ∨
        ∃ carrier start, after.carriers carrier = .published start)
    (claimed : ∀ index id, (after.registry.slots index).start = some id →
      (after.registry.slots index).state = .joining →
      ∃ joiner, (after.joiners joiner).seat = some (index, id)) : after.Ledger := by
  have same (id : ℕ) : after.tally id = system.tally id := congrFun quiet.tally id
  refine
    { live := fun index id record => ?_
      unborn := fun id later => ?_
      gone := fun id earlier left => ?_
      queue := ?_
      logged := fun index id completion record member => ?_
      wake := fun waits => ?_
      claimed := claimed }
  · rw [same, quiet.marks]
    exact ledger.live index id ((quiet.record index).symm.trans record)
  · rw [same]
    exact ledger.unborn id (quiet.starts ▸ later)
  · rw [same]
    refine ledger.gone id (quiet.starts ▸ earlier) fun index record => ?_
    exact left index ((quiet.record index).trans record)
  · obtain ⟨items, holds, split⟩ := ledger.queue
    refine ⟨items, quiet.completions ▸ holds, ?_⟩
    rw [quiet.queued, quiet.delivered, split]
    congr 1
    refine (entry_congr (fun index _ => quiet.record index) fun index member => ?_).symm
    refine quiet.completion index ?_
    rw [quiet.record]
    exact (seated.waiting_start holds member).2
  · rw [quiet.completion index (by simp [record])]
    refine ledger.logged index id completion ((quiet.record index).symm.trans record) ?_
    rw [← quiet.queued]
    exact member
  · refine wake waits (ledger.wake ?_)
    rw [← quiet.completions]
    exact waits

section Quiet

variable {system after : System capacity pool}

theorem marks_of_alike {new old : BackendSlot pool} (alike : Registry.Alike new old) :
    new.marks = old.marks := by
  rw [BackendSlot.marks, BackendSlot.marks, BackendSlot.ended, BackendSlot.ended, BackendSlot.taken,
    BackendSlot.taken, alike.pooled, alike.thread, alike.state]

theorem Quiet.gentle (gentle : Registry.Gentle system.registry after.registry)
    (tally : after.tally = system.tally) (starts : after.starts = system.starts)
    (queued : after.queued = system.queued) (delivered : after.delivered = system.delivered) :
    Quiet system after := by
  have alike (index : Fin capacity) := Registry.alike_of_core (gentle.core index)
  exact
    { tally := tally, starts := starts, queued := queued, delivered := delivered
      completions := gentle.completions
      record := fun index => (alike index).start
      completion := fun index _ => (alike index).completion
      marks := fun index => marks_of_alike (alike index) }

/-- A step that rewrites one slot in a way that no list sees. -/
theorem Quiet.slot {index : Fin capacity} {slot : BackendSlot pool}
    (slots : after.registry.slots = Function.update system.registry.slots index slot)
    (record : slot.start = (system.registry.slots index).start)
    (completion : slot.completion = (system.registry.slots index).completion)
    (marks : slot.marks = (system.registry.slots index).marks)
    (completions : after.registry.completions = system.registry.completions)
    (tally : after.tally = system.tally) (starts : after.starts = system.starts)
    (queued : after.queued = system.queued) (delivered : after.delivered = system.delivered) :
    Quiet system after := by
  have field {β : Type} (read : BackendSlot pool → β)
      (same : read slot = read (system.registry.slots index)) (place : Fin capacity) :
      read (after.registry.slots place) = read (system.registry.slots place) := by
    rw [slots]
    by_cases here : place = index
    · rw [here, Function.update_self]
      exact same
    · rw [Function.update_of_ne here]
  exact
    { tally := tally, starts := starts, queued := queued, delivered := delivered
      completions := completions
      record := field BackendSlot.start record
      completion := fun place _ => field BackendSlot.completion completion place
      marks := field BackendSlot.marks marks }

/-- The phases behind the exit of an execution. -/
def settled : Phase capacity → Bool
  | .published _ => true
  | .woken _ => true
  | .finished => true
  | _ => false

theorem unlock_settled (registry : Registry capacity pool) {carrier : Carrier pool}
    {phase : Phase capacity} (at_phase : system.carriers carrier = phase)
    (past : settled phase = true) : (system.unlock registry).carriers carrier = phase := by
  unfold unlock
  dsimp only
  split
  · change (system.carriers carrier).signal = _
    rw [at_phase]
    cases phase <;> first | rfl | cases past
  · exact at_phase

theorem unlock_published (registry : Registry capacity pool) {carrier : Carrier pool}
    {start : Start capacity} (phase : system.carriers carrier = .published start) :
    (system.unlock registry).carriers carrier = .published start :=
  unlock_settled registry phase rfl

/-- A carrier behind the exit of its execution stays while another one moves. -/
theorem move_settled {registry : Registry capacity pool} {actor : Carrier pool}
    {next : Phase capacity} (before : settled (system.carriers actor) = false)
    (carrier : Carrier pool) (phase : Phase capacity) (at_phase : system.carriers carrier = phase)
    (past : settled phase = true) :
    ((system.unlock registry).move actor next).carriers carrier = phase := by
  have apart : carrier ≠ actor := by
    rintro rfl
    rw [at_phase, past] at before
    cases before
  rw [move_other _ _ apart]
  exact unlock_settled registry at_phase past

/-- A carrier that has queued its completion stays while another one moves. -/
theorem move_published {registry : Registry capacity pool} {actor : Carrier pool}
    {next : Phase capacity} (other : ∀ start, system.carriers actor ≠ .published start)
    (carrier : Carrier pool) (start : Start capacity)
    (phase : system.carriers carrier = .published start) :
    ((system.unlock registry).move actor next).carriers carrier = .published start := by
  have apart : carrier ≠ actor := by
    rintro rfl
    exact other start phase
  rw [move_other _ _ apart]
  exact unlock_published registry phase

/-- A step behind which the wake target, the carriers in front of a wake and the joining calls are
as before. -/
theorem Ledger.still (ledger : system.Ledger) (seated : system.Seated) (quiet : Quiet system after)
    (joining : ∀ index, (after.registry.slots index).state = .joining →
      (system.registry.slots index).state = .joining)
    (signalled : after.registry.wakeSignalled = system.registry.wakeSignalled)
    (joiners : after.joiners = system.joiners)
    (phases : ∀ carrier start, system.carriers carrier = .published start →
      after.carriers carrier = .published start) : after.Ledger := by
  refine ledger.quiet seated quiet (fun _ old => ?_) fun index id record state => ?_
  · rcases old with old | ⟨carrier, start, phase⟩
    · exact .inl (signalled.trans old)
    · exact .inr ⟨carrier, start, phases carrier start phase⟩
  · rw [joiners]
    exact ledger.claimed index id ((quiet.record index).symm.trans record) (joining index state)

theorem Ledger.gentle (ledger : system.Ledger) (seated : system.Seated)
    (gentle : Registry.Gentle system.registry after.registry)
    (tally : after.tally = system.tally) (starts : after.starts = system.starts)
    (queued : after.queued = system.queued) (delivered : after.delivered = system.delivered)
    (joiners : after.joiners = system.joiners)
    (phases : ∀ carrier start, system.carriers carrier = .published start →
      after.carriers carrier = .published start) : after.Ledger := by
  refine ledger.still seated (.gentle gentle tally starts queued delivered) (fun index => ?_)
    gentle.wake joiners phases
  rw [(Registry.alike_of_core (gentle.core index)).state]
  exact fun state => state

/-- A step that rewrites one slot in a way that no list sees keeps the lists. -/
theorem Ledger.slot (ledger : system.Ledger) (seated : system.Seated) {index : Fin capacity}
    {slot : BackendSlot pool}
    (slots : after.registry.slots = Function.update system.registry.slots index slot)
    (same : slot.start = (system.registry.slots index).start ∧
      slot.completion = (system.registry.slots index).completion ∧
      slot.marks = (system.registry.slots index).marks ∧
      (slot.state = .joining → (system.registry.slots index).state = .joining))
    (completions : after.registry.completions = system.registry.completions)
    (signalled : after.registry.wakeSignalled = system.registry.wakeSignalled)
    (tally : after.tally = system.tally) (starts : after.starts = system.starts)
    (queued : after.queued = system.queued) (delivered : after.delivered = system.delivered)
    (joiners : after.joiners = system.joiners)
    (phases : ∀ carrier start, system.carriers carrier = .published start →
      after.carriers carrier = .published start) : after.Ledger := by
  obtain ⟨record, completion, marks, joining⟩ := same
  refine ledger.still seated (.slot slots record completion marks completions tally starts queued
    delivered) (fun place state => ?_) signalled joiners phases
  rw [slots] at state
  by_cases here : place = index
  · rw [here, Function.update_self] at state
    rw [here]
    exact joining state
  · rwa [Function.update_of_ne here] at state

end Quiet

section Records

variable {system after : System capacity pool}

/-- The execution that a step is about to record. -/
theorem Seated.fresh (seated : system.Seated) (index : Fin capacity) :
    (system.registry.slots index).start ≠ some system.starts.length := by
  intro record
  have known := seated.recorded index _ record
  exact absurd (List.getElem?_eq_some_iff.mp known).1 (Nat.lt_irrefl _)

variable {index : Fin capacity}

theorem Ledger.launch (ledger : system.Ledger) (seated : system.Seated)
    {slot : BackendSlot pool} {record : Start capacity}
    (free : (system.registry.slots index).state = .free)
    (launched : Registry.Launched system.registry after.registry index slot)
    (starts : after.starts = system.starts ++ [record])
    (queued : after.queued = system.queued) (delivered : after.delivered = system.delivered)
    (others : ∀ id ≠ system.starts.length, after.tally id = system.tally id)
    (born : ∀ id, slot.start = some id →
      id = system.starts.length ∧ after.tally id = slot.marks ∧ slot.state ≠ .joining)
    (failed : slot.start = none → after.tally system.starts.length = ⟨0, 0, 0, 0, 1⟩)
    (phases : ∀ carrier start, system.carriers carrier = .published start →
      after.carriers carrier = .published start)
    (joiners : after.joiners = system.joiners) : after.Ledger := by
  have here : after.registry.slots index = slot := by rw [launched.slots, Function.update_self]
  have elsewhere (place : Fin capacity) (apart : place ≠ index) :
      after.registry.slots place = system.registry.slots place := by
    rw [launched.slots, Function.update_of_ne apart]
  have vacant : (system.registry.slots index).start = none :=
    (seated.consistent.sound index).start.mpr free
  have known {place : Fin capacity} {id : ℕ} (old : (system.registry.slots place).start = some id) :
      id ≠ system.starts.length := by
    rintro rfl
    exact seated.fresh place old
  have absent (id : ℕ) (completion : BackendCompletion)
      (member : (id, completion) ∈ system.queued) : id ≠ system.starts.length := by
    rintro rfl
    have none := congrArg Marks.queued (ledger.unborn _ le_rfl)
    have some : system.starts.length ∈ system.queued.map Prod.fst :=
      List.mem_map_of_mem (f := Prod.fst) member
    exact absurd none (List.count_pos_iff.mpr some).ne'
  refine
    { live := fun place id now => ?_
      unborn := fun id later => ?_
      gone := fun id earlier left => ?_
      queue := ?_
      logged := fun place id completion now member => ?_
      wake := fun waits => ?_
      claimed := fun place id now joining => ?_ }
  · by_cases same : place = index
    · rw [same, here] at now ⊢
      exact (born id now).2.1
    · rw [elsewhere place same] at now ⊢
      rw [others id (known now)]
      exact ledger.live place id now
  · rw [starts, List.length_append] at later
    rw [others id (by simp at later; omega)]
    exact ledger.unborn id (by simp at later; omega)
  · rw [starts, List.length_append] at earlier
    by_cases new : id = system.starts.length
    · subst new
      refine ⟨0, Nat.zero_le 1, failed ?_⟩
      rcases start : slot.start with _ | id
      · rfl
      · have mine := left index
        rw [here, start, (born id start).1] at mine
        exact absurd rfl mine
    · rw [others id new]
      refine ledger.gone id (by simp at earlier; omega) fun place old => left place ?_
      have apart : place ≠ index := by
        rintro rfl
        rw [vacant] at old
        cases old
      rw [elsewhere place apart]
      exact old
  · obtain ⟨items, holds, split⟩ := ledger.queue
    have outside : index ∉ items := by
      intro member
      exact (seated.waiting_start holds member).2 vacant
    refine ⟨items, launched.completions ▸ holds.clear outside, ?_⟩
    rw [queued, delivered, split]
    congr 1
    refine (entry_congr (fun place member => ?_) fun place member => ?_).symm
    all_goals rw [elsewhere place (by rintro rfl; exact outside member)]
  · rw [queued] at member
    by_cases same : place = index
    · rw [same, here] at now
      exact absurd (born id now).1 (absent id completion member)
    · rw [elsewhere place same] at now ⊢
      exact ledger.logged place id completion now member
  · rw [launched.completions] at waits
    rcases ledger.wake waits with old | ⟨carrier, start, phase⟩
    · exact .inl (launched.wake.trans old)
    · exact .inr ⟨carrier, start, phases carrier start phase⟩
  · rw [joiners]
    by_cases same : place = index
    · rw [same, here] at now joining
      exact absurd joining (born id now).2.2
    · rw [elsewhere place same] at now joining
      exact ledger.claimed place id now joining

/-- A step that changes one execution and its marks. -/
theorem Ledger.mark (ledger : system.Ledger) (seated : system.Seated)
    {slot : BackendSlot pool} {id : ℕ}
    (slots : after.registry.slots = Function.update system.registry.slots index slot)
    (old : (system.registry.slots index).start = some id) (record : slot.start = some id)
    (marks : after.tally id = slot.marks)
    (others : ∀ other ≠ id, after.tally other = system.tally other)
    (starts : after.starts = system.starts)
    (queue : ∃ items, after.registry.completions.Holds items ∧
      after.queued = after.delivered ++ items.map (entry after.registry))
    (queued : ∀ other completion, (other, completion) ∈ after.queued →
      (other, completion) ∈ system.queued ∨ other = id ∧ completion = slot.completion)
    (completion : slot.completion = (system.registry.slots index).completion ∨
      ∀ completion, (id, completion) ∉ system.queued)
    (wake : after.registry.completions.head ≠ none → after.registry.wakeSignalled = true ∨
      ∃ carrier start, after.carriers carrier = .published start)
    (joining : slot.state ≠ .joining) (joiners : after.joiners = system.joiners) :
    after.Ledger := by
  have here : after.registry.slots index = slot := by rw [slots, Function.update_self]
  have elsewhere (place : Fin capacity) (apart : place ≠ index) :
      after.registry.slots place = system.registry.slots place := by
    rw [slots, Function.update_of_ne apart]
  have apart {place : Fin capacity} {other : ℕ} (distinct : place ≠ index)
      (there : (system.registry.slots place).start = some other) : other ≠ id := by
    rintro rfl
    exact distinct (seated.same_slot there old)
  have same (place : Fin capacity) :
      (after.registry.slots place).start = (system.registry.slots place).start := by
    by_cases mine : place = index
    · rw [mine, here, record, old]
    · rw [elsewhere place mine]
  refine
    { live := fun place other now => ?_
      unborn := fun other later => ?_
      gone := fun other earlier left => ?_
      queue := queue
      logged := fun place other done now member => ?_
      wake := wake
      claimed := fun place other now waits => ?_ }
  · by_cases mine : place = index
    · rw [mine, here] at now ⊢
      rw [← Option.some.inj (record.symm.trans now)]
      exact marks
    · rw [elsewhere place mine] at now ⊢
      rw [others other (apart mine now)]
      exact ledger.live place other now
  · rw [starts] at later
    rw [others other ?_]
    · exact ledger.unborn other later
    · rintro rfl
      have known := (List.getElem?_eq_some_iff.mp (seated.recorded index other old)).1
      exact absurd known (Nat.not_lt.mpr later)
  · rw [starts] at earlier
    rw [others other ?_]
    · exact ledger.gone other earlier fun place there => left place ((same place).trans there)
    · rintro rfl
      exact left index ((same index).trans old)
  · rcases queued other done member with before | ⟨rfl, rfl⟩
    · by_cases mine : place = index
      · subst mine
        rw [same] at now
        rw [here]
        rcases completion with kept | unqueued
        · rw [kept]
          exact ledger.logged place other done now before
        · rw [Option.some.inj (now.symm.trans old)] at before
          exact absurd before (unqueued done)
      · rw [elsewhere place mine] at now ⊢
        exact ledger.logged place other done now before
    · rw [same] at now
      rw [seated.same_slot now old, here]
  · by_cases mine : place = index
    · rw [mine, here] at waits
      exact absurd waits joining
    · rw [elsewhere place mine] at now waits
      rw [joiners]
      exact ledger.claimed place other now waits

/-- A step that takes an execution out of its slot. -/
theorem Ledger.leave (ledger : system.Ledger) (seated : system.Seated)
    {slot : BackendSlot pool} {id joined : ℕ}
    (slots : after.registry.slots = Function.update system.registry.slots index slot)
    (old : (system.registry.slots index).start = some id) (record : slot.start = none)
    (unqueued : (system.registry.slots index).state ≠ .completed)
    (bound : joined ≤ 1) (marks : after.tally id = ⟨joined, joined, joined, joined, 1⟩)
    (others : ∀ other ≠ id, after.tally other = system.tally other)
    (starts : after.starts = system.starts) (queued : after.queued = system.queued)
    (delivered : after.delivered = system.delivered)
    (completions : after.registry.completions = system.registry.completions)
    (wake : after.registry.wakeSignalled = system.registry.wakeSignalled)
    (phases : ∀ carrier start, system.carriers carrier = .published start →
      after.carriers carrier = .published start)
    (joiners : ∀ joiner place other, place ≠ index →
      (system.joiners joiner).seat = some (place, other) →
      (after.joiners joiner).seat = some (place, other)) : after.Ledger := by
  have here : after.registry.slots index = slot := by rw [slots, Function.update_self]
  have elsewhere (place : Fin capacity) (apart : place ≠ index) :
      after.registry.slots place = system.registry.slots place := by
    rw [slots, Function.update_of_ne apart]
  have apart {place : Fin capacity} {other : ℕ}
      (now : (after.registry.slots place).start = some other) : place ≠ index := by
    rintro rfl
    rw [here, record] at now
    cases now
  refine
    { live := fun place other now => ?_
      unborn := fun other later => ?_
      gone := fun other earlier left => ?_
      queue := ?_
      logged := fun place other done now member => ?_
      wake := fun waits => ?_
      claimed := fun place other now waits => ?_ }
  · have distinct := apart now
    rw [elsewhere place distinct] at now ⊢
    rw [others other ?_]
    · exact ledger.live place other now
    · rintro rfl
      exact distinct (seated.same_slot now old)
  · rw [starts] at later
    rw [others other ?_]
    · exact ledger.unborn other later
    · rintro rfl
      have known := (List.getElem?_eq_some_iff.mp (seated.recorded index other old)).1
      exact absurd known (Nat.not_lt.mpr later)
  · rw [starts] at earlier
    by_cases mine : other = id
    · rw [mine]
      exact ⟨joined, bound, marks⟩
    · rw [others other mine]
      refine ledger.gone other earlier fun place there => left place ?_
      have distinct : place ≠ index := by
        rintro rfl
        exact mine (Option.some.inj (there.symm.trans old))
      rw [elsewhere place distinct]
      exact there
  · obtain ⟨items, holds, split⟩ := ledger.queue
    have outside (place : Fin capacity) (member : place ∈ items) : place ≠ index := by
      rintro rfl
      exact unqueued (seated.waiting_start holds member).1
    refine ⟨items, completions ▸ holds, ?_⟩
    rw [queued, delivered, split]
    congr 1
    refine (entry_congr (fun place member => ?_) fun place member => ?_).symm
    all_goals rw [elsewhere place (outside place member)]
  · have distinct := apart now
    rw [elsewhere place distinct] at now ⊢
    rw [queued] at member
    exact ledger.logged place other done now member
  · rw [completions] at waits
    rcases ledger.wake waits with before | ⟨carrier, start, phase⟩
    · exact .inl (wake.trans before)
    · exact .inr ⟨carrier, start, phases carrier start phase⟩
  · have distinct := apart now
    rw [elsewhere place distinct] at now waits
    obtain ⟨joiner, seat⟩ := ledger.claimed place other now waits
    exact ⟨joiner, joiners joiner place other distinct seat⟩

/-- The completion of an execution is queued. -/
theorem Ledger.exit (ledger : system.Ledger) (seated : system.Seated) {carrier : Carrier pool}
    {start : Start capacity} {epochs : List ℕ} (status : ExitStatus)
    (phase : system.carriers carrier = .executing start epochs) :
    Ledger { (system.unlock (system.registry.exited start.index status
        (workerOf carrier))).move carrier (.published start) with
      queued := system.queued ++ [(start.id, { handle := start.handle, exitStatus := status })] } := by
  obtain ⟨running, -, -, owns⟩ := seated.executing phase
  have before := ledger.live start.index start.id owns.record
  have unqueued : (system.queued.map Prod.fst).count start.id = 0 := by
    have none := congrArg Marks.queued before
    simpa [tally, BackendSlot.marks, BackendSlot.ended, running] using none
  obtain ⟨items, holds, split⟩ := ledger.queue
  have outside : start.index ∉ items := by
    intro member
    rw [(seated.waiting_start holds member).1] at running
    cases running
  refine ledger.mark seated rfl owns.record owns.record ?_ (fun other apart => ?_) rfl ?_
    (fun other completion member => ?_) (.inr fun completion member => ?_) (fun _ => .inr ?_)
    (by simp [Registry.exitedSlot]) rfl
  · have grown : tally { (system.unlock (system.registry.exited start.index status
          (workerOf carrier))).move carrier (.published start) with
        queued := system.queued ++
          [(start.id, { handle := start.handle, exitStatus := status })] } start.id =
        { system.tally start.id with queued := 1 } := by
      simp [tally, unlock, move, List.count_append, unqueued]
    rw [grown, before]
    simp [BackendSlot.marks, BackendSlot.ended, BackendSlot.taken, Registry.exitedSlot, running]
  · simp [tally, unlock, move, List.count_append, apart.symm]
  · refine ⟨items ++ [start.index], Links.append_holds holds outside, ?_⟩
    have same : items.map (entry (system.registry.exited start.index status (workerOf carrier))) =
        items.map (entry system.registry) := by
      refine entry_congr (fun place member => ?_) fun place member => ?_
      all_goals
        have apart : place ≠ start.index := by
          rintro rfl
          exact outside member
        simp [Registry.exited, Registry.setSlot, apart]
    have last : entry (system.registry.exited start.index status (workerOf carrier)) start.index =
        (start.id, { handle := start.handle, exitStatus := status }) := by
      simp [entry, Registry.exited, Registry.setSlot, Registry.exitedSlot, owns.record, owns.handle]
    change system.queued ++ _ = system.delivered ++ (items ++ [start.index]).map
      (entry (system.registry.exited start.index status (workerOf carrier)))
    rw [List.map_append, List.map_singleton, same, last, split, List.append_assoc]
  · rcases List.mem_append.mp member with old | new
    · exact .inl old
    · obtain ⟨rfl, rfl⟩ := Prod.mk.inj (List.mem_singleton.mp new)
      exact .inr ⟨rfl, by rw [Registry.exitedSlot, owns.handle]⟩
  · have some : start.id ∈ system.queued.map Prod.fst := List.mem_map_of_mem (f := Prod.fst) member
    exact absurd unqueued (List.count_pos_iff.mpr some).ne'
  · exact ⟨carrier, start, move_self ..⟩

theorem Ledger.pop (ledger : system.Ledger) (seated : system.Seated) {id : ℕ}
    (head : system.registry.completions.head = some index)
    (here : (system.registry.slots index).start = some id) :
    Ledger { system.unlock (system.registry.popped index) with
      delivered := system.delivered ++ [(id, (system.registry.slots index).completion)] } := by
  have completed : (system.registry.slots index).state = .completed :=
    seated.consistent.completions.of_head head
  have before := ledger.live index id here
  have untaken : (system.delivered.map Prod.fst).count id = 0 := by
    have none := congrArg Marks.delivered before
    simpa [tally, BackendSlot.marks, BackendSlot.taken, completed] using none
  obtain ⟨items, holds, split⟩ := ledger.queue
  obtain ⟨rest, rfl⟩ := List.head?_eq_some_iff.mp (holds.head_eq.symm.trans head)
  refine ledger.mark seated rfl here here ?_ (fun other apart => ?_) rfl ?_
    (fun other completion member => .inl member) (.inl rfl) (fun waits => ?_) (by simp) rfl
  · have grown : tally { system.unlock (system.registry.popped index) with
        delivered := system.delivered ++ [(id, (system.registry.slots index).completion)] } id =
        { system.tally id with delivered := 1 } := by
      simp [tally, unlock, List.count_append, untaken]
    rw [grown, before]
    simp [BackendSlot.marks, BackendSlot.ended, BackendSlot.taken, completed]
  · simp [tally, unlock, List.count_append, apart.symm]
  · refine ⟨rest, Links.pop_holds holds, ?_⟩
    have same : rest.map (entry (system.registry.popped index)) =
        rest.map (entry system.registry) := by
      refine entry_congr (fun place member => ?_) fun place member => ?_
      all_goals
        have apart : place ≠ index := by
          rintro rfl
          exact (List.nodup_cons.mp holds.nodup).1 member
        simp [Registry.popped, Registry.setSlot, apart]
    have first : entry system.registry index = (id, (system.registry.slots index).completion) := by
      simp [entry, here]
    change system.queued = (system.delivered ++ [_]) ++
      rest.map (entry (system.registry.popped index))
    rw [same, split, List.map_cons, first, List.append_assoc]
    rfl
  · change (system.registry.completions.pop index).head ≠ none at waits
    change (if (system.registry.completions.pop index).head = none then false
      else system.registry.wakeSignalled) = true ∨ _
    rw [if_neg waits]
    rcases ledger.wake (by simp [head]) with old | ⟨carrier, start, phase⟩
    · exact .inl old
    · exact .inr ⟨carrier, start, unlock_published _ phase⟩

end Records

variable {start : Start capacity} {system : System capacity pool}

/-- The launch of a dedicated execution returns. -/
theorem Ledger.publish (ledger : system.Ledger)
    (seated : system.Seated) (request : Registry.LaunchRequest)
    (unborn : start.Unborn system.registry) :
    Ledger { (system.unlock (system.registry.publishThread start.index request)).moveLauncher
        start.id .idle with launched := system.launched ++ [start.id] } := by
  have starting := unborn.starting
  have dedicated := (seated.consistent.sound start.index).starting starting
  have before := ledger.live start.index start.id unborn.owns.record
  have slots := Registry.publishThread_slots system.registry start.index request
  have state : (Registry.publishedSlot (system.registry.slots start.index) request).state =
        .starting ∨
      (Registry.publishedSlot (system.registry.slots start.index) request).state = .running := by
    unfold Registry.publishedSlot
    split
    · exact .inl starting
    · exact .inr rfl
  have kept : (Registry.publishedSlot (system.registry.slots start.index) request).start =
        (system.registry.slots start.index).start ∧
      (Registry.publishedSlot (system.registry.slots start.index) request).completion =
        (system.registry.slots start.index).completion ∧
      (Registry.publishedSlot (system.registry.slots start.index) request).thread = true := by
    unfold Registry.publishedSlot
    split <;> exact ⟨rfl, rfl, rfl⟩
  obtain ⟨items, holds, split⟩ := ledger.queue
  refine ledger.mark seated slots unborn.owns.record (kept.1.trans unborn.owns.record) ?_
    (fun other apart => ?_) rfl ⟨items, holds, ?_⟩ (fun _ _ member => .inl member) (.inl kept.2.1)
    (fun waits => ?_) ?_ rfl
  · have grown : tally { (system.unlock (system.registry.publishThread start.index request)).moveLauncher
        start.id .idle with launched := system.launched ++ [start.id] } start.id =
        { system.tally start.id with launched := (system.tally start.id).launched + 1 } := by
      simp [tally, unlock, moveLauncher, List.count_append]
    rw [grown, before]
    rcases state with state | state <;>
      simp [BackendSlot.marks, BackendSlot.ended, BackendSlot.taken, starting, dedicated, state,
        kept.2.2, unborn.unborn]
  · simp [tally, unlock, moveLauncher, List.count_append, apart.symm]
  · change system.queued = system.delivered ++
      items.map (entry (system.registry.publishThread start.index request))
    rw [split]
    congr 1
    refine (entry_congr (fun place _ => ?_) fun place _ => ?_).symm
    all_goals
      rw [slots]
      by_cases here : place = start.index
      · rw [here, Function.update_self]
        first | exact kept.1 | exact kept.2.1
      · rw [Function.update_of_ne here]
  · rcases ledger.wake waits with old | ⟨carrier, begun, phase⟩
    · exact .inl old
    · exact .inr ⟨carrier, begun,
        unlock_published (system.registry.publishThread start.index request) phase⟩
  · rcases state with state | state <;> simp [state]

/-- The launch of a dedicated execution fails. -/
theorem Ledger.abandon (ledger : system.Ledger)
    (seated : system.Seated) (unborn : start.Unborn system.registry) :
    Ledger { (system.unlock (system.registry.abandoned start.index)).moveLauncher start.id .idle with
      freed := system.freed ++ [start.id] } := by
  have starting := unborn.starting
  have dedicated := (seated.consistent.sound start.index).starting starting
  have before := ledger.live start.index start.id unborn.owns.record
  simp [tally, BackendSlot.marks, BackendSlot.ended, BackendSlot.taken, starting, dedicated,
    unborn.unborn] at before
  refine ledger.leave seated rfl unborn.owns.record rfl (by simp [starting]) (Nat.zero_le 1) ?_
    (fun other apart => ?_) rfl rfl rfl rfl rfl (fun carrier begun phase => ?_)
    fun _ _ _ _ held => held
  · simp [tally, unlock, moveLauncher, List.count_append, before]
  · simp [tally, unlock, moveLauncher, List.count_append, apart.symm]
  · exact unlock_published (system.registry.abandoned start.index) phase

theorem resting_not_published {phase : Phase capacity} (rests : resting phase = true)
    (start : Start capacity) : phase ≠ .published start := by
  rintro rfl
  cases rests

theorem moveJoiner_seat {joiner : ℕ} {phase : Joiner capacity}
    (same : phase.seat = (system.joiners joiner).seat) (other : ℕ) :
    ((system.moveJoiner joiner phase).joiners other).seat = (system.joiners other).seat := by
  by_cases mine : other = joiner
  · rw [mine, ← same]
    exact congrArg Joiner.seat (Function.update_self ..)
  · exact congrArg Joiner.seat (Function.update_of_ne mine ..)

variable {index : Fin capacity} {system after : System capacity pool}

theorem Ledger.rejoin (ledger : system.Ledger)
    (seated : system.Seated) {joiner id : ℕ}
    (phase : system.joiners joiner = .destroying index id) :
    Ledger { (system.unlock (system.registry.rejoined index)).moveJoiner joiner .idle with
      joined := system.joined ++ [id]
      freed := system.freed ++ [id] } := by
  have fits := seated.joiners joiner
  rw [phase] at fits
  have record := fits.start index id rfl
  have joining := fits.joining index id rfl
  have launched : ((system.registry.slots index).pooled || (system.registry.slots index).thread) =
      true := by
    rcases Bool.eq_false_or_eq_true (system.registry.slots index).pooled with pooled | dedicated
    · simp [pooled]
    · have thread := (seated.consistent.sound index).thread dedicated (by simp [joining])
        (by simp [joining])
      simp [thread]
  have before := ledger.live index id record
  simp only [tally, BackendSlot.marks, launched, BackendSlot.ended, BackendSlot.taken, joining,
    Marks.mk.injEq] at before
  refine ledger.leave seated rfl record rfl (by simp [joining]) le_rfl ?_ (fun other apart => ?_) rfl
    rfl rfl rfl rfl (fun carrier begun held => ?_) fun other place number apart held => ?_
  · simp [tally, unlock, moveJoiner, List.count_append, before]
  · simp [tally, unlock, moveJoiner, List.count_append, apart.symm]
  · exact unlock_published (system.registry.rejoined index) held
  · have distinct : other ≠ joiner := by
      rintro rfl
      rw [phase] at held
      exact apart (Prod.mk.inj (Option.some.inj held)).1.symm
    have same : ((system.unlock (system.registry.rejoined index)).moveJoiner joiner .idle).joiners
        other = system.joiners other := Function.update_of_ne distinct ..
    exact (congrArg Joiner.seat same).trans held

/-- An end of a critical section that leaves the slots alone. -/
theorem gentle_unlock (system : System capacity pool) (broadcast : Bool) :
    Registry.Gentle system.registry { system.registry with broadcast := broadcast } :=
  ⟨fun _ => rfl, rfl, rfl, rfl⟩

/-- Every step keeps the lists and the slots in agreement. -/
theorem Move.ledger (seated : system.Seated)
    (ledger : system.Ledger) (move : Move system after) : after.Ledger := by
  cases move with
  | launchedPooled nextWorker free launched broadcast =>
      have zero := ledger.unborn _ le_rfl
      refine ledger.launch seated free
        { launched with consistent := launched.consistent.unlocked _ _ } rfl rfl rfl (fun id apart => ?_)
        (fun id record => ?_) (by intros; contradiction) (fun _ _ => unlock_published _) rfl
      · simp [tally, unlock, recorded, List.count_append, apart.symm]
      · obtain rfl := Option.some.inj record
        simp only [tally, Marks.mk.injEq] at zero
        refine ⟨rfl, ?_, by rintro ⟨⟩⟩
        simp [tally, unlock, recorded, List.count_append, zero, Registry.pooledSlot,
          Registry.launchedSlot, BackendSlot.marks, BackendSlot.ended, BackendSlot.taken]
  | launchFailed free launched broadcast =>
      have zero := ledger.unborn _ le_rfl
      refine ledger.launch seated free
        { launched with consistent := launched.consistent.unlocked _ _ } rfl rfl rfl (fun id apart => ?_)
        (by intros; contradiction) (fun _ => ?_) (fun _ _ => unlock_published _) rfl
      · simp [tally, unlock, recorded, List.count_append, apart.symm]
      · simp only [tally, Marks.mk.injEq] at zero
        simp [tally, unlock, recorded, List.count_append, zero]
  | launchCreating token free launched tokens =>
      have zero := ledger.unborn _ le_rfl
      refine ledger.launch seated free
        { launched with consistent := launched.consistent.unlocked _ _ } rfl rfl rfl (fun id apart => rfl)
        (fun id record => ?_) (by intros; contradiction) (fun _ _ => unlock_published _) rfl
      obtain rfl := Option.some.inj record
      exact ⟨rfl, zero, by rintro ⟨⟩⟩
  | @created id start request launcher =>
      have absent : system.carriers (.thread id) = .absent := by
        have fits := seated.launchers id
        rw [launcher] at fits
        exact fits.2.2.2
      refine ledger.gentle seated (.refl _) rfl rfl rfl rfl rfl fun carrier begun phase => ?_
      refine (move_other _ _ ?_).trans phase
      rintro rfl
      rw [absent] at phase
      cases phase
  | refused launcher =>
      exact ledger.gentle seated (.refl _) rfl rfl rfl rfl rfl fun _ _ phase => phase
  | @publishedThread id start request launcher =>
      obtain ⟨unborn, rfl⟩ := (seated.launchers id).unborn (by rw [launcher]; rfl)
      exact ledger.publish seated request unborn
  | @abandoned id start launcher =>
      obtain ⟨unborn, rfl⟩ := (seated.launchers id).unborn (by rw [launcher]; rfl)
      exact ledger.abandon seated unborn
  | @begun id start phase starting born =>
      refine ledger.slot seated rfl ?_ rfl rfl rfl rfl rfl rfl rfl (move_published (by simp [phase]))
      refine ⟨rfl, rfl, ?_, by rintro ⟨⟩⟩
      simp [BackendSlot.marks, BackendSlot.ended, BackendSlot.taken, starting]
  | @begunRunning id start phase running =>
      exact ledger.gentle seated (gentle_unlock system false) rfl rfl rfl rfl rfl
        (move_published (by simp [phase]))
  | @yielded worker start epochs phase =>
      refine ledger.slot seated rfl ?_ rfl rfl rfl rfl rfl rfl rfl (move_published (by simp [phase]))
      exact ⟨rfl, rfl, rfl, fun joining => joining⟩
  | exited status phase => exact ledger.exit seated status phase
  | @woken carrier start phase =>
      refine ledger.quiet seated ?_ (fun _ _ => .inl rfl) ledger.claimed
      exact ⟨rfl, rfl, rfl, rfl, rfl, fun _ => rfl, fun _ _ => rfl, fun _ => rfl⟩
  | @delivered carrier start phase =>
      refine ledger.slot seated rfl ?_ rfl rfl rfl rfl rfl rfl rfl (move_published (by simp [phase]))
      exact ⟨rfl, rfl, rfl, fun joining => joining⟩
  | @slept worker registry deadline rests due covers nothing =>
      refine ledger.gentle seated { due.mild.gentle with } rfl rfl rfl rfl rfl (move_published ?_)
      exact resting_not_published rests
  | @started worker registry previous index start rests due free queued listed record here =>
      have alike (place : Fin capacity) := Registry.alike_of_core (due.mild.gentle.core place)
      have begins {β : Type} (read : BackendSlot pool → β)
          (kept : ∀ slot, read (Registry.startedSlot slot) = read slot) (place : Fin capacity) :
          read ((registry.quantumStarted worker previous index).slots place) =
            read (registry.slots place) := by
        simp only [Registry.quantumStarted, Registry.setSlot]
        by_cases mine : place = index
        · rw [mine, Function.update_self]
          exact kept _
        · rw [Function.update_of_ne mine]
      refine ledger.still seated
        ⟨rfl, rfl, rfl, rfl, due.mild.gentle.completions, fun place => ?_, fun place _ => ?_,
          fun place => ?_⟩ (fun place joining => ?_) due.mild.gentle.wake rfl
        (move_published (resting_not_published rests))
      · exact (begins BackendSlot.start (fun _ => rfl) place).trans (alike place).start
      · exact (begins BackendSlot.completion (fun _ => rfl) place).trans (alike place).completion
      · exact (begins BackendSlot.marks (fun _ => rfl) place).trans (marks_of_alike (alike place))
      · have state := (begins BackendSlot.state (fun _ => rfl) place).trans (alike place).state
        exact state.symm.trans joining
  | @epochRead carrier start epochs phase =>
      refine ledger.gentle seated (.refl _) rfl rfl rfl rfl rfl fun other begun now => ?_
      refine (move_other _ _ ?_).trans now
      rintro rfl
      rw [phase] at now
      cases now
  | prepared phase runnable current =>
      refine ledger.slot seated rfl ?_ rfl rfl rfl rfl rfl rfl rfl fun _ _ => unlock_published _
      exact ⟨rfl, rfl, rfl, fun joining => joining⟩
  | scheduled live =>
      have gentle := (Registry.scheduleSlot_mild seated.consistent live).gentle
      exact ledger.gentle seated { gentle with } rfl rfl rfl rfl rfl fun _ _ => unlock_published _
  | marked marked =>
      exact ledger.gentle seated { marked.mild.gentle with } rfl rfl rfl rfl rfl
        fun _ _ => unlock_published _
  | deadlineSet deadlineNs running =>
      refine ledger.slot seated rfl ?_ rfl rfl rfl rfl rfl rfl rfl fun _ _ => unlock_published _
      exact ⟨rfl, rfl, rfl, fun joining => joining⟩
  | popped head here => exact ledger.pop seated head here
  | poppedNothing empty =>
      refine ledger.quiet seated ?_ (fun waits => absurd empty waits) ledger.claimed
      exact ⟨rfl, rfl, rfl, rfl, rfl, fun _ => rfl, fun _ _ => rfl, fun _ => rfl⟩
  | @claimed joiner index id idle dequeued here =>
      refine ledger.quiet seated (.slot rfl ?_ ?_ ?_ rfl rfl rfl rfl rfl) (fun _ old => ?_)
        fun place other record joining => ?_
      · rfl
      · rfl
      · simp [BackendSlot.marks, BackendSlot.ended, BackendSlot.taken, dequeued]
      · rcases old with old | ⟨carrier, start, phase⟩
        · exact .inl old
        · exact .inr ⟨carrier, start, unlock_published _ phase⟩
      · by_cases mine : place = index
        · subst mine
          have now : (system.registry.slots place).start = some other := by
            simpa [unlock, moveJoiner, Registry.setSlot] using record
          rw [← Option.some.inj (here.symm.trans now)]
          exact ⟨joiner, by simp [moveJoiner, Joiner.seat]⟩
        · have old : (system.registry.slots place).start = some other ∧
              (system.registry.slots place).state = .joining := by
            simpa [unlock, moveJoiner, Registry.setSlot, mine] using And.intro record joining
          obtain ⟨holder, seat⟩ := ledger.claimed place other old.1 old.2
          have apart : holder ≠ joiner := by
            rintro rfl
            rw [idle] at seat
            cases seat
          refine ⟨holder, Eq.trans (congrArg Joiner.seat ?_) seat⟩
          exact Function.update_of_ne apart ..
  | @joinedThread joiner index id phase =>
      refine ledger.quiet seated (.gentle (.refl _) rfl rfl rfl rfl) (fun _ old => old)
        fun place other record joining => ?_
      obtain ⟨holder, seat⟩ := ledger.claimed place other record joining
      exact ⟨holder, (moveJoiner_seat (by rw [phase]; rfl) holder).trans seat⟩
  | @waited joiner index id phase delivered =>
      refine ledger.quiet seated (.gentle (.refl _) rfl rfl rfl rfl) (fun _ old => old)
        fun place other record joining => ?_
      obtain ⟨holder, seat⟩ := ledger.claimed place other record joining
      exact ⟨holder, (moveJoiner_seat (by rw [phase]; rfl) holder).trans seat⟩
  | rejoined phase => exact ledger.rejoin seated phase

theorem Reachable.ledger {config : ProviderConfig} (accepted : config.Accepted capacity pool)
    (reachable : Reachable config system) : system.Ledger := by
  induction reachable with
  | create =>
      exact
        { live := nofun, unborn := fun _ _ => rfl, gone := nofun
          queue := ⟨[], Links.empty_holds, rfl⟩, logged := nofun, wake := fun waits => absurd rfl waits
          claimed := nofun }
  | step before taken ledger =>
      exact (before.move accepted taken).ledger (before.seated accepted) ledger

/-- The carrier of an ended execution is still to deliver it, or has ended. -/
structure Attended (system : System capacity pool) : Prop where
  completing : ∀ index id, (system.registry.slots index).start = some id →
    (system.registry.slots index).ended = true →
    (system.registry.slots index).completionDeliveryComplete = false →
    ∃ carrier start, start.id = id ∧
      (system.carriers carrier = .published start ∨ system.carriers carrier = .woken start)
  finished : ∀ index id, (system.registry.slots index).start = some id →
    (system.registry.slots index).pooled = false →
    (system.registry.slots index).completionDeliveryComplete = true →
    system.carriers (.thread id) = .finished

/-- What a slot whose execution has ended shows of its delivery. -/
def BackendSlot.delivery (slot : BackendSlot pool) : Option ℕ × Bool × Bool × Bool :=
  (slot.start, slot.ended, slot.completionDeliveryComplete, slot.pooled)

/-- A step that ends nothing and delivers nothing. -/
theorem Attended.frame (attended : system.Attended)
    (slots : ∀ index, (after.registry.slots index).ended = true ∨
      (after.registry.slots index).completionDeliveryComplete = true →
      (after.registry.slots index).start ≠ none →
      BackendSlot.delivery (after.registry.slots index) =
        BackendSlot.delivery (system.registry.slots index))
    (phases : ∀ carrier phase, system.carriers carrier = phase → settled phase = true →
      after.carriers carrier = phase) : after.Attended := by
  refine ⟨fun index id record ended waits => ?_, fun index id record dedicated delivered => ?_⟩
  · have same := slots index (.inl ended) (by simp [record])
    simp only [BackendSlot.delivery, Prod.mk.injEq] at same
    rw [same.1] at record
    rw [same.2.1] at ended
    rw [same.2.2.1] at waits
    obtain ⟨carrier, start, mine, published | woken⟩ :=
      attended.completing index id record ended waits
    · exact ⟨carrier, start, mine, .inl (phases carrier _ published rfl)⟩
    · exact ⟨carrier, start, mine, .inr (phases carrier _ woken rfl)⟩
  · have same := slots index (.inr delivered) (by simp [record])
    simp only [BackendSlot.delivery, Prod.mk.injEq] at same
    rw [same.1] at record
    rw [same.2.2.2] at dedicated
    rw [same.2.2.1] at delivered
    exact phases (.thread id) _ (attended.finished index id record dedicated delivered) rfl

/-- A step that rewrites one slot and delivers nothing. -/
theorem Attended.slot (attended : system.Attended) {slot : BackendSlot pool}
    (slots : after.registry.slots = Function.update system.registry.slots index slot)
    (same : slot.ended = true ∨ slot.completionDeliveryComplete = true → slot.start ≠ none →
      BackendSlot.delivery slot = BackendSlot.delivery (system.registry.slots index))
    (phases : ∀ carrier phase, system.carriers carrier = phase → settled phase = true →
      after.carriers carrier = phase) : after.Attended := by
  refine attended.frame (fun place => ?_) phases
  rw [slots]
  by_cases here : place = index
  · rw [here, Function.update_self]
    exact same
  · rw [Function.update_of_ne here]
    exact fun _ _ => rfl

theorem Attended.gentle (attended : system.Attended)
    (gentle : Registry.Gentle system.registry after.registry)
    (phases : ∀ carrier phase, system.carriers carrier = phase → settled phase = true →
      after.carriers carrier = phase) : after.Attended := by
  refine attended.frame (fun index _ _ => ?_) phases
  have alike := Registry.alike_of_core (gentle.core index)
  simp [BackendSlot.delivery, BackendSlot.ended, alike.start, alike.state, alike.delivery,
    alike.pooled]

theorem resting_not_settled {phase : Phase capacity} (rests : resting phase = true) :
    settled phase = false := by
  cases phase <;> first | rfl | cases rests

/-- An execution ends. -/
theorem Attended.exit (attended : system.Attended)
    (seated : system.Seated) {carrier : Carrier pool} {epochs : List ℕ}
    (status : ExitStatus) (phase : system.carriers carrier = .executing start epochs) :
    Attended { (system.unlock (system.registry.exited start.index status
        (workerOf carrier))).move carrier (.published start) with
      queued := system.queued ++ [(start.id, { handle := start.handle, exitStatus := status })] } := by
  obtain ⟨running, -, -, owns⟩ := seated.executing phase
  have undelivered : (system.registry.slots start.index).completionDeliveryComplete = false := by
    refine Bool.eq_false_iff.mpr fun delivered => ?_
    have ended := (seated.consistent.sound start.index).delivery delivered
    simp [BackendSlot.ended, running] at ended
  have unsettled : settled (system.carriers carrier) = false := by
    rw [phase]
    rfl
  have elsewhere {index : Fin capacity} (apart : index ≠ start.index) :
      (system.registry.exited start.index status (workerOf carrier)).slots index =
        system.registry.slots index := Function.update_of_ne apart ..
  have here : (system.registry.exited start.index status (workerOf carrier)).slots start.index =
      Registry.exitedSlot (system.registry.slots start.index) status := Function.update_self ..
  refine ⟨fun index id record ended waits => ?_, fun index id record dedicated delivered => ?_⟩
  · change ((system.registry.exited start.index status (workerOf carrier)).slots index).start = _
      at record
    change ((system.registry.exited start.index status (workerOf carrier)).slots index).ended = _
      at ended
    change ((system.registry.exited start.index status
      (workerOf carrier)).slots index).completionDeliveryComplete = _ at waits
    by_cases mine : index = start.index
    · rw [mine, here] at record
      exact ⟨carrier, start, Option.some.inj (owns.record.symm.trans record), .inl (move_self ..)⟩
    · rw [elsewhere mine] at record ended waits
      obtain ⟨other, begun, number, held⟩ := attended.completing index id record ended waits
      refine ⟨other, begun, number, ?_⟩
      rcases held with published | woken
      · exact .inl (move_settled unsettled other _ published rfl)
      · exact .inr (move_settled unsettled other _ woken rfl)
  · change ((system.registry.exited start.index status (workerOf carrier)).slots index).start = _
      at record
    change ((system.registry.exited start.index status (workerOf carrier)).slots index).pooled = _
      at dedicated
    change ((system.registry.exited start.index status
      (workerOf carrier)).slots index).completionDeliveryComplete = _ at delivered
    by_cases mine : index = start.index
    · rw [mine, here] at delivered
      cases undelivered.symm.trans delivered
    · rw [elsewhere mine] at record dedicated delivered
      exact move_settled unsettled _ _ (attended.finished index id record dedicated delivered) rfl

/-- The wake target of an ended execution is woken. -/
theorem Attended.woken {system : System capacity pool} (attended : system.Attended)
    {carrier : Carrier pool} {start : Start capacity}
    (phase : system.carriers carrier = .published start) :
    Attended { system.move carrier (.woken start) with
      registry := { system.registry with wakeSignalled := true } } := by
  refine ⟨fun index id record ended waits => ?_, fun index id record dedicated delivered => ?_⟩
  · obtain ⟨other, begun, mine, held⟩ := attended.completing index id record ended waits
    by_cases same : other = carrier
    · subst same
      have equal : begun = start := by
        rcases held with published | woken
        · exact Phase.published.inj (published.symm.trans phase)
        · cases woken.symm.trans phase
      exact ⟨other, start, equal ▸ mine, .inr (move_self ..)⟩
    · refine ⟨other, begun, mine, ?_⟩
      rw [show _ = system.carriers other from move_other _ _ same]
      exact held
  · have ends := attended.finished index id record dedicated delivered
    refine (move_other _ _ ?_).trans ends
    rintro rfl
    cases ends.symm.trans phase

/-- The delivery of an ended execution is complete. -/
theorem Attended.deliver (attended : system.Attended)
    (seated : system.Seated) {carrier : Carrier pool}
    (phase : system.carriers carrier = .woken start) :
    Attended ((system.unlock (system.registry.deliveredRegistry start.index)).move carrier
      (released carrier)) := by
  have fits := seated.carriers carrier
  rw [phase] at fits
  have owns := fits.owns start rfl
  obtain ⟨-, -, kind⟩ := fits.stands start rfl
  have elsewhere {index : Fin capacity} (apart : index ≠ start.index) :
      (system.registry.deliveredRegistry start.index).slots index = system.registry.slots index :=
    Function.update_of_ne apart ..
  have here : (system.registry.deliveredRegistry start.index).slots start.index =
      { system.registry.slots start.index with completionDeliveryComplete := true } :=
    Function.update_self ..
  refine ⟨fun index id record ended waits => ?_, fun index id record dedicated delivered => ?_⟩
  · change ((system.registry.deliveredRegistry start.index).slots index).start = _ at record
    change ((system.registry.deliveredRegistry start.index).slots index).ended = _ at ended
    change ((system.registry.deliveredRegistry
      start.index).slots index).completionDeliveryComplete = _ at waits
    by_cases mine : index = start.index
    · rw [mine, here] at waits
      cases waits
    · rw [elsewhere mine] at record ended waits
      obtain ⟨other, begun, number, held⟩ := attended.completing index id record ended waits
      have apart : other ≠ carrier := by
        rintro rfl
        rcases held with published | woken
        · cases published.symm.trans phase
        · obtain rfl := Phase.woken.inj (woken.symm.trans phase)
          exact mine (seated.same_slot record (number ▸ owns.record))
      refine ⟨other, begun, number, ?_⟩
      rw [move_other _ _ apart]
      rcases held with published | woken
      · exact .inl (unlock_settled _ published rfl)
      · exact .inr (unlock_settled _ woken rfl)
  · change ((system.registry.deliveredRegistry start.index).slots index).start = _ at record
    change ((system.registry.deliveredRegistry start.index).slots index).pooled = _ at dedicated
    change ((system.registry.deliveredRegistry
      start.index).slots index).completionDeliveryComplete = _ at delivered
    by_cases mine : index = start.index
    · rw [mine, here] at record dedicated
      cases carrier with
      | worker worker => cases dedicated.symm.trans kind
      | thread number =>
          have seat : (system.carriers (.thread number)).seat = some start := by rw [phase]; rfl
          have same : id = number := by
            rw [← seated.thread_start seat]
            exact Option.some.inj (record.symm.trans owns.record)
          rw [same]
          exact move_self ..
    · rw [elsewhere mine] at record dedicated delivered
      have ends := attended.finished index id record dedicated delivered
      have apart : Carrier.thread id ≠ carrier := by
        rintro rfl
        cases ends.symm.trans phase
      rw [move_other _ _ apart]
      exact unlock_settled _ ends rfl

/-- Every step leaves the ended executions attended. -/
theorem Move.attended (seated : system.Seated)
    (attended : system.Attended) (move : Move system after) : after.Attended := by
  have still (registry : Registry capacity pool) (carrier : Carrier pool) (phase : Phase capacity)
      (at_phase : system.carriers carrier = phase) (past : settled phase = true) :
      (system.unlock registry).carriers carrier = phase := unlock_settled registry at_phase past
  cases move with
  | launchedPooled nextWorker free launched broadcast =>
      exact attended.slot launched.slots nofun (still _)
  | launchFailed free launched broadcast =>
      exact attended.slot launched.slots (fun _ present => absurd rfl present) (still _)
  | launchCreating token free launched tokens =>
      exact attended.slot launched.slots nofun (still _)
  | @created id start request launcher =>
      have absent : system.carriers (.thread id) = .absent := by
        have fits := seated.launchers id
        rw [launcher] at fits
        exact fits.2.2.2
      refine attended.gentle (.refl _) fun carrier phase at_phase past => ?_
      refine (move_other _ _ ?_).trans at_phase
      rintro rfl
      rw [← at_phase, absent] at past
      cases past
  | refused launcher => exact attended.gentle (.refl _) fun _ _ at_phase _ => at_phase
  | @publishedThread id start request launcher =>
      obtain ⟨unborn, rfl⟩ := (seated.launchers id).unborn (by rw [launcher]; rfl)
      have starting := unborn.starting
      have undelivered := ((seated.consistent.sound start.index).preparing starting).undelivered
      refine attended.slot (Registry.publishThread_slots ..) (fun past _ => ?_)
        (still (system.registry.publishThread start.index request))
      refine absurd past ?_
      unfold Registry.publishedSlot
      split <;> simp [BackendSlot.ended, starting, undelivered]
  | @abandoned id start launcher =>
      exact attended.slot rfl (fun _ present => absurd rfl present)
        (still (system.registry.abandoned start.index))
  | @begun id start phase starting born =>
      have undelivered := ((seated.consistent.sound start.index).preparing starting).undelivered
      refine attended.slot rfl ?_ (move_settled (by rw [phase]; rfl))
      rintro (ended | delivered)
      · cases ended
      · rw [show _ = false from undelivered] at delivered
        cases delivered
  | begunRunning phase running =>
      exact attended.gentle (gentle_unlock system false) (move_settled (by rw [phase]; rfl))
  | yielded phase =>
      exact attended.slot rfl (fun _ _ => rfl) (move_settled (by rw [phase]; rfl))
  | exited status phase => exact attended.exit seated status phase
  | woken phase => exact attended.woken phase
  | delivered phase => exact attended.deliver seated phase
  | slept rests due covers nothing =>
      exact attended.gentle { due.mild.gentle with } (move_settled (resting_not_settled rests))
  | @started worker registry previous index start rests due free queued listed record here =>
      refine attended.frame (fun place _ _ => ?_) (move_settled (resting_not_settled rests))
      have alike := Registry.alike_of_core (due.mild.gentle.core place)
      have old : BackendSlot.delivery (registry.slots place) =
          BackendSlot.delivery (system.registry.slots place) := by
        simp [BackendSlot.delivery, BackendSlot.ended, alike.start, alike.state, alike.delivery,
          alike.pooled]
      refine Eq.trans ?_ old
      change BackendSlot.delivery ((registry.quantumStarted worker previous index).slots place) = _
      simp only [Registry.quantumStarted, Registry.setSlot]
      by_cases mine : place = index
      · rw [mine, Function.update_self]
        rfl
      · rw [Function.update_of_ne mine]
  | @epochRead carrier start epochs phase =>
      refine attended.gentle (.refl _) fun other later at_phase past => ?_
      refine (move_other _ _ ?_).trans at_phase
      rintro rfl
      rw [← at_phase, phase] at past
      cases past
  | prepared phase runnable current => exact attended.slot rfl (fun _ _ => rfl) (still _)
  | scheduled live =>
      have gentle := (Registry.scheduleSlot_mild seated.consistent live).gentle
      exact attended.gentle { gentle with } (still _)
  | marked marked => exact attended.gentle { marked.mild.gentle with } (still _)
  | deadlineSet deadlineNs running => exact attended.slot rfl (fun _ _ => rfl) (still _)
  | @popped index id head here =>
      have completed : (system.registry.slots index).state = .completed :=
        seated.consistent.completions.of_head head
      refine attended.slot rfl (fun _ _ => ?_) (still _)
      simp [BackendSlot.delivery, BackendSlot.ended, completed]
  | poppedNothing empty => exact attended.frame (fun _ _ _ => rfl) (still _)
  | claimed idle dequeued here =>
      refine attended.slot rfl (fun _ _ => ?_) (still _)
      simp [BackendSlot.delivery, BackendSlot.ended, dequeued]
  | joinedThread phase => exact attended.gentle (.refl _) fun _ _ at_phase _ => at_phase
  | waited phase delivered => exact attended.gentle (.refl _) fun _ _ at_phase _ => at_phase
  | @rejoined joiner index id phase =>
      exact attended.slot rfl (fun _ present => absurd rfl present)
        (still (system.registry.rejoined index))

/-! ## Ids -/

/-- How often a slot has been launched. -/
def launches (starts : List (Start capacity)) (index : Fin capacity) : ℕ :=
  starts.countP fun start => start.index = index

/-- The generation of a slot behind some launches. -/
def generationBehind (launches : ℕ) : ℕ := Registry.followingGeneration^[launches] 0

theorem generationBehind_succ (launches : ℕ) :
    generationBehind (launches + 1) = Registry.followingGeneration (generationBehind launches) :=
  Function.iterate_succ_apply' ..

/-- The generation counts the launches until it wraps. -/
theorem generationBehind_eq {launches : ℕ} (few : launches < 2 ^ 32) :
    generationBehind launches = launches := by
  induction launches with
  | zero => rfl
  | succ launches induction =>
      rw [generationBehind_succ, induction (Nat.lt_of_succ_lt few)]
      unfold Registry.followingGeneration
      dsimp only
      rw [Nat.mod_eq_of_lt few, if_neg (Nat.succ_ne_zero launches)]

/-- The generations and ids count the launches of every slot. -/
structure Issued (system : System capacity pool) : Prop where
  generation : ∀ index, (system.registry.slots index).generation =
    generationBehind (launches system.starts index)
  records : ∀ front start back, system.starts = front ++ start :: back →
    start.id = front.length ∧ start.handle.id = Registry.makeBackendId start.index
      (generationBehind (launches front start.index + 1))

theorem Move.issued (seated : system.Seated)
    (issued : system.Issued) (move : Move system after) : after.Issued := by
  rcases move.generation seated with ⟨same, kept⟩ | ⟨start, grown, number, issue⟩
  · refine ⟨fun index => ?_, fun front start back split => ?_⟩
    · rw [(kept index).1, same]
      exact issued.generation index
    · exact issued.records front start back (same ▸ split)
  · refine ⟨fun index => ?_, fun front other back split => ?_⟩
    · rw [grown, launches, List.countP_append, List.countP_singleton]
      by_cases here : start.index = index
      · subst here
        rw [issue.generation, issued.generation, if_pos (decide_eq_true rfl), generationBehind_succ]
        rfl
      · rw [(issue.others index (Ne.symm here)).1, issued.generation, if_neg (by simp [here])]
        rfl
    · rw [grown] at split
      rcases List.eq_nil_or_concat back with rfl | ⟨rest, last, rfl⟩
      · obtain ⟨rfl, last⟩ := List.append_inj' split rfl
        obtain rfl := List.singleton_inj.mp last
        rw [generationBehind_succ, ← issued.generation]
        exact ⟨number, issue.handle⟩
      · have shorter : system.starts ++ [start] = (front ++ other :: rest) ++ [last] := by
          simpa using split
        exact issued.records front other rest (List.append_inj' shorter rfl).1

theorem Reachable.issued {config : ProviderConfig} (accepted : config.Accepted capacity pool)
    (reachable : Reachable config system) : system.Issued := by
  induction reachable with
  | create =>
      refine ⟨fun _ => rfl, fun front start back split => ?_⟩
      cases front <;> cases split
  | step before taken issued =>
      exact (before.move accepted taken).issued (before.seated accepted) issued

theorem launches_lt {starts front back : List (Start capacity)}
    (split : starts = front ++ start :: back) (here : start.index = index) :
    launches front index < launches starts index := by
  rw [split, launches, launches, List.countP_append, List.countP_cons_of_pos (by simp [here])]
  omega

/-- A start record in front of another one of the same slot has fewer launches before it. -/
theorem launches_mono {starts front back ahead behind : List (Start capacity)}
    {start other : Start capacity} (split : starts = front ++ start :: back)
    (again : starts = ahead ++ other :: behind) (here : start.index = index)
    (earlier : front.length < ahead.length) : launches front index < launches ahead index := by
  have whole : front ++ [start] <+: starts := ⟨back, by simp [split]⟩
  have inside : front ++ [start] <+: ahead :=
    List.prefix_of_prefix_length_le whole ⟨other :: behind, again.symm⟩ (by simpa using earlier)
  obtain ⟨rest, rfl⟩ := inside
  have grown : front ++ [start] ++ rest = front ++ start :: rest := by simp
  exact launches_lt grown here

/-- An id that a slot answers to belongs to the execution in the slot. -/
theorem Issued.own (issued : system.Issued) (seated : system.Seated)
    (few : launches system.starts index < 2 ^ 32)
    (member : start ∈ system.starts)
    (used : (system.registry.slots index).state ≠ .free)
    (same : (system.registry.slots index).handle.id = start.handle.id) :
    (system.registry.slots index).start = some start.id := by
  obtain ⟨id, record⟩ : ∃ id, (system.registry.slots index).start = some id :=
    Option.ne_none_iff_exists'.mp fun none => used ((seated.consistent.sound index).start.mp none)
  obtain ⟨front, back, split⟩ := List.append_of_mem member
  have known := seated.recorded index id record
  obtain ⟨inside, at_id⟩ := List.getElem?_eq_some_iff.mp known
  have again : system.starts = system.starts.take id ++
      { id := id, index := index, handle := (system.registry.slots index).handle } ::
        system.starts.drop (id + 1) := by
    rw [← at_id, List.getElem_cons_drop, List.take_append_drop]
  obtain ⟨number, handle⟩ := issued.records front start back split
  obtain ⟨position, issuance⟩ := issued.records _ _ _ again
  rw [handle, issuance] at same
  have place := Registry.makeBackendId_index seated.consistent.bounded same
  change index = start.index at place
  subst place
  have first := launches_lt split rfl
  have second : launches (system.starts.take id) start.index < launches system.starts start.index :=
    launches_lt again rfl
  dsimp only at same
  rw [generationBehind_eq (by omega), generationBehind_eq (by omega), Registry.makeBackendId,
    Registry.makeBackendId] at same
  have count : launches (system.starts.take id) start.index = launches front start.index := by
    have cancelled := Nat.eq_of_mul_eq_mul_right (by decide) (Nat.add_right_cancel same)
    exact Nat.succ.inj cancelled
  have equal : (system.starts.take id).length = front.length := by
    rcases Nat.lt_trichotomy (system.starts.take id).length front.length with less | equal | more
    · have apart : launches (system.starts.take id) start.index < launches front start.index :=
        launches_mono again split rfl less
      omega
    · exact equal
    · have apart := launches_mono split again rfl more
      omega
  rw [record, number, ← equal, ← position]

theorem Reachable.attended {config : ProviderConfig} (accepted : config.Accepted capacity pool)
    (reachable : Reachable config system) : system.Attended := by
  induction reachable with
  | create => exact ⟨nofun, nofun⟩
  | step before taken attended =>
      exact (before.move accepted taken).attended (before.seated accepted) attended

/-! ## The protocol -/

/-- The execution is held by a joining call. -/
def Claimed (system : System capacity pool) (id : ℕ) : Prop :=
  ∃ joiner index, (system.joiners joiner).seat = some (index, id)

/-- The next step of a joining call, or of the carrier that it waits for. -/
def Advances (system : System capacity pool) (joiner : ℕ) (index : Fin capacity) (id : ℕ) : Prop :=
  match system.joiners joiner with
  | .claimed _ _ =>
      (∃ after, system.step (.joinThread joiner) = .ok (some after) ∧
        after.joiners joiner = .joined index id) ∨
      ∃ carrier start, start.id = id ∧
        (system.carriers carrier = .published start ∨ system.carriers carrier = .woken start)
  | .joined _ _ =>
      (∃ after, system.step (.joinWait joiner) = .ok (some after) ∧
        after.joiners joiner = .destroying index id) ∨
      ∃ carrier start, start.id = id ∧
        (system.carriers carrier = .published start ∨ system.carriers carrier = .woken start)
  | _ =>
      ∃ after, system.step (.joinRelease joiner) = .ok (some after) ∧
        after.joined = system.joined ++ [id]

/-- What the completion protocol promises of a state. -/
structure Protocol (system : System capacity pool) : Prop where
  /-- Completions are delivered in the order in which they were queued, each once, and a pop
  delivers the next one. -/
  ordered : ∃ waiting, system.queued = system.delivered ++ waiting ∧
    (system.queued.map Prod.fst).Nodup ∧
    ∀ entry rest, waiting = entry :: rest → ∃ after,
      system.step .completionPop = .ok (some after) ∧
        after.delivered = system.delivered ++ [entry]
  /-- A launched execution runs in its slot or has been queued, and no other one is queued. -/
  complete : system.launched.Nodup ∧ (∀ id ∈ system.launched,
      (∃ index, (system.registry.slots index).start = some id ∧
        (system.registry.slots index).ended = false) ∨ id ∈ system.queued.map Prod.fst) ∧
    ∀ id ∈ system.queued.map Prod.fst, id ∈ system.launched
  joined : system.joined.Nodup ∧ ∀ id ∈ system.joined, id ∈ system.delivered.map Prod.fst
  /-- What is delivered and not joined is claimed, or can be by any joining call. -/
  joinable : ∀ entry ∈ system.delivered, entry.1 ∉ system.joined → system.Claimed entry.1 ∨
    ∀ joiner, system.joiners joiner = .idle → ∃ after index,
      system.step (.joinClaim joiner entry.2) = .ok (some after) ∧
        after.joiners joiner = .claimed index entry.1
  /-- A claim is for what was delivered and is neither joined nor claimed. -/
  claims : ∀ joiner completion after, system.step (.joinClaim joiner completion) =
    .ok (some after) → ∃ index id, after.joiners joiner = .claimed index id ∧
      (id, completion) ∈ system.delivered ∧ id ∉ system.joined ∧ ¬system.Claimed id
  /-- A claim is not lost: its joining call never fails and can go on to the join, at the latest
  behind the carrier of the execution. -/
  advances : (∀ joiner errno, system.joiners joiner ≠ .failed errno) ∧
    ∀ joiner index id, (system.joiners joiner).seat = some (index, id) →
      system.Advances joiner index id
  /-- The slot and the start record of a carrier are its own until its last critical section. -/
  held : system.freed.Nodup ∧ ∀ carrier start, (system.carriers carrier).seat = some start →
    (system.registry.slots start.index).start = some start.id ∧ start.id ∉ system.freed
  /-- The wake target is signalled when a completion waits and nobody is about to wake it. -/
  wake : system.registry.completions.head ≠ none →
    (∀ carrier start, system.carriers carrier ≠ .published start) →
    system.registry.wakeSignalled = true
  /-- An id is accepted for its own execution only, while its slot was launched fewer than
  `2 ^ 32` times. -/
  ids : ∀ start ∈ system.starts, ∀ index, launches system.starts index < 2 ^ 32 →
    (system.registry.runningSlot start.handle.id = .ok index →
      (system.registry.slots index).start = some start.id) ∧
    ∀ completion registry, completion.handle.id = start.handle.id →
      system.registry.joinClaim completion = .ok (registry, index) →
      (system.registry.slots index).start = some start.id

section Protocol

variable {system : System capacity pool}

/-- Every execution has one of three histories. -/
theorem Ledger.cases (ledger : system.Ledger) (id : ℕ) :
    (∃ index, (system.registry.slots index).start = some id ∧
        system.tally id = (system.registry.slots index).marks) ∨
      system.tally id = ⟨0, 0, 0, 0, 0⟩ ∨
      ∃ joined ≤ 1, system.tally id = ⟨joined, joined, joined, joined, 1⟩ := by
  by_cases live : ∃ index, (system.registry.slots index).start = some id
  · obtain ⟨index, record⟩ := live
    exact .inl ⟨index, record, ledger.live index id record⟩
  · by_cases known : id < system.starts.length
    · exact .inr (.inr (ledger.gone id known fun index record => live ⟨index, record⟩))
    · exact .inr (.inl (ledger.unborn id (Nat.le_of_not_lt known)))

/-- No execution is in a list twice, and each list is part of the one before. -/
theorem Ledger.bounds (ledger : system.Ledger) (seated : system.Seated) (id : ℕ) :
    (system.tally id).launched ≤ 1 ∧ (system.tally id).queued ≤ (system.tally id).launched ∧
      (system.tally id).joined ≤ (system.tally id).delivered ∧ (system.tally id).joined ≤ 1 ∧
      (system.tally id).freed ≤ 1 := by
  rcases ledger.cases id with ⟨index, -, marks⟩ | marks | ⟨joined, bound, marks⟩
  · have sound := seated.consistent.sound index
    rw [marks]
    refine ⟨Bool.toNat_le _, ?_, Nat.zero_le _, Nat.zero_le _, Nat.zero_le _⟩
    simp only [BackendSlot.marks]
    rcases Bool.eq_false_or_eq_true (system.registry.slots index).ended with ended | running
    · obtain ⟨used, begun, -⟩ := BackendSlot.ended_state ended
      rcases Bool.eq_false_or_eq_true (system.registry.slots index).pooled with pooled | dedicated
      · simp [ended, pooled]
      · simp [ended, sound.thread dedicated used begun]
    · simp [running]
  · rw [marks]
    simp
  · rw [marks]
    exact ⟨bound, le_rfl, le_rfl, bound, le_rfl⟩

theorem nodup_of_count {items : List ℕ} (once : ∀ id, items.count id ≤ 1) : items.Nodup :=
  List.nodup_iff_count_le_one.mpr once

theorem Ledger.ordered (ledger : system.Ledger) (seated : system.Seated) :
    ∃ waiting, system.queued = system.delivered ++ waiting ∧
      (system.queued.map Prod.fst).Nodup ∧
      ∀ entry rest, waiting = entry :: rest → ∃ after,
        system.step .completionPop = .ok (some after) ∧
          after.delivered = system.delivered ++ [entry] := by
  obtain ⟨items, holds, split⟩ := ledger.queue
  refine ⟨items.map (entry system.registry), split, nodup_of_count fun id => ?_, ?_⟩
  · obtain ⟨first, second, -⟩ := ledger.bounds seated id
    exact second.trans first
  · intro next rest waiting
    obtain ⟨index, items, rfl⟩ : ∃ index later, items = index :: later := by
      cases items with
      | nil => cases waiting
      | cons index later => exact ⟨index, later, rfl⟩
    obtain ⟨rfl, -⟩ := List.cons.inj waiting
    have head := holds.head_eq
    rw [List.head?_cons] at head
    rcases Registry.completionPop_cases seated.consistent with ⟨none, -⟩ | ⟨place, first, -, pop⟩
    · cases head.symm.trans none
    · obtain rfl := Option.some.inj (first.symm.trans head)
      obtain ⟨id, record⟩ : ∃ id, (system.registry.slots place).start = some id :=
        Option.ne_none_iff_exists'.mp (seated.waiting_start holds List.mem_cons_self).2
      refine ⟨_, rfl, ?_⟩
      simp [completionPop, pop, record, entry]

theorem Ledger.complete (ledger : system.Ledger) (seated : system.Seated) :
    system.launched.Nodup ∧ (∀ id ∈ system.launched,
      (∃ index, (system.registry.slots index).start = some id ∧
        (system.registry.slots index).ended = false) ∨ id ∈ system.queued.map Prod.fst) ∧
    ∀ id ∈ system.queued.map Prod.fst, id ∈ system.launched := by
  refine ⟨nodup_of_count fun id => (ledger.bounds seated id).1, fun id member => ?_,
    fun id member => ?_⟩
  · have launched : 0 < (system.tally id).launched := List.count_pos_iff.mpr member
    rcases ledger.cases id with ⟨index, record, marks⟩ | marks | ⟨joined, -, marks⟩
    · rcases Bool.eq_false_or_eq_true (system.registry.slots index).ended with ended | running
      · refine .inr (List.count_pos_iff.mp ?_)
        change 0 < (system.tally id).queued
        rw [marks]
        simp [BackendSlot.marks, ended]
      · exact .inl ⟨index, record, running⟩
    · rw [marks] at launched
      cases launched
    · refine .inr (List.count_pos_iff.mp ?_)
      change 0 < (system.tally id).queued
      rw [marks] at launched ⊢
      exact launched
  · have queued : 0 < (system.tally id).queued := List.count_pos_iff.mpr member
    exact List.count_pos_iff.mp (queued.trans_le (ledger.bounds seated id).2.1)

theorem Ledger.joined (ledger : system.Ledger) (seated : system.Seated) :
    system.joined.Nodup ∧ ∀ id ∈ system.joined, id ∈ system.delivered.map Prod.fst := by
  refine ⟨nodup_of_count fun id => (ledger.bounds seated id).2.2.2.1, fun id member => ?_⟩
  have joined : 0 < (system.tally id).joined := List.count_pos_iff.mpr member
  exact List.count_pos_iff.mp (joined.trans_le (ledger.bounds seated id).2.2.1)

theorem Ledger.delivered_slot (ledger : system.Ledger) {id : ℕ} {completion : BackendCompletion}
    (member : (id, completion) ∈ system.delivered) (unjoined : id ∉ system.joined) :
    ∃ index, (system.registry.slots index).start = some id ∧
      (system.registry.slots index).completion = completion ∧
      ((system.registry.slots index).state = .dequeued ∨
        (system.registry.slots index).state = .joining) := by
  have delivered : 0 < (system.tally id).delivered :=
    List.count_pos_iff.mpr (List.mem_map_of_mem (f := Prod.fst) member)
  have none : (system.tally id).joined = 0 := List.count_eq_zero.mpr unjoined
  rcases ledger.cases id with ⟨index, record, marks⟩ | marks | ⟨joined, -, marks⟩
  · obtain ⟨items, -, split⟩ := ledger.queue
    have queued : (id, completion) ∈ system.queued := split ▸ List.mem_append_left _ member
    refine ⟨index, record, (ledger.logged index id completion record queued).symm, ?_⟩
    rcases Bool.eq_false_or_eq_true (system.registry.slots index).taken with taken | untaken
    · simpa [BackendSlot.taken] using taken
    · rw [marks] at delivered
      simp [BackendSlot.marks, untaken] at delivered
  · rw [marks] at delivered
    cases delivered
  · rw [marks] at delivered none
    exact absurd none delivered.ne'

/-- A claim finds the slot whose completion it names. -/
theorem joinClaim_dequeued {registry : Registry capacity pool} (consistent : registry.Consistent)
    (numbered : Numbered registry)
    (dequeued : (registry.slots index).state = .dequeued) :
    registry.joinClaim (registry.slots index).completion =
      .ok (registry.setSlot index { registry.slots index with state := .joining }, index) := by
  have handle : (registry.slots index).completion.handle = (registry.slots index).handle :=
    (consistent.sound index).completion (by simp [BackendSlot.ended, dequeued])
  unfold Registry.joinClaim
  rw [handle, decode_issued consistent numbered (by simp [dequeued])]
  simp [dequeued]

theorem Ledger.joinable (ledger : system.Ledger) (seated : system.Seated)
    (numbered : Numbered system.registry) {id : ℕ} {completion : BackendCompletion}
    (member : (id, completion) ∈ system.delivered) (unjoined : id ∉ system.joined) :
    system.Claimed id ∨ ∀ joiner, system.joiners joiner = .idle → ∃ after index,
      system.step (.joinClaim joiner completion) = .ok (some after) ∧
        after.joiners joiner = .claimed index id := by
  obtain ⟨index, record, rfl, dequeued | joining⟩ := ledger.delivered_slot member unjoined
  · refine .inr fun joiner idle => ?_
    have claim := joinClaim_dequeued seated.consistent numbered dequeued
    have start : ((system.registry.setSlot index
        { system.registry.slots index with state := .joining }).slots index).start = some id := by
      simp [Registry.setSlot, record]
    refine ⟨(system.unlock (system.registry.setSlot index
        { system.registry.slots index with state := .joining })).moveJoiner joiner
          (.claimed index id), index, ?_, Function.update_self ..⟩
    simp only [step, joinClaim, idle, claim, start, Option.bind_eq_bind, Option.bind_some]
  · obtain ⟨joiner, seat⟩ := ledger.claimed index id record joining
    exact .inl ⟨joiner, index, seat⟩

theorem Ledger.claims (ledger : system.Ledger) (seated : system.Seated) {joiner : ℕ}
    {completion : BackendCompletion}
    (taken : system.step (.joinClaim joiner completion) = .ok (some after)) :
    ∃ index id, after.joiners joiner = .claimed index id ∧ (id, completion) ∈ system.delivered ∧
      id ∉ system.joined ∧ ¬system.Claimed id := by
  have claimed := Except.ok.inj taken
  unfold joinClaim at claimed
  split at claimed
  · rename_i registry index idle result
    obtain ⟨dequeued, rfl, -, rfl⟩ := Registry.joinClaim_spec result
    obtain ⟨id, here, claimed⟩ := Option.bind_eq_some_iff.mp claimed
    obtain rfl := Option.some.inj claimed
    have record : (system.registry.slots index).start = some id := by
      simpa [Registry.setSlot] using here
    have marks := ledger.live index id record
    refine ⟨index, id, Function.update_self .., ?_, ?_, ?_⟩
    · have delivered : 0 < (system.tally id).delivered := by
        rw [marks]
        simp [BackendSlot.marks, BackendSlot.taken, dequeued]
      obtain ⟨⟨number, completion⟩, member, rfl⟩ := List.mem_map.mp (List.count_pos_iff.mp delivered)
      obtain ⟨items, -, split⟩ := ledger.queue
      rw [← ledger.logged index _ completion record (split ▸ List.mem_append_left _ member)]
      exact member
    · intro joined
      have present : 0 < (system.tally id).joined := List.count_pos_iff.mpr joined
      rw [marks] at present
      cases present
    · rintro ⟨other, place, seat⟩
      have fits := seated.joiners other
      rw [seated.same_slot record (fits.start place id seat), fits.joining place id seat] at dequeued
      cases dequeued
  · cases claimed

theorem Attended.advances (attended : system.Attended) (seated : system.Seated) {joiner id : ℕ}
    (seat : (system.joiners joiner).seat = some (index, id)) :
    system.Advances joiner index id := by
  have fits := seated.joiners joiner
  have record := fits.start index id seat
  have joining := fits.joining index id seat
  have ended : (system.registry.slots index).ended = true := by simp [BackendSlot.ended, joining]
  have completing := attended.completing index id record ended
  unfold Advances
  split
  · rename_i place number phase
    rw [phase] at seat
    obtain ⟨rfl, rfl⟩ := Prod.mk.inj (Option.some.inj seat)
    rcases Bool.eq_false_or_eq_true (system.registry.slots place).pooled with pooled | dedicated
    · exact .inl ⟨system.moveJoiner joiner (.joined place number),
        by simp [step, joinThread, phase, pooled], Function.update_self ..⟩
    · rcases Bool.eq_false_or_eq_true
          (system.registry.slots place).completionDeliveryComplete with complete | waits
      · have thread := (seated.consistent.sound place).thread dedicated (by simp [joining])
          (by simp [joining])
        have finished := attended.finished place number record dedicated complete
        exact .inl ⟨system.moveJoiner joiner (.joined place number),
          by simp [step, joinThread, phase, dedicated, thread, finished], Function.update_self ..⟩
      · exact .inr (completing waits)
  · rename_i place number phase
    rw [phase] at seat
    obtain ⟨rfl, rfl⟩ := Prod.mk.inj (Option.some.inj seat)
    rcases Bool.eq_false_or_eq_true
        (system.registry.slots place).completionDeliveryComplete with complete | waits
    · exact .inl ⟨system.moveJoiner joiner (.destroying place number),
        by simp [step, joinWait, phase, joining, record, complete], Function.update_self ..⟩
    · exact .inr (completing waits)
  · rename_i unclaimed unjoined
    have phase : system.joiners joiner = .destroying index id := by
      generalize system.joiners joiner = phase at seat unclaimed unjoined
      cases phase with
      | claimed place number => exact absurd rfl (unclaimed place number)
      | joined place number => exact absurd rfl (unjoined place number)
      | destroying place number =>
          obtain ⟨rfl, rfl⟩ := Prod.mk.inj (Option.some.inj seat)
          rfl
      | _ => cases seat
    have release := Registry.joinRelease_eq joining record
    refine ⟨{ (system.unlock (system.registry.rejoined index)).moveJoiner joiner .idle with
      joined := system.joined ++ [id], freed := system.freed ++ [id] }, ?_, rfl⟩
    simp [step, joinRelease, phase, release]

theorem Ledger.held (ledger : system.Ledger) (seated : system.Seated) :
    system.freed.Nodup ∧ ∀ carrier start, (system.carriers carrier).seat = some start →
      (system.registry.slots start.index).start = some start.id ∧ start.id ∉ system.freed := by
  refine ⟨nodup_of_count fun id => (ledger.bounds seated id).2.2.2.2, fun carrier start seat => ?_⟩
  have record := ((seated.carriers carrier).owns start seat).record
  refine ⟨record, fun freed => ?_⟩
  have present : 0 < (system.tally start.id).freed := List.count_pos_iff.mpr freed
  rw [ledger.live start.index start.id record] at present
  cases present

end Protocol

/-- The completion protocol in every state that any interleaving of launches, executions, pops and
joins reaches. -/
theorem completion_protocol {config : ProviderConfig} (accepted : config.Accepted capacity pool)
    {system : System capacity pool} (reachable : Reachable config system) : system.Protocol := by
  have seated := reachable.seated accepted
  have ledger := reachable.ledger accepted
  have issued := reachable.issued accepted
  refine
    { ordered := ledger.ordered seated
      complete := ledger.complete seated
      joined := ledger.joined seated
      joinable := fun entry member => ledger.joinable seated (reachable.numbered accepted) member
      claims := fun joiner completion after => ledger.claims seated
      advances := ⟨fun joiner => (seated.joiners joiner).sound,
        fun joiner index id => (reachable.attended accepted).advances seated⟩
      held := ledger.held seated
      wake := fun waits nobody => ?_
      ids := fun start member index few => ⟨fun found => ?_, fun completion registry same claim => ?_⟩ }
  · rcases ledger.wake waits with signalled | ⟨carrier, start, phase⟩
    · exact signalled
    · exact absurd phase (nobody carrier start)
  · obtain ⟨running, id⟩ := Registry.runningSlot_running found
    exact issued.own seated few member (by simp [running]) id
  · obtain ⟨dequeued, -, id, -⟩ := Registry.joinClaim_spec claim
    exact issued.own seated few member (by simp [dequeued]) (id.trans same)

/-- A client is launched and runs to its end; its completion is popped before the delivery is
complete. -/
def exitingRun : List (Action 2) :=
  [.launch clientRequest, .runWorker firstWorker 1,
    .complete (.worker firstWorker) { kind := .normal, code := 0 } 0, .wake (.worker firstWorker),
    .completionPop]

theorem completion_protocol_exitingRun :
    ∃ system, (create pairConfig : System 2 2).run exitingRun = some system ∧
      system.launched = [0] ∧ system.delivered.map Prod.fst = [0] ∧ system.Protocol := by
  have facts : ((create pairConfig : System 2 2).run exitingRun).map
      (fun system => (system.launched, system.delivered.map Prod.fst)) = some ([0], [0]) := by decide
  obtain ⟨system, runs, seen⟩ := Option.map_eq_some_iff.mp facts
  obtain ⟨launched, delivered⟩ := Prod.mk.inj seen
  exact ⟨system, runs, launched, delivered,
    completion_protocol pairConfig_accepted (Reachable.create.run runs)⟩

end System

end Postgamma.Runtime
