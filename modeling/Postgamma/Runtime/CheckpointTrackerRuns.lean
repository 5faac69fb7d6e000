import Mathlib
import Postgamma.Runtime.CheckpointTracker

/-!
# Runs of the checkpoint trackers

A run is disciplined when no arm call overwrites the baselines of a tracker that is armed, finished
or being armed, no tracker leaves the new state under an arm call that has changed it, and no tracker
is destroyed while a call still uses it.  The code checks none of this.
-/

namespace Postgamma.Runtime

namespace TrackerPhase

/-- An arm call on the tracker is under way. -/
def arms (id : ℕ) : TrackerPhase → Bool
  | storingStarted own _ _ => own = id
  | storingFailed own _ _ _ => own = id
  | arming own _ _ _ => own = id
  | _ => false

/-- An arm call under way has changed a baseline of the tracker. -/
def altered (id : ℕ) : TrackerPhase → Bool
  | storingFailed own _ _ changed => own = id && changed
  | arming own _ _ changed => own = id && changed
  | _ => false

/-- A completion of the tracker is about to be called. -/
def completes (id : ℕ) : TrackerPhase → Bool
  | completing own _ _ => own = id
  | _ => false

/-- A call still uses the tracker. -/
def uses (id : ℕ) : TrackerPhase → Bool
  | storingStarted own _ _ => own = id
  | storingFailed own _ _ _ => own = id
  | arming own _ _ _ => own = id
  | finishing own _ _ => own = id
  | swapping own _ _ _ => own = id
  | completing own _ _ => own = id
  | comparing _ own _ => own = id
  | judging _ own => own = id
  | picked _ own _ => own = id
  | destroying own => own = id
  | freeing own => own = id
  | _ => false

def observation : TrackerPhase → Option Observation
  | finishing _ _ observation => observation
  | swapping _ _ observation _ => observation
  | completing _ _ observation => observation
  | locking observation => some observation
  | scanning observation _ => some observation
  | comparing observation _ _ => some observation
  | judging observation _ => some observation
  | picked observation _ _ => some observation
  | _ => none

/-- An observing thread has the mutex. -/
def locked : TrackerPhase → Bool
  | scanning _ _ => true
  | comparing _ _ _ => true
  | judging _ _ => true
  | picked _ _ _ => true
  | _ => false

theorem uses_of_arms {id : ℕ} {phase : TrackerPhase} (arms : phase.arms id = true) :
    phase.uses id = true := by
  cases phase <;> simp_all [TrackerPhase.arms, uses]

end TrackerPhase

/-- The baselines of an armed tracker are what it was armed with. -/
structure Tracker.Coherent (tracker : Tracker) : Prop where
  given : ∀ started failed, tracker.given = some (started, failed) →
    tracker.baselineStarted = started ∧ tracker.baselineFailed = failed
  armed : tracker.state = .armed → tracker.given ≠ none
  unarmed : tracker.state = .new → tracker.given = none

namespace TrackerSystem

variable {threads : ℕ}

/-- The next step of a thread keeps the discipline that the code leaves to its callers. -/
def Careful (system : TrackerSystem threads) (thread : Fin threads) : TrackerPhase → Prop
  | .storingStarted id started _ =>
      (system.tracker id).baselineStarted = started ∨
        (system.tracker id).state = .new ∧
          ∀ other, other ≠ thread → (system.phase other).arms id = false
  | .storingFailed id _ failed _ =>
      (system.tracker id).baselineFailed = failed ∨
        (system.tracker id).state = .new ∧
          ∀ other, other ≠ thread → (system.phase other).arms id = false
  | .arming id _ _ _ =>
      (system.tracker id).state = .new →
        ∀ other, other ≠ thread → (system.phase other).altered id = false
  | .swapping id _ _ _ =>
      (system.tracker id).state = .new →
        ∀ other, other ≠ thread → (system.phase other).altered id = false
  | .destroying id => (system.tracker id).state ≠ .armed
  | .freeing id => ∀ other, other ≠ thread → (system.phase other).uses id = false
  | _ => True

/-- The action keeps the discipline. -/
def Disciplined (system : TrackerSystem threads) : TrackerAction threads → Prop
  | .advance thread _ => system.Careful thread (system.phase thread)
  | _ => True

/-- The states that disciplined steps lead to. -/
inductive Reachable : TrackerSystem threads → Prop
  | init : Reachable init
  | step {system after : TrackerSystem threads} {action : TrackerAction threads}
      (before : Reachable system) (disciplined : system.Disciplined action)
      (taken : system.step action = some after) : Reachable after

/-- The status is what the observation says of the baselines that the tracker was armed with. -/
def Judged (system : TrackerSystem threads) (observation : Observation) (id : ℕ) (status : ℤ) :
    Prop :=
  ∃ started failed, (system.tracker id).given = some (started, failed) ∧
    advanced observation.done started = true ∧
      status = if observation.failed ≠ failed then eio else 0

/-- A tracker that was due when the observation began is finished, or still to be found. -/
def Due (system : TrackerSystem threads) (observation : Observation) : Prop :=
  ∀ id ∈ observation.due, (system.tracker id).state = .terminal ∨
    (system.tracker id).state = .armed ∧ id ∈ system.list ∧
      ∃ given, (system.tracker id).given = some given ∧ advanced observation.done given.1 = true

/-- A due tracker is finished, or in the rest of the scan. -/
def Ahead (system : TrackerSystem threads) (observation : Observation) (rest : List ℕ) : Prop :=
  ∀ id ∈ observation.due, (system.tracker id).state = .terminal ∨ id ∈ rest

/-- What a thread relies on between its steps. -/
def Fits (system : TrackerSystem threads) : TrackerPhase → Prop
  | .storingFailed id started _ changed =>
      (system.tracker id).baselineStarted = started ∧
        (changed = true → (system.tracker id).state = .new)
  | .arming id started failed changed =>
      (system.tracker id).baselineStarted = started ∧
        (system.tracker id).baselineFailed = failed ∧
          (changed = true → (system.tracker id).state = .new)
  | .finishing id status observation =>
      ∀ seen, observation = some seen → system.Judged seen id status
  | .swapping id status observation expected =>
      (expected = .terminal → (system.tracker id).state = .terminal) ∧
        ∀ seen, observation = some seen → system.Judged seen id status
  | .completing id status observation =>
      (system.tracker id).state = .terminal ∧
        ∀ seen, observation = some seen → system.Judged seen id status
  | .scanning observation rest => rest ⊆ system.list ∧ system.Ahead observation rest
  | .comparing observation id rest =>
      id ∈ system.list ∧ rest ⊆ system.list ∧ system.Ahead observation (id :: rest) ∧
        (system.tracker id).given ≠ none
  | .judging observation id =>
      id ∈ system.list ∧ ∃ given, (system.tracker id).given = some given ∧
        advanced observation.done given.1 = true
  | .picked observation id status => id ∈ system.list ∧ system.Judged observation id status
  | .freeing id => id ∉ system.list
  | _ => True

/-- What holds between the steps of a disciplined run. -/
structure Sound (system : TrackerSystem threads) : Prop where
  fits : ∀ thread, system.Fits (system.phase thread)
  due : ∀ thread observation, (system.phase thread).observation = some observation →
    system.Due observation
  locked : ∀ thread, (system.phase thread).locked = true → system.mutex = some thread
  uses : ∀ thread id, (system.phase thread).uses id = true → (system.tracker id).live = true
  live : ∀ id, (system.tracker id).live = true → id < system.created
  listed : ∀ id ∈ system.list, (system.tracker id).live = true
  nodup : system.list.Nodup
  fresh : ∀ id, system.created ≤ id → system.tracker id = { Tracker.created with live := false }
  coherent : ∀ id, (system.tracker id).Coherent
  counted : ∀ id, (system.completions.countP fun called => called.id = id) +
    total (fun phase => (TrackerPhase.completes id phase).toNat) system.phase =
      if (system.tracker id).state = .terminal then 1 else 0
  logged : ∀ called ∈ system.completions, ∀ seen, called.observation = some seen →
    system.Judged seen called.id called.status

theorem init_sound : (init : TrackerSystem threads).Sound := by
  refine
    { fits := fun _ => trivial, due := nofun, locked := nofun, uses := nofun, live := nofun
      listed := nofun, nodup := List.nodup_nil, fresh := fun _ _ => rfl
      coherent := fun _ => ⟨nofun, nofun, fun _ => rfl⟩, counted := fun id => ?_, logged := nofun }
  simp [init, total, TrackerPhase.completes, Tracker.created]

/-- A step of one thread, as the other threads see it. -/
structure Frame (system after : TrackerSystem threads) (thread : Fin threads) : Prop where
  given : ∀ id given, (system.tracker id).given = some given →
    (after.tracker id).given = some given
  baselines : ∀ other, other ≠ thread → ∀ id, (system.phase other).arms id = true →
    (after.tracker id).baselineStarted = (system.tracker id).baselineStarted ∧
      (after.tracker id).baselineFailed = (system.tracker id).baselineFailed
  new : ∀ other, other ≠ thread → ∀ id, (system.phase other).altered id = true →
    (system.tracker id).state = .new → (after.tracker id).state = .new
  terminal : ∀ id, (system.tracker id).state = .terminal → (after.tracker id).state = .terminal
  armed : ∀ id, (system.tracker id).state = .armed → id ∈ system.list →
    (after.tracker id).state = .terminal ∨
      (after.tracker id).state = .armed ∧ id ∈ after.list
  list : ∀ other, other ≠ thread → system.mutex = some other →
    after.mutex = some other ∧ after.list = system.list
  left : ∀ other, other ≠ thread → ∀ id, (system.phase other).uses id = true →
    id ∉ system.list → id ∉ after.list

section Frame

variable {system after : TrackerSystem threads} {thread : Fin threads}

theorem Frame.judged (frame : Frame system after thread) {observation : Observation} {id : ℕ}
    {status : ℤ} (judged : system.Judged observation id status) :
    after.Judged observation id status := by
  obtain ⟨started, failed, given, rest⟩ := judged
  exact ⟨started, failed, frame.given id _ given, rest⟩

theorem Frame.due (frame : Frame system after thread) {observation : Observation}
    (due : system.Due observation) : after.Due observation := by
  intro id member
  rcases due id member with terminal | ⟨armed, listed, given, known, passed⟩
  · exact .inl (frame.terminal id terminal)
  · rcases frame.armed id armed listed with terminal | ⟨still, inside⟩
    · exact .inl terminal
    · exact .inr ⟨still, inside, given, frame.given id given known, passed⟩

theorem Frame.ahead (frame : Frame system after thread) {observation : Observation}
    {rest : List ℕ} (ahead : system.Ahead observation rest) : after.Ahead observation rest :=
  fun id member => (ahead id member).imp_left (frame.terminal id)

/-- The other threads can rely on what they relied on. -/
theorem Frame.fits (frame : Frame system after thread) (sound : system.Sound)
    {other : Fin threads} (apart : other ≠ thread) : after.Fits (system.phase other) := by
  have fits := sound.fits other
  have baselines := frame.baselines other apart
  have new := frame.new other apart
  have list := frame.list other apart
  have left := frame.left other apart
  have locked := sound.locked other
  generalize system.phase other = phase at *
  cases phase with
  | storingFailed id started failed changed =>
      obtain ⟨same, _⟩ := baselines id (by simp [TrackerPhase.arms])
      refine ⟨same.trans fits.1, fun altered => ?_⟩
      exact new id (by simp [TrackerPhase.altered, altered]) (fits.2 altered)
  | arming id started failed changed =>
      obtain ⟨same, also⟩ := baselines id (by simp [TrackerPhase.arms])
      refine ⟨same.trans fits.1, also.trans fits.2.1, fun altered => ?_⟩
      exact new id (by simp [TrackerPhase.altered, altered]) (fits.2.2 altered)
  | finishing id status observation => exact fun seen same => frame.judged (fits seen same)
  | swapping id status observation expected =>
      exact ⟨fun ended => frame.terminal id (fits.1 ended),
        fun seen same => frame.judged (fits.2 seen same)⟩
  | completing id status observation =>
      exact ⟨frame.terminal id fits.1, fun seen same => frame.judged (fits.2 seen same)⟩
  | scanning observation rest =>
      obtain ⟨_, same⟩ := list (locked rfl)
      exact ⟨same ▸ fits.1, frame.ahead fits.2⟩
  | comparing observation id rest =>
      obtain ⟨_, same⟩ := list (locked rfl)
      obtain ⟨inside, within, ahead, known⟩ := fits
      refine ⟨same ▸ inside, same ▸ within, frame.ahead ahead, ?_⟩
      obtain ⟨given, same⟩ := Option.ne_none_iff_exists'.mp known
      rw [frame.given id given same]
      exact Option.some_ne_none given
  | judging observation id =>
      obtain ⟨_, same⟩ := list (locked rfl)
      obtain ⟨inside, given, known, passed⟩ := fits
      exact ⟨same ▸ inside, given, frame.given id given known, passed⟩
  | picked observation id status =>
      obtain ⟨_, same⟩ := list (locked rfl)
      exact ⟨same ▸ fits.1, frame.judged fits.2⟩
  | freeing id => exact left id (by simp [TrackerPhase.uses]) fits
  | idle => trivial
  | storingStarted id started failed => trivial
  | locking observation => trivial
  | destroying id => trivial

end Frame

/-- A step of one thread that keeps what holds between the steps. -/
structure Changes (system after : TrackerSystem threads) (thread : Fin threads)
    (phase : TrackerPhase) : Prop where
  phases : after.phase = Function.update system.phase thread phase
  frame : Frame system after thread
  fits : after.Fits phase
  due : ∀ observation, phase.observation = some observation → system.Due observation
  locked : phase.locked = true → after.mutex = some thread
  uses : ∀ id, phase.uses id = true → (after.tracker id).live = true
  alive : ∀ other, other ≠ thread → ∀ id, (system.phase other).uses id = true →
    (system.tracker id).live = true → (after.tracker id).live = true
  live : ∀ id, (after.tracker id).live = true → id < after.created
  listed : ∀ id ∈ after.list, (after.tracker id).live = true
  nodup : after.list.Nodup
  fresh : ∀ id, after.created ≤ id → after.tracker id = { Tracker.created with live := false }
  coherent : ∀ id, (after.tracker id).Coherent
  counted : ∀ id, (after.completions.countP fun called => called.id = id) +
      (phase.completes id).toNat + (if (system.tracker id).state = .terminal then 1 else 0) =
    (system.completions.countP fun called => called.id = id) +
      ((system.phase thread).completes id).toNat +
        (if (after.tracker id).state = .terminal then 1 else 0)
  logged : ∀ called ∈ after.completions, called ∈ system.completions ∨
    ∀ seen, called.observation = some seen → after.Judged seen called.id called.status

theorem Changes.sound {system after : TrackerSystem threads} (thread : Fin threads)
    (phase : TrackerPhase) (changes : Changes system after thread phase) (sound : system.Sound) :
    after.Sound := by
  have frame := changes.frame
  have phases (other : Fin threads) : other = thread ∧ after.phase other = phase ∨
      other ≠ thread ∧ after.phase other = system.phase other := by
    rw [changes.phases]
    by_cases here : other = thread
    · exact .inl ⟨here, by rw [here, Function.update_self]⟩
    · exact .inr ⟨here, Function.update_of_ne here ..⟩
  refine
    { fits := fun other => ?_, due := fun other observation => ?_, locked := fun other => ?_
      uses := fun other id => ?_, live := changes.live, listed := changes.listed
      nodup := changes.nodup, fresh := changes.fresh, coherent := changes.coherent
      counted := fun id => ?_, logged := fun called member => ?_ }
  · rcases phases other with ⟨_, same⟩ | ⟨apart, same⟩ <;> rw [same]
    · exact changes.fits
    · exact frame.fits sound apart
  · rcases phases other with ⟨_, same⟩ | ⟨_, same⟩ <;> rw [same]
    · exact fun seen => frame.due (changes.due observation seen)
    · exact fun seen => frame.due (sound.due other observation seen)
  · rcases phases other with ⟨here, same⟩ | ⟨apart, same⟩ <;> rw [same]
    · exact fun holds => here ▸ changes.locked holds
    · exact fun holds => (frame.list other apart (sound.locked other holds)).1
  · rcases phases other with ⟨_, same⟩ | ⟨apart, same⟩ <;> rw [same]
    · exact changes.uses id
    · exact fun holds => changes.alive other apart id holds (sound.uses other id holds)
  · have moved := total_update (fun phase => (TrackerPhase.completes id phase).toNat) system.phase
      thread phase
    have before := sound.counted id
    have change := changes.counted id
    rw [changes.phases]
    omega
  · rcases changes.logged called member with old | new
    · exact fun seen same => frame.judged (sound.logged called old seen same)
    · exact new

section Steps

variable {system : TrackerSystem threads} {thread : Fin threads}

/-- How an access may change a tracker under the other threads. -/
structure Revision (system : TrackerSystem threads) (thread : Fin threads) (id : ℕ)
    (tracker : Tracker) : Prop where
  live : tracker.live = (system.tracker id).live
  coherent : tracker.Coherent
  given : ∀ given, (system.tracker id).given = some given → tracker.given = some given
  baselines : tracker.baselineStarted = (system.tracker id).baselineStarted ∧
      tracker.baselineFailed = (system.tracker id).baselineFailed ∨
    ∀ other, other ≠ thread → (system.phase other).arms id = false
  new : (system.tracker id).state = .new → tracker.state = .new ∨
    ∀ other, other ≠ thread → (system.phase other).altered id = false
  armed : (system.tracker id).state = .armed → tracker.state ≠ .new
  terminal : (system.tracker id).state = .terminal → tracker.state = .terminal

theorem Revision.refl (sound : system.Sound) (id : ℕ) :
    Revision system thread id (system.tracker id) :=
  { live := rfl, coherent := sound.coherent id, given := fun _ same => same
    baselines := .inl ⟨rfl, rfl⟩, new := .inl, armed := fun armed => by simp [armed]
    terminal := fun terminal => terminal }

/-- The baselines of a tracker are stored again, or while it is new and no other thread arms it. -/
theorem Revision.store (sound : system.Sound) {id : ℕ} {started failed : BitVec 32}
    (disciplined : (system.tracker id).baselineStarted = started ∧
        (system.tracker id).baselineFailed = failed ∨
      (system.tracker id).state = .new ∧
        ∀ other, other ≠ thread → (system.phase other).arms id = false) :
    Revision system thread id
      { system.tracker id with baselineStarted := started, baselineFailed := failed } := by
  have coherent := sound.coherent id
  refine
    { live := rfl, coherent := ⟨?_, coherent.armed, coherent.unarmed⟩, given := fun _ same => same
      baselines := disciplined.imp (fun same => ⟨same.1.symm, same.2.symm⟩) And.right
      new := .inl, armed := fun armed => by simp [armed], terminal := fun terminal => terminal }
  intro first second given
  rcases disciplined with ⟨rfl, rfl⟩ | ⟨new, _⟩
  · exact coherent.given first second given
  · rw [coherent.unarmed new] at given
    cases given

variable {after : TrackerSystem threads}

/-- A step that revises one tracker and leaves the list alone. -/
theorem Sound.revise (sound : system.Sound) (id : ℕ)
    {tracker : Tracker} {phase : TrackerPhase} (revision : Revision system thread id tracker)
    (used : id < system.created ∨ tracker = system.tracker id)
    (trackers : after.tracker = Function.update system.tracker id tracker)
    (list : after.list = system.list) (created : after.created = system.created)
    (completions : after.completions = system.completions)
    (mutex : ∀ other, other ≠ thread → system.mutex = some other → after.mutex = some other)
    (phases : after.phase = Function.update system.phase thread phase)
    (fits : after.Fits phase)
    (due : ∀ observation, phase.observation = some observation → system.Due observation)
    (locked : phase.locked = true → after.mutex = some thread)
    (uses : ∀ own, phase.uses own = true → (system.tracker own).live = true)
    (counted : ∀ own, (phase.completes own).toNat +
        (if (system.tracker own).state = .terminal then 1 else 0) =
      ((system.phase thread).completes own).toNat +
        (if (after.tracker own).state = .terminal then 1 else 0)) : after.Sound := by
  have places (own : ℕ) : own = id ∧ after.tracker own = tracker ∨
      own ≠ id ∧ after.tracker own = system.tracker own := by
    rw [trackers]
    by_cases here : own = id
    · exact .inl ⟨here, by rw [here, Function.update_self]⟩
    · exact .inr ⟨here, Function.update_of_ne here ..⟩
  have alive (own : ℕ) : (after.tracker own).live = (system.tracker own).live := by
    rcases places own with ⟨rfl, same⟩ | ⟨_, same⟩ <;> rw [same]
    exact revision.live
  refine Changes.sound thread phase ?_ sound
  refine
    { phases := phases, frame := ?_, fits := fits, due := due, locked := locked
      uses := fun own holds => (alive own).trans (uses own holds)
      alive := fun other apart own holds before => (alive own).trans before
      live := fun own holds => ?_, listed := fun own member => ?_, nodup := list ▸ sound.nodup
      fresh := fun own beyond => ?_, coherent := fun own => ?_, counted := fun own => ?_
      logged := fun called member => .inl (completions ▸ member) }
  · refine
      { given := fun own given => ?_, baselines := fun other apart own holds => ?_
        new := fun other apart own holds before => ?_, terminal := fun own before => ?_
        armed := fun own before member => ?_, list := fun other apart holds => ?_
        left := fun other apart own holds absent => list ▸ absent }
    · rcases places own with ⟨rfl, same⟩ | ⟨_, same⟩ <;> rw [same]
      · exact revision.given given
      · exact fun before => before
    · rcases places own with ⟨rfl, same⟩ | ⟨_, same⟩ <;> rw [same]
      · rcases revision.baselines with kept | alone
        · exact kept
        · rw [alone other apart] at holds
          cases holds
      · exact ⟨rfl, rfl⟩
    · rcases places own with ⟨rfl, same⟩ | ⟨_, same⟩ <;> rw [same]
      · rcases revision.new before with kept | alone
        · exact kept
        · rw [alone other apart] at holds
          cases holds
      · exact before
    · rcases places own with ⟨rfl, same⟩ | ⟨_, same⟩ <;> rw [same]
      · exact revision.terminal before
      · exact before
    · rw [list]
      rcases places own with ⟨rfl, same⟩ | ⟨_, same⟩ <;> rw [same]
      · cases state : tracker.state with
        | new => exact absurd state (revision.armed before)
        | armed => exact .inr ⟨rfl, member⟩
        | terminal => exact .inl rfl
      · exact .inr ⟨before, member⟩
    · exact ⟨mutex other apart holds, list⟩
  · rw [created]
    exact sound.live own ((alive own).symm.trans holds)
  · rw [list] at member
    exact (alive own).trans (sound.listed own member)
  · rw [created] at beyond
    rcases places own with ⟨rfl, same⟩ | ⟨_, same⟩ <;> rw [same]
    · rcases used with inside | kept
      · omega
      · rw [kept]
        exact sound.fresh own beyond
    · exact sound.fresh own beyond
  · rcases places own with ⟨rfl, same⟩ | ⟨_, same⟩ <;> rw [same]
    · exact revision.coherent
    · exact sound.coherent own
  · have change := counted own
    rw [completions]
    omega

/-- A step that changes no tracker. -/
theorem Sound.pass (sound : system.Sound) (phase : TrackerPhase)
    (trackers : after.tracker = system.tracker) (list : after.list = system.list)
    (created : after.created = system.created)
    (completions : after.completions = system.completions)
    (mutex : ∀ other, other ≠ thread → system.mutex = some other → after.mutex = some other)
    (phases : after.phase = Function.update system.phase thread phase)
    (fits : after.Fits phase)
    (due : ∀ observation, phase.observation = some observation → system.Due observation)
    (locked : phase.locked = true → after.mutex = some thread)
    (uses : ∀ own, phase.uses own = true → (system.tracker own).live = true)
    (completes : ∀ own, phase.completes own = (system.phase thread).completes own) :
    after.Sound := by
  refine sound.revise 0 (.refl sound 0) (.inr rfl) ?_ list created completions mutex phases fits due
    locked uses fun own => ?_
  · rw [Function.update_eq_self, trackers]
  · rw [completes, trackers]

/-- A call that returns without a change. -/
theorem Sound.answered (sound : system.Sound) {result : Option TrackerError}
    (completes : ∀ own, (system.phase thread).completes own = false) :
    (system.answer thread result).Sound :=
  sound.pass _ rfl rfl rfl rfl (fun _ _ same => same) rfl trivial nofun nofun nofun
    fun own => (completes own).symm

variable {id : ℕ} {observation : Option Observation}

/-- The first store of an arm call. -/
theorem storingStarted_sound (sound : system.Sound) {started failed : BitVec 32}
    (phase : system.phase thread = .storingStarted id started failed)
    (disciplined : (system.tracker id).baselineStarted = started ∨
      (system.tracker id).state = .new ∧
        ∀ other, other ≠ thread → (system.phase other).arms id = false) :
    ((system.edit id { system.tracker id with baselineStarted := started }).move thread
      (.storingFailed id started failed
        ((system.tracker id).baselineStarted != started))).Sound := by
  have alive := sound.uses thread id (by simp [phase, TrackerPhase.uses])
  refine sound.revise id (.store sound (disciplined.imp_left fun same => ⟨same, rfl⟩))
    (.inl (sound.live id alive)) rfl rfl rfl rfl (fun _ _ same => same) rfl ?_ nofun nofun ?_
    fun own => ?_
  · simp only [Fits, move, edit, Function.update_self, true_and, bne_iff_ne]
    intro differs
    exact (disciplined.resolve_left differs).1
  · intro own holds
    rwa [← of_decide_eq_true holds]
  · rw [phase]
    by_cases here : own = id
    · simp [here, move, edit, TrackerPhase.completes]
    · simp [here, move, edit, TrackerPhase.completes]

/-- The second store of an arm call. -/
theorem storingFailed_sound (sound : system.Sound) {started failed : BitVec 32}
    {changed : Bool} (phase : system.phase thread = .storingFailed id started failed changed)
    (disciplined : (system.tracker id).baselineFailed = failed ∨
      (system.tracker id).state = .new ∧
        ∀ other, other ≠ thread → (system.phase other).arms id = false) :
    ((system.edit id { system.tracker id with baselineFailed := failed }).move thread
      (.arming id started failed
        (changed || (system.tracker id).baselineFailed != failed))).Sound := by
  have alive := sound.uses thread id (by simp [phase, TrackerPhase.uses])
  have fits := sound.fits thread
  rw [phase] at fits
  refine sound.revise id (.store sound (disciplined.imp_left fun same => ⟨rfl, same⟩))
    (.inl (sound.live id alive)) rfl rfl rfl rfl (fun _ _ same => same) rfl ?_ nofun nofun ?_
    fun own => ?_
  · simp only [Fits, move, edit, Function.update_self, Bool.or_eq_true, bne_iff_ne, true_and]
    refine ⟨fits.1, ?_⟩
    rintro (before | differs)
    · exact fits.2 before
    · exact (disciplined.resolve_left differs).1
  · intro own holds
    rwa [← of_decide_eq_true holds]
  · rw [phase]
    by_cases here : own = id
    · simp [here, move, edit, TrackerPhase.completes]
    · simp [here, move, edit, TrackerPhase.completes]

/-- The exchange of an arm call that succeeds. -/
theorem arming_sound (sound : system.Sound) {started failed : BitVec 32} {changed : Bool}
    (phase : system.phase thread = .arming id started failed changed)
    (new : (system.tracker id).state = .new)
    (disciplined : ∀ other, other ≠ thread → (system.phase other).altered id = false) :
    ((system.edit id { system.tracker id with
      state := .armed, given := some (started, failed) }).answer thread none).Sound := by
  have alive := sound.uses thread id (by simp [phase, TrackerPhase.uses])
  have fits := sound.fits thread
  rw [phase] at fits
  have none := (sound.coherent id).unarmed new
  refine sound.revise id ?_ (.inl (sound.live id alive)) rfl rfl rfl rfl
    (fun _ _ same => same) rfl trivial nofun nofun nofun fun own => ?_
  · refine
      { live := rfl, coherent := ⟨?_, fun _ => Option.some_ne_none _, nofun⟩
        given := fun given same => ?_, baselines := .inl ⟨rfl, rfl⟩, new := fun _ => .inr disciplined
        armed := nofun, terminal := fun terminal => ?_ }
    · intro first second given
      obtain ⟨rfl, rfl⟩ := Prod.mk.inj (Option.some.inj given)
      exact ⟨fits.1, fits.2.1⟩
    · rw [none] at same
      cases same
    · rw [new] at terminal
      cases terminal
  · rw [phase]
    by_cases here : own = id
    · simp [here, new, answer, move, edit, TrackerPhase.completes]
    · simp [here, answer, move, edit, TrackerPhase.completes]

/-- The exchange of a finish call that succeeds. -/
theorem swapping_sound (sound : system.Sound) {status : ℤ} {expected : TrackerState}
    (phase : system.phase thread = .swapping id status observation expected)
    (unfinished : (system.tracker id).state ≠ .terminal)
    (disciplined : (system.tracker id).state = .new →
      ∀ other, other ≠ thread → (system.phase other).altered id = false) :
    ((system.edit id { system.tracker id with state := .terminal }).move thread
      (.completing id status observation)).Sound := by
  have alive := sound.uses thread id (by simp [phase, TrackerPhase.uses])
  have fits := sound.fits thread
  have coherent := sound.coherent id
  rw [phase] at fits
  refine sound.revise id ?_ (.inl (sound.live id alive)) rfl rfl rfl rfl
    (fun _ _ same => same) rfl ?_ ?_ nofun ?_ fun own => ?_
  · exact
      { live := rfl, coherent := ⟨coherent.given, nofun, nofun⟩, given := fun _ same => same
        baselines := .inl ⟨rfl, rfl⟩, new := fun new => .inr (disciplined new), armed := nofun
        terminal := fun _ => rfl }
  · refine ⟨by simp [move, edit], fun seen same => ?_⟩
    obtain ⟨started, failed, given, rest⟩ := fits.2 seen same
    refine ⟨started, failed, ?_, rest⟩
    simpa [move, edit] using given
  · exact fun seen same => sound.due thread seen (by rw [phase]; exact same)
  · intro own holds
    rwa [← of_decide_eq_true holds]
  · rw [phase]
    by_cases here : own = id
    · simp [here, unfinished, move, edit, TrackerPhase.completes]
    · simp [here, Ne.symm here, move, edit, TrackerPhase.completes]

/-- The end of a finish call that does not call the completion. -/
theorem resume_sound (sound : system.Sound) {result : Option TrackerError}
    (seen : ∀ observed, observation = some observed → system.Due observed)
    (completes : ∀ own, (system.phase thread).completes own = false) :
    (system.resume thread result observation).Sound := by
  cases observation with
  | none => exact sound.answered completes
  | some observed =>
      refine sound.pass (.locking observed) rfl rfl rfl rfl (fun _ _ same => same) rfl
        trivial ?_ nofun nofun fun own => (completes own).symm
      intro other same
      exact seen other same

/-- A step that changes neither a tracker nor the list. -/
theorem Frame.same (trackers : after.tracker = system.tracker) (list : after.list = system.list)
    (mutex : ∀ other, other ≠ thread → system.mutex = some other → after.mutex = some other) :
    Frame system after thread where
  given id given same := by rwa [trackers]
  baselines other apart id holds := by simp [trackers]
  new other apart id holds before := by rwa [trackers]
  terminal id before := by rwa [trackers]
  armed id before member := .inr ⟨by rwa [trackers], by rwa [list]⟩
  list other apart holds := ⟨mutex other apart holds, list⟩
  left other apart id holds absent := by rwa [list]

theorem completing_sound (sound : system.Sound) {status : ℤ}
    (phase : system.phase thread = .completing id status observation) :
    (resume { system with completions := system.completions ++
      [{ id := id, status := status, observation := observation }] } thread none
        observation).Sound := by
  have fits := sound.fits thread
  have due := sound.due thread
  rw [phase] at fits due
  have called {after : TrackerSystem threads} (next : TrackerPhase)
      (phases : after.phase = Function.update system.phase thread next)
      (trackers : after.tracker = system.tracker) (list : after.list = system.list)
      (mutex : after.mutex = system.mutex) (created : after.created = system.created)
      (completions : after.completions = system.completions ++
        [{ id := id, status := status, observation := observation }])
      (rests : after.Fits next) (unlocked : next.locked = false)
      (unused : ∀ own, next.uses own = false) (quiet : ∀ own, next.completes own = false)
      (seen : ∀ observed, next.observation = some observed → observation = some observed) :
      after.Sound := by
    refine Changes.sound thread next ?_ sound
    refine
      { phases := phases, frame := .same trackers list fun _ _ held => mutex.trans held
        fits := rests, due := fun observed same => due observed (seen observed same)
        locked := fun holds => absurd holds (by simp [unlocked])
        uses := fun own holds => absurd holds (by simp [unused])
        alive := fun _ _ own _ before => trackers ▸ before
        live := fun own holds => ?_, listed := fun own member => ?_, nodup := list ▸ sound.nodup
        fresh := fun own beyond => ?_, coherent := fun own => trackers ▸ sound.coherent own
        counted := fun own => ?_, logged := fun called member => ?_ }
    · rw [created]
      exact sound.live own (trackers ▸ holds)
    · rw [trackers]
      exact sound.listed own (list ▸ member)
    · rw [trackers]
      exact sound.fresh own (created ▸ beyond)
    · rw [completions, phase, trackers, quiet, List.countP_append, List.countP_singleton]
      by_cases here : id = own
      · simp [here, TrackerPhase.completes]
      · simp [here, TrackerPhase.completes]
    · rw [completions, List.mem_append, List.mem_singleton] at member
      refine member.imp_right ?_
      rintro rfl observed same
      obtain ⟨started, failed, given, rest⟩ := fits.2 observed same
      exact ⟨started, failed, trackers ▸ given, rest⟩
  cases observation with
  | none =>
      exact called .idle rfl rfl rfl rfl rfl rfl trivial rfl (fun _ => rfl)
        (fun _ => rfl) nofun
  | some observed =>
      exact called (.locking observed) rfl rfl rfl rfl rfl rfl trivial rfl (fun _ => rfl)
        (fun _ => rfl) fun _ same => same

/-- A tracker leaves the list. -/
theorem destroying_sound (sound : system.Sound)
    (phase : system.phase thread = .destroying id) (unlocked : system.mutex = none)
    (disciplined : (system.tracker id).state ≠ .armed) :
    ({ system.move thread (.freeing id) with
      list := system.list.erase id } : TrackerSystem threads).Sound := by
  have alive := sound.uses thread id (by simp [phase, TrackerPhase.uses])
  refine Changes.sound thread (.freeing id) ?_ sound
  refine
    { phases := rfl, frame := ?_, fits := ?_, due := nofun, locked := nofun, uses := ?_
      alive := fun _ _ _ _ before => before, live := sound.live
      listed := fun own member => sound.listed own (List.mem_of_mem_erase member)
      nodup := sound.nodup.erase id, fresh := sound.fresh, coherent := sound.coherent
      counted := fun own => ?_, logged := fun called member => .inl member }
  · refine
      { given := fun _ _ same => same, baselines := fun _ _ _ _ => ⟨rfl, rfl⟩
        new := fun _ _ _ _ before => before, terminal := fun _ before => before
        armed := fun own before member => ?_, list := fun other apart holds => ?_
        left := fun _ _ own _ absent member => absent (List.mem_of_mem_erase member) }
    · refine .inr ⟨before, (List.mem_erase_of_ne ?_).mpr member⟩
      rintro rfl
      exact disciplined before
    · rw [unlocked] at holds
      cases holds
  · exact sound.nodup.not_mem_erase
  · intro own holds
    rwa [← of_decide_eq_true holds]
  · rw [phase]
    rfl

theorem freeing_sound (sound : system.Sound) (phase : system.phase thread = .freeing id)
    (disciplined : ∀ other, other ≠ thread → (system.phase other).uses id = false) :
    ((system.edit id { system.tracker id with live := false }).answer thread none).Sound := by
  have alive := sound.uses thread id (by simp [phase, TrackerPhase.uses])
  have absent := sound.fits thread
  rw [phase] at absent
  have places (own : ℕ) : own = id ∧ Function.update system.tracker id
        { system.tracker id with live := false } own =
          { system.tracker id with live := false } ∨
      own ≠ id ∧ Function.update system.tracker id
        { system.tracker id with live := false } own = system.tracker own := by
    by_cases here : own = id
    · exact .inl ⟨here, by rw [here, Function.update_self]⟩
    · exact .inr ⟨here, Function.update_of_ne here ..⟩
  refine Changes.sound thread .idle ?_ sound
  refine
    { phases := rfl, frame := ?_, fits := trivial, due := nofun, locked := nofun, uses := nofun
      alive := fun other apart own holds before => ?_, live := fun own holds => ?_
      listed := fun own member => ?_, nodup := sound.nodup, fresh := fun own beyond => ?_
      coherent := fun own => ?_, counted := fun own => ?_
      logged := fun called member => .inl member }
  · refine
      { given := fun own given same => ?_, baselines := fun _ _ own _ => ?_
        new := fun _ _ own _ before => ?_, terminal := fun own before => ?_
        armed := fun own before member => .inr ⟨?_, member⟩
        list := fun _ _ holds => ⟨holds, rfl⟩, left := fun _ _ _ _ outside => outside }
    all_goals
      simp only [answer, move, edit]
      rcases places own with ⟨rfl, same⟩ | ⟨_, same⟩ <;> rw [same]
    all_goals first | assumption | exact ⟨rfl, rfl⟩
  · simp only [answer, move, edit]
    rcases places own with ⟨rfl, same⟩ | ⟨_, same⟩ <;> rw [same]
    · rw [disciplined other apart] at holds
      cases holds
    · exact before
  · simp only [answer, move, edit] at holds ⊢
    rcases places own with ⟨rfl, same⟩ | ⟨_, same⟩ <;> rw [same] at holds
    · cases holds
    · exact sound.live own holds
  · simp only [answer, move, edit] at member ⊢
    rcases places own with ⟨rfl, same⟩ | ⟨_, same⟩ <;> rw [same]
    · exact absurd member absent
    · exact sound.listed own member
  · simp only [answer, move, edit] at beyond ⊢
    have inside := sound.live id alive
    rcases places own with ⟨rfl, same⟩ | ⟨_, same⟩ <;> rw [same]
    · omega
    · exact sound.fresh own beyond
  · simp only [answer, move, edit]
    have coherent := sound.coherent own
    rcases places own with ⟨rfl, same⟩ | ⟨_, same⟩ <;> rw [same]
    · exact ⟨coherent.given, coherent.armed, coherent.unarmed⟩
    · exact coherent
  · rw [phase]
    by_cases here : own = id
    · simp [here, answer, move, edit, TrackerPhase.completes]
    · simp [here, answer, move, edit, TrackerPhase.completes]

theorem create_sound (sound : system.Sound) (idle : system.phase thread = .idle)
    (unlocked : system.mutex = none) :
    ({ system.edit system.created .created with
      created := system.created + 1, list := system.created :: system.list
      result := Function.update system.result thread none } : TrackerSystem threads).Sound := by
  have places (own : ℕ) : own = system.created ∧ Function.update system.tracker system.created
        .created own = .created ∧ system.tracker own = { Tracker.created with live := false } ∨
      own ≠ system.created ∧ Function.update system.tracker system.created .created own =
        system.tracker own := by
    by_cases here : own = system.created
    · exact .inl ⟨here, by rw [here, Function.update_self], sound.fresh own here.ge⟩
    · exact .inr ⟨here, Function.update_of_ne here ..⟩
  have known (own : ℕ) (holds : (system.tracker own).live = true) : own ≠ system.created :=
    (sound.live own holds).ne
  refine Changes.sound thread .idle ?_ sound
  refine
    { phases := ?_, frame := ?_, fits := trivial, due := nofun, locked := nofun, uses := nofun
      alive := fun other apart own holds before => ?_, live := fun own holds => ?_
      listed := fun own member => ?_, nodup := ?_, fresh := fun own beyond => ?_
      coherent := fun own => ?_, counted := fun own => ?_
      logged := fun called member => .inl member }
  · exact (Function.update_eq_self_iff.mpr idle.symm).symm
  · refine
      { given := fun own given same => ?_, baselines := fun other apart own holds => ?_
        new := fun other apart own holds before => ?_, terminal := fun own before => ?_
        armed := fun own before member => ?_, list := fun other apart holds => ?_
        left := fun other apart own holds outside => ?_ }
    · rcases places own with ⟨_, _, old⟩ | ⟨_, kept⟩
      · rw [old] at same
        cases same
      · exact (congrArg Tracker.given kept).trans same
    · have apart := known own (sound.uses other own (TrackerPhase.uses_of_arms holds))
      have kept := ((places own).resolve_left fun here => apart here.1).2
      exact ⟨congrArg Tracker.baselineStarted kept, congrArg Tracker.baselineFailed kept⟩
    · rcases places own with ⟨_, new, _⟩ | ⟨_, kept⟩
      · exact congrArg Tracker.state new
      · exact (congrArg Tracker.state kept).trans before
    · rcases places own with ⟨_, _, old⟩ | ⟨_, kept⟩
      · rw [old] at before
        cases before
      · exact (congrArg Tracker.state kept).trans before
    · rcases places own with ⟨_, _, old⟩ | ⟨_, kept⟩
      · rw [old] at before
        cases before
      · exact .inr ⟨(congrArg Tracker.state kept).trans before, List.mem_cons_of_mem _ member⟩
    · rw [unlocked] at holds
      cases holds
    · rw [List.mem_cons, not_or]
      exact ⟨known own (sound.uses other own holds), outside⟩
  · have kept := ((places own).resolve_left fun here => known own before here.1).2
    exact (congrArg Tracker.live kept).trans before
  · rcases places own with ⟨rfl, _⟩ | ⟨_, kept⟩
    · exact Nat.lt_succ_self _
    · exact Nat.lt_succ_of_lt (sound.live own ((congrArg Tracker.live kept).symm.trans holds))
  · rcases places own with ⟨_, new, _⟩ | ⟨apart, kept⟩
    · exact congrArg Tracker.live new
    · exact (congrArg Tracker.live kept).trans
        (sound.listed own ((List.mem_cons.mp member).resolve_left apart))
  · refine List.nodup_cons.mpr ⟨fun member => ?_, sound.nodup⟩
    exact known _ (sound.listed _ member) rfl
  · have apart : own ≠ system.created := by
      rintro rfl
      exact absurd beyond (Nat.not_succ_le_self _)
    have kept := ((places own).resolve_left fun here => apart here.1).2
    exact kept.trans (sound.fresh own (Nat.le_of_succ_le beyond))
  · have coherent := sound.coherent own
    rcases places own with ⟨_, new, _⟩ | ⟨_, kept⟩
    · refine (congrArg Tracker.Coherent new).mpr ?_
      exact ⟨nofun, nofun, fun _ => rfl⟩
    · exact (congrArg Tracker.Coherent kept).mpr coherent
  · rw [idle]
    have same : (Function.update system.tracker system.created .created own).state =
        (system.tracker own).state := by
      rcases places own with ⟨_, new, old⟩ | ⟨_, kept⟩
      · rw [new, old]
      · rw [kept]
    simp only [edit, same]

theorem scanning_sound (sound : system.Sound) {observation : Observation} {rest : List ℕ}
    (phase : system.phase thread = .scanning observation (id :: rest)) :
    ((system.tracker id).state = .armed →
        (system.move thread (.comparing observation id rest)).Sound) ∧
      ((system.tracker id).state ≠ .armed →
        (system.move thread (.scanning observation rest)).Sound) := by
  have fits := sound.fits thread
  have due := sound.due thread
  have locked := sound.locked thread
  rw [phase] at fits due locked
  obtain ⟨within, ahead⟩ := fits
  obtain ⟨inside, after⟩ := List.cons_subset.mp within
  constructor
  · intro armed
    refine sound.pass (.comparing observation id rest) rfl rfl rfl rfl
      (fun _ _ same => same) rfl ?_ due locked ?_ fun own => by rw [phase]; rfl
    · exact ⟨inside, after, ahead, (sound.coherent id).armed armed⟩
    · intro own holds
      rw [← of_decide_eq_true holds]
      exact sound.listed id inside
  · intro other
    refine sound.pass (.scanning observation rest) rfl rfl rfl rfl
      (fun _ _ same => same) rfl ⟨after, ?_⟩ due locked nofun fun own => by rw [phase]; rfl
    intro own member
    rcases ahead own member with terminal | here
    · exact .inl terminal
    · rcases List.mem_cons.mp here with rfl | later
      · rcases due observation rfl own member with terminal | ⟨armed, _⟩
        · exact .inl terminal
        · exact absurd armed other
      · exact .inr later

/-- The comparison of an armed tracker with the counters. -/
theorem comparing_sound (sound : system.Sound) {observation : Observation} {rest : List ℕ}
    (phase : system.phase thread = .comparing observation id rest) :
    (advanced observation.done (system.tracker id).baselineStarted = true →
        (system.move thread (.judging observation id)).Sound) ∧
      (advanced observation.done (system.tracker id).baselineStarted = false →
        (system.move thread (.scanning observation rest)).Sound) := by
  have fits := sound.fits thread
  have due := sound.due thread
  have locked := sound.locked thread
  rw [phase] at fits due locked
  obtain ⟨inside, within, ahead, known⟩ := fits
  obtain ⟨given, same⟩ := Option.ne_none_iff_exists'.mp known
  have baseline := ((sound.coherent id).given given.1 given.2 same).1
  constructor
  · intro passed
    refine sound.pass (.judging observation id) rfl rfl rfl rfl
      (fun _ _ same => same) rfl ⟨inside, given, same, baseline ▸ passed⟩ due locked ?_
      fun own => by rw [phase]; rfl
    intro own holds
    rw [← of_decide_eq_true holds]
    exact sound.listed id inside
  · intro behind
    refine sound.pass (.scanning observation rest) rfl rfl rfl rfl
      (fun _ _ same => same) rfl ⟨within, ?_⟩ due locked nofun fun own => by rw [phase]; rfl
    intro own member
    rcases ahead own member with terminal | here
    · exact .inl terminal
    · rcases List.mem_cons.mp here with rfl | later
      · rcases due observation rfl own member with terminal | ⟨_, _, other, known, passed⟩
        · exact .inl terminal
        · rw [same] at known
          obtain rfl := Option.some.inj known
          rw [← baseline, behind] at passed
          cases passed
      · exact .inr later

/-- The choice of the status. -/
theorem judging_sound (sound : system.Sound) {observation : Observation}
    (phase : system.phase thread = .judging observation id) :
    (system.move thread (.picked observation id
      (if observation.failed ≠ (system.tracker id).baselineFailed then eio else 0))).Sound := by
  have fits := sound.fits thread
  have due := sound.due thread
  have locked := sound.locked thread
  rw [phase] at fits due locked
  obtain ⟨inside, ⟨started, failed⟩, same, passed⟩ := fits
  have baseline := ((sound.coherent id).given started failed same).2
  refine sound.pass (.picked observation id _) rfl rfl rfl rfl (fun _ _ same => same) rfl
    ⟨inside, started, failed, same, passed, by rw [baseline]⟩ due locked ?_
    fun own => by rw [phase]; rfl
  intro own holds
  rw [← of_decide_eq_true holds]
  exact sound.listed id inside

/-- A disciplined step keeps what holds between the steps. -/
theorem advance_sound (sound : system.Sound) {spurious : Bool}
    (disciplined : system.Careful thread (system.phase thread))
    (taken : system.advance thread spurious (system.phase thread) = some after) :
    after.Sound := by
  have due := sound.due thread
  have uses := sound.uses thread
  have fits := sound.fits thread
  have locked := sound.locked thread
  cases phase : system.phase thread with
  | idle =>
      rw [phase] at taken
      cases taken
  | storingStarted id started failed =>
      rw [phase] at taken disciplined
      obtain rfl := Option.some.inj taken
      exact storingStarted_sound sound phase disciplined
  | storingFailed id started failed changed =>
      rw [phase] at taken disciplined
      obtain rfl := Option.some.inj taken
      exact storingFailed_sound sound phase disciplined
  | arming id started failed changed =>
      rw [phase] at taken disciplined
      simp only [advance] at taken
      cases state : (system.tracker id).state with
      | new =>
          simp only [state, Option.some.injEq] at taken
          subst taken
          exact arming_sound sound phase state (disciplined state)
      | armed =>
          simp only [state, Option.some.injEq] at taken
          subst taken
          exact sound.answered fun own => by rw [phase]; rfl
      | terminal =>
          simp only [state, Option.some.injEq] at taken
          subst taken
          exact sound.answered fun own => by rw [phase]; rfl
  | finishing id status observation =>
      rw [phase] at taken due uses fits
      obtain rfl := Option.some.inj taken
      exact sound.pass _ rfl rfl rfl rfl (fun _ _ same => same) rfl ⟨fun ended => ended, fits⟩ due
        nofun uses fun own => by rw [phase]; rfl
  | swapping id status observation expected =>
      rw [phase] at taken disciplined due uses fits
      simp only [advance] at taken
      split_ifs at taken with ended equal <;> obtain rfl := Option.some.inj taken
      · exact resume_sound sound due fun own => by rw [phase]; rfl
      · exact swapping_sound sound phase (fun terminal => ended (equal.1 ▸ terminal)) disciplined
      · exact sound.pass _ rfl rfl rfl rfl (fun _ _ same => same) rfl ⟨fun ended => ended, fits.2⟩ due
          nofun uses fun own => by rw [phase]; rfl
  | completing id status observation =>
      rw [phase] at taken
      obtain rfl := Option.some.inj taken
      exact completing_sound sound phase
  | locking observation =>
      rw [phase] at taken due
      simp only [advance] at taken
      split_ifs at taken with unlocked
      obtain rfl := Option.some.inj taken
      refine sound.pass (.scanning observation system.list) rfl rfl rfl rfl ?_ rfl ?_ due
        (fun _ => rfl) nofun fun own => by rw [phase]; rfl
      · intro other apart holds
        rw [unlocked] at holds
        cases holds
      · refine ⟨List.Subset.refl _, fun own member => ?_⟩
        exact (due observation rfl own member).imp_right fun waiting => waiting.2.1
  | scanning observation rest =>
      rw [phase] at taken
      cases rest with
      | nil =>
          obtain rfl := Option.some.inj taken
          have held := locked (by rw [phase]; rfl)
          refine sound.pass .idle rfl rfl rfl rfl ?_ rfl trivial nofun nofun nofun
            fun own => by rw [phase]; rfl
          intro other apart holds
          rw [held] at holds
          exact absurd (Option.some.inj holds).symm apart
      | cons id rest =>
          obtain ⟨compare, skip⟩ := scanning_sound sound phase
          simp only [advance] at taken
          split_ifs at taken with armed <;> obtain rfl := Option.some.inj taken
          · exact compare armed
          · exact skip armed
  | comparing observation id rest =>
      rw [phase] at taken
      obtain ⟨judge, skip⟩ := comparing_sound sound phase
      simp only [advance] at taken
      split_ifs at taken with passed <;> obtain rfl := Option.some.inj taken
      · exact judge passed
      · exact skip (Bool.eq_false_iff.mpr passed)
  | judging observation id =>
      rw [phase] at taken
      obtain rfl := Option.some.inj taken
      exact judging_sound sound phase
  | picked observation id status =>
      have held := locked (by rw [phase]; rfl)
      rw [phase] at taken due uses fits
      obtain rfl := Option.some.inj taken
      refine sound.pass (.finishing id status (some observation)) rfl rfl rfl rfl ?_ rfl
        ?_ due nofun uses fun own => by rw [phase]; rfl
      · intro other apart holds
        rw [held] at holds
        exact absurd (Option.some.inj holds).symm apart
      · rintro seen same
        obtain rfl := Option.some.inj same
        exact fits.2
  | destroying id =>
      rw [phase] at taken disciplined
      simp only [advance] at taken
      split_ifs at taken with unlocked listed <;> obtain rfl := Option.some.inj taken
      · exact destroying_sound sound phase unlocked disciplined
      · exact sound.answered fun own => by rw [phase]; rfl
  | freeing id =>
      rw [phase] at taken disciplined
      obtain rfl := Option.some.inj taken
      exact freeing_sound sound phase disciplined

theorem step_sound (sound : system.Sound) {action : TrackerAction threads}
    (disciplined : system.Disciplined action)
    (taken : system.step action = some after) : after.Sound := by
  cases action with
  | create thread =>
      simp only [step] at taken
      split_ifs at taken with able
      obtain rfl := Option.some.inj taken
      exact create_sound sound able.1 able.2
  | arm thread id started failed =>
      simp only [step] at taken
      split_ifs at taken with able
      obtain rfl := Option.some.inj taken
      refine sound.pass (.storingStarted id started failed) rfl rfl rfl rfl
        (fun _ _ same => same) rfl trivial nofun nofun ?_ fun own => by rw [able.1]; rfl
      intro own holds
      rw [← of_decide_eq_true holds]
      exact able.2
  | finish thread id status =>
      simp only [step] at taken
      split_ifs at taken with able
      obtain rfl := Option.some.inj taken
      refine sound.pass (.finishing id status none) rfl rfl rfl rfl
        (fun _ _ same => same) rfl nofun nofun nofun ?_ fun own => by rw [able.1]; rfl
      intro own holds
      rw [← of_decide_eq_true holds]
      exact able.2
  | observe thread done failed =>
      simp only [step] at taken
      split_ifs at taken with idle
      obtain rfl := Option.some.inj taken
      refine sound.pass (.locking _) rfl rfl rfl rfl (fun _ _ same => same) rfl trivial
        ?_ nofun nofun fun own => by rw [idle]; rfl
      intro observation same
      obtain rfl := Option.some.inj same
      intro id member
      simp only [dueAt, List.mem_filter, Bool.and_eq_true, decide_eq_true_eq,
        Option.map_eq_some_iff] at member
      obtain ⟨listed, armed, given, known, passed⟩ := member
      exact .inr ⟨armed, listed, given, known, passed⟩
  | destroy thread id =>
      simp only [step] at taken
      split_ifs at taken with able armed <;> obtain rfl := Option.some.inj taken
      · exact sound.answered fun own => by rw [able.1]; rfl
      · refine sound.pass (.destroying id) rfl rfl rfl rfl
          (fun _ _ same => same) rfl trivial nofun nofun ?_ fun own => by rw [able.1]; rfl
        intro own holds
        rw [← of_decide_eq_true holds]
        exact able.2
  | advance thread spurious => exact advance_sound sound disciplined taken

end Steps

theorem Reachable.sound {system : TrackerSystem threads} (reached : Reachable system) :
    system.Sound := by
  induction reached with
  | init => exact init_sound
  | step before disciplined taken induction => exact step_sound induction disciplined taken

/-- A call on a tracker that ends finds it terminal, and a terminal tracker has its one completion
behind it or under way; a completion by an observer says what the baselines of the arm call say; an
arm call that fails has changed nothing; an observer finishes only trackers that live. -/
theorem checkpoint_tracking {system : TrackerSystem threads} (reached : Reachable system) :
    (∀ id, (system.completions.countP fun called => called.id = id) ≤ 1) ∧
      (∀ id, (system.tracker id).state = .terminal →
        (∀ thread, (system.phase thread).completes id = false) →
          (system.completions.countP fun called => called.id = id) = 1) ∧
      (∀ thread id status observation,
        system.phase thread = .swapping id status observation .terminal →
          (system.tracker id).state = .terminal) ∧
      (∀ thread observation, system.phase thread = .scanning observation [] →
        ∀ id ∈ observation.due, (system.tracker id).state = .terminal) ∧
      (∀ called ∈ system.completions, ∀ seen, called.observation = some seen →
        ∃ started failed, (system.tracker called.id).given = some (started, failed) ∧
          advanced seen.done started = true ∧
            called.status = if seen.failed ≠ failed then eio else 0) ∧
      (∀ thread id started failed changed,
        system.phase thread = .arming id started failed changed →
          (system.tracker id).state ≠ .new → changed = false) ∧
      (∀ thread id, (system.phase thread).uses id = true → (system.tracker id).live = true) := by
  have sound := reached.sound
  refine ⟨fun id => ?_, fun id ended quiet => ?_, ?_, ?_, sound.logged, ?_, sound.uses⟩
  · have counted := sound.counted id
    split at counted <;> omega
  · have counted := sound.counted id
    have none : total (fun phase => (TrackerPhase.completes id phase).toNat) system.phase = 0 :=
      total_eq_zero fun thread => by rw [quiet thread]; rfl
    rw [if_pos ended, none] at counted
    exact counted
  · intro thread id status observation phase
    have fits := sound.fits thread
    rw [phase] at fits
    exact fits.1 rfl
  · intro thread observation phase id member
    have fits := sound.fits thread
    rw [phase] at fits
    exact (fits.2 id member).resolve_right (by simp)
  · intro thread id started failed changed phase ended
    have fits := sound.fits thread
    rw [phase] at fits
    exact Bool.eq_false_iff.mpr fun altered => ended (fits.2.2 altered)

instance (system : TrackerSystem threads) (thread : Fin threads) (phase : TrackerPhase) :
    Decidable (system.Careful thread phase) :=
  match phase with
  | .storingStarted _ _ _ => inferInstanceAs (Decidable (_ ∨ _))
  | .storingFailed _ _ _ _ => inferInstanceAs (Decidable (_ ∨ _))
  | .arming _ _ _ _ => inferInstanceAs (Decidable (_ → _))
  | .swapping _ _ _ _ => inferInstanceAs (Decidable (_ → _))
  | .destroying _ => inferInstanceAs (Decidable (_ ≠ _))
  | .freeing _ => inferInstanceAs (Decidable (∀ _, _))
  | .idle | .finishing .. | .completing .. | .locking _ | .scanning .. | .comparing .. |
    .judging .. | .picked .. => inferInstanceAs (Decidable True)

instance (system : TrackerSystem threads) (action : TrackerAction threads) :
    Decidable (system.Disciplined action) :=
  match action with
  | .advance _ _ => inferInstanceAs (Decidable (system.Careful _ _))
  | .create _ | .arm .. | .finish .. | .observe .. | .destroy .. => inferInstanceAs (Decidable True)

def carefulStep (system : TrackerSystem threads) (action : TrackerAction threads) :
    Except Empty (Option (TrackerSystem threads)) :=
  .ok (if system.Disciplined action then system.step action else none)

theorem Reachable.carefulStep {system after : TrackerSystem threads}
    {action : TrackerAction threads} (reached : Reachable system)
    (taken : system.carefulStep action = .ok (some after)) : Reachable after := by
  unfold TrackerSystem.carefulStep at taken
  split_ifs at taken with disciplined
  · exact reached.step disciplined (Except.ok.inj taken)
  · cases Except.ok.inj taken

def armSteps (thread : Fin threads) (id : ℕ) (started failed : BitVec 32) :
    List (TrackerAction threads) :=
  .arm thread id started failed :: List.replicate 3 (.advance thread false)

/-- A tracker that is armed, observed and completed with an error. -/
theorem checkpoint_tracking_failed : ∃ system : TrackerSystem 2, Reachable system ∧
    system.completions.map TrackerCompletion.status = [eio] ∧
      (∀ called ∈ system.completions, ∀ seen, called.observation = some seen →
        ∃ started failed, (system.tracker called.id).given = some (started, failed) ∧
          advanced seen.done started = true ∧
            called.status = if seen.failed ≠ failed then eio else 0) := by
  have facts : (runs carefulStep (init : TrackerSystem 2)
      ([.create 0] ++ armSteps 0 0 7 2 ++ [.observe 1 8 3] ++
        List.replicate 8 (.advance 1 false))).map
      (fun system => system.completions.map TrackerCompletion.status) = some [eio] := by decide
  obtain ⟨system, ran, status⟩ := Option.map_eq_some_iff.mp facts
  have reached : Reachable system := runs_preserves Reachable.carefulStep .init ran
  exact ⟨system, reached, status, (checkpoint_tracking reached).2.2.2.2.1⟩

/-- Any step, disciplined or not. -/
def freeStep (system : TrackerSystem threads) (action : TrackerAction threads) :
    Except Empty (Option (TrackerSystem threads)) :=
  .ok (system.step action)

/-- An arm call that returns `EALREADY` overwrites the baselines, so that an observer reports an
error although the failed counter is the one that the tracker was armed with; and an observer
finishes a tracker that was destroyed behind its back. -/
theorem rearmed_and_destroyed :
    (runs freeStep (init : TrackerSystem 2)
        ([TrackerAction.create 0] ++ armSteps 0 0 7 2 ++ armSteps 0 0 9 5 ++
          [TrackerAction.observe 1 10 2] ++ List.replicate 8 (TrackerAction.advance 1 false))).map
      (fun system => (system.result 0, (system.tracker 0).given,
        (system.tracker 0).baselineStarted, (system.tracker 0).baselineFailed,
        system.completions.map fun called => (called.status, called.observation.map (·.failed)))) =
      some (some .EALREADY, some (7, 2), 9, 5, [(eio, some 2)]) ∧
    (runs freeStep (init : TrackerSystem 2)
        ([TrackerAction.create 0] ++ armSteps 0 0 7 2 ++ [TrackerAction.observe 1 8 2] ++
          List.replicate 5 (TrackerAction.advance 1 false) ++ [TrackerAction.finish 0 0 125] ++
          List.replicate 3 (TrackerAction.advance 0 false) ++ [TrackerAction.destroy 0 0] ++
          List.replicate 2 (TrackerAction.advance 0 false))).map
      (fun system => (system.phase 1, (system.tracker 0).live)) =
      some (.finishing 0 0 (some { done := 8, failed := 2, due := [0] }), false) := by
  constructor
  · rfl
  · rfl

end TrackerSystem

end Postgamma.Runtime
