import Mathlib

/-!
# The descriptor hubs of an event loop

`_FDHub`: every wait for a descriptor goes through one reader of the loop.  A call of `wait` runs
without a break up to its future, and its cleanup runs when its task is resumed, which may be after
any other calls.
-/

namespace Postgamma.Python

/-- The state of the future of a wait. -/
inductive FutureState
  | pending
  /-- By the timeout of the wait or the cancellation of its task. -/
  | cancelled
  | result
  deriving DecidableEq

/-- A call of `wait`. -/
structure HubWait where
  hub : ℕ
  future : FutureState
  /-- It has returned or raised. -/
  finished : Bool
  deriving DecidableEq

/-- `_FDHub`. -/
structure FDHub where
  descriptor : ℕ
  waiters : Finset ℕ
  registered : Bool

/-- A call of `add_reader` or `remove_reader` for a hub, with the hub whose reader the loop had. -/
inductive ReaderCall
  | add (hub : ℕ) (previous : Option ℕ)
  | remove (hub : ℕ) (previous : Option ℕ)
  deriving DecidableEq

/-- No reader of another hub is replaced or removed. -/
def ReaderCall.Own : ReaderCall → Prop
  | add _ previous => previous = none
  | remove hub previous => previous = some hub

/-- What `add_reader` does. -/
inductive AddReader
  | added
  /-- It raises `AttributeError` or `NotImplementedError`. -/
  | unsupported
  /-- It raises another exception. -/
  | failed
  deriving DecidableEq

/-- An event loop with its hubs; hubs and waits are named by numbers. -/
structure HubLoop where
  /-- The table of the loop in `_LOOP_HUBS`. -/
  table : ℕ → Option ℕ
  readers : ℕ → Option ℕ
  hubs : ℕ → FDHub
  made : ℕ
  waits : ℕ → Option HubWait
  begun : ℕ
  /-- The calls of `add_reader` and `remove_reader`. -/
  calls : List ReaderCall

namespace HubLoop

/-- A loop without hubs. -/
def init : HubLoop := ⟨fun _ => none, fun _ => none, fun _ => ⟨0, ∅, false⟩, 0, fun _ => none, 0, []⟩

def setHub (loop : HubLoop) (hub : ℕ) (content : FDHub) : HubLoop :=
  { loop with hubs := Function.update loop.hubs hub content }

def setWait (loop : HubLoop) (wait : ℕ) (content : HubWait) : HubLoop :=
  { loop with waits := Function.update loop.waits wait (some content) }

def hub (loop : HubLoop) (descriptor : ℕ) : HubLoop × ℕ :=
  match loop.table descriptor with
  | some hub => (loop, hub)
  | none =>
      ({ loop.setHub loop.made ⟨descriptor, ∅, false⟩ with
          table := Function.update loop.table descriptor (some loop.made)
          made := loop.made + 1 }, loop.made)

def discardHub (loop : HubLoop) (hub : ℕ) : HubLoop :=
  let content := loop.hubs hub
  if loop.table content.descriptor ≠ some hub ∨ content.waiters.Nonempty ∨ content.registered then
    loop
  else { loop with table := Function.update loop.table content.descriptor none }

/-- `add_reader` for a hub that notes its reader. -/
def register (loop : HubLoop) (hub : ℕ) : HubLoop :=
  let content := loop.hubs hub
  { loop.setHub hub { content with registered := true } with
    readers := Function.update loop.readers content.descriptor (some hub)
    calls := loop.calls ++ [.add hub (loop.readers content.descriptor)] }

/-- `remove_reader` for a hub that has a reader. -/
def unregister (loop : HubLoop) (hub : ℕ) : HubLoop :=
  let content := loop.hubs hub
  if content.registered then
    { loop.setHub hub { content with registered := false } with
      readers := Function.update loop.readers content.descriptor none
      calls := loop.calls ++ [.remove hub (loop.readers content.descriptor)] }
  else loop

/-- The futures of some waits get their result. -/
def complete (loop : HubLoop) (waiters : Finset ℕ) : HubLoop :=
  { loop with
    waits := fun wait =>
      if wait ∈ waiters then
        (loop.waits wait).map fun content =>
          if content.future = .pending then { content with future := .result } else content
      else loop.waits wait }

def wake (loop : HubLoop) (hub : ℕ) : HubLoop :=
  let content := loop.hubs hub
  ((loop.setHub hub { content with waiters := ∅ }).unregister hub).complete content.waiters

def ready (loop : HubLoop) (hub : ℕ) : HubLoop := loop.wake hub

def interruptHub (loop : HubLoop) (descriptor : ℕ) : HubLoop :=
  match loop.table descriptor with
  | none => loop
  | some hub => (loop.wake hub).discardHub hub

/-- The future of a wait is taken from the waiters of its hub. -/
def discardWaiter (loop : HubLoop) (hub wait : ℕ) : HubLoop :=
  let content := loop.hubs hub
  loop.setHub hub { content with waiters := content.waiters.erase wait }

/-- `wait` of a hub up to its future. -/
def enter (loop : HubLoop) (hub : ℕ) (adding : AddReader) : HubLoop :=
  let content := loop.hubs hub
  let wait := loop.begun
  let joined :=
    { loop.setHub hub { content with waiters := insert wait content.waiters } with
      begun := wait + 1 }
  if content.registered then joined.setWait wait ⟨hub, .pending, false⟩
  else
    match adding with
    | .added => (joined.setWait wait ⟨hub, .pending, false⟩).register hub
    | .unsupported =>
        ((joined.setWait wait ⟨hub, .pending, true⟩).discardWaiter hub wait).discardHub hub
    | .failed => joined.setWait wait ⟨hub, .pending, true⟩

/-- A call of `wait` on the hub of a descriptor, with an argument that does not raise. -/
def wait (loop : HubLoop) (descriptor : ℕ) (adding : AddReader) : HubLoop :=
  (loop.hub descriptor).1.enter (loop.hub descriptor).2 adding

/-- The cleanup of `wait`. -/
def resume (loop : HubLoop) (wait : ℕ) (content : HubWait) : HubLoop :=
  let left := (loop.setWait wait { content with finished := true }).discardWaiter content.hub wait
  let cleared :=
    if (left.hubs content.hub).waiters.Nonempty then left else left.unregister content.hub
  cleared.discardHub content.hub

end HubLoop

/-- What happens on the loop. -/
inductive HubEvent
  | wait (descriptor : ℕ) (adding : AddReader)
  /-- The timeout of a wait or the cancellation of its task. -/
  | cancel (wait : ℕ)
  /-- The task of a wait goes on, or is closed. -/
  | resume (wait : ℕ)
  | ready (hub : ℕ)
  | interrupt (descriptor : ℕ)

namespace HubLoop

/-- One event, which does nothing where it cannot happen. -/
def step (loop : HubLoop) : HubEvent → HubLoop
  | .wait descriptor adding => loop.wait descriptor adding
  | .cancel wait =>
      match loop.waits wait with
      | some ⟨hub, .pending, false⟩ => loop.setWait wait ⟨hub, .cancelled, false⟩
      | _ => loop
  | .resume wait =>
      match loop.waits wait with
      | some content => if content.finished then loop else loop.resume wait content
      | none => loop
  | .ready hub => loop.ready hub
  | .interrupt descriptor => loop.interruptHub descriptor

/-- The loop behind a list of events. -/
def run (events : List HubEvent) : HubLoop := events.foldl step init

/-- A call of `wait` on a hub that has not come to its end. -/
def Unfinished (loop : HubLoop) (hub wait : ℕ) : Prop :=
  ∃ content, loop.waits wait = some content ∧ content.hub = hub ∧ content.finished = false

/-- Hubs, readers, the table and the waits agree. -/
structure Sound (loop : HubLoop) : Prop where
  registered : ∀ hub, (loop.hubs hub).registered = true ↔ (loop.hubs hub).waiters.Nonempty
  readers : ∀ descriptor hub, loop.readers descriptor = some hub ↔
    (loop.hubs hub).registered = true ∧ (loop.hubs hub).descriptor = descriptor
  tabled : ∀ hub, (loop.hubs hub).waiters.Nonempty →
    loop.table (loop.hubs hub).descriptor = some hub
  placed : ∀ descriptor hub, loop.table descriptor = some hub →
    (loop.hubs hub).descriptor = descriptor ∧ hub < loop.made
  waiting : ∀ hub, ∀ wait ∈ (loop.hubs hub).waiters, loop.Unfinished hub wait
  pending : ∀ wait content, loop.waits wait = some content → content.finished = false →
    content.future = .pending → wait ∈ (loop.hubs content.hub).waiters
  begun : ∀ wait, loop.begun ≤ wait → loop.waits wait = none
  calls : ∀ call ∈ loop.calls, call.Own

/-- A hub in the table has a wait that will clean up. -/
def Kept (loop : HubLoop) : Prop :=
  ∀ descriptor hub, loop.table descriptor = some hub → ∃ wait, loop.Unfinished hub wait

/-- One hub of the table and its waits change; it stays there while it has waiters. -/
structure Changes (loop after : HubLoop) (hub : ℕ) (content : FDHub) : Prop where
  place : loop.table content.descriptor = some hub
  hubs : after.hubs = Function.update loop.hubs hub content
  table : ∀ descriptor, descriptor ≠ content.descriptor →
    after.table descriptor = loop.table descriptor
  slot : after.table content.descriptor = some hub ∨
    after.table content.descriptor = none ∧ content.waiters = ∅
  readers : after.readers =
    Function.update loop.readers content.descriptor (if content.registered then some hub else none)
  made : after.made = loop.made
  registered : content.registered = true ↔ content.waiters.Nonempty
  others : ∀ wait old, loop.waits wait = some old → old.hub ≠ hub → after.waits wait = some old
  same : ∀ wait new, after.waits wait = some new → new.hub ≠ hub → loop.waits wait = some new
  waiting : ∀ wait ∈ content.waiters, after.Unfinished hub wait
  pending : ∀ wait new, after.waits wait = some new → new.hub = hub → new.finished = false →
    new.future = .pending → wait ∈ content.waiters
  begun : ∀ wait, after.begun ≤ wait → after.waits wait = none
  calls : ∀ call ∈ after.calls, call.Own

section Change

variable {loop after : HubLoop} {hub : ℕ} {content : FDHub}

theorem Changes.hub_self (changes : loop.Changes after hub content) : after.hubs hub = content := by
  rw [changes.hubs, Function.update_self]

theorem Changes.hub_other (changes : loop.Changes after hub content) {other : ℕ}
    (different : other ≠ hub) : after.hubs other = loop.hubs other := by
  rw [changes.hubs, Function.update_of_ne different]

theorem Changes.unfinished (changes : loop.Changes after hub content) {other wait : ℕ}
    (different : other ≠ hub) (unfinished : loop.Unfinished other wait) :
    after.Unfinished other wait := by
  obtain ⟨old, found, rfl, active⟩ := unfinished
  exact ⟨old, changes.others wait old found different, rfl, active⟩

/-- Another hub of the same descriptor has no waiters. -/
theorem Sound.table_unique (sound : loop.Sound) {first second : ℕ}
    (place : loop.table (loop.hubs second).descriptor = some first)
    (waits : (loop.hubs second).waiters.Nonempty) : second = first :=
  Option.some.inj ((sound.tabled second waits).symm.trans place)

theorem Sound.changes (sound : loop.Sound) (changes : loop.Changes after hub content) :
    after.Sound := by
  have keeps : (loop.hubs hub).descriptor = content.descriptor := (sound.placed _ _ changes.place).1
  refine
    { registered := fun other => ?_
      readers := fun descriptor other => ?_
      tabled := fun other nonempty => ?_
      placed := fun descriptor other placed => ?_
      waiting := fun other wait member => ?_
      pending := fun wait new found unfinished pending => ?_
      begun := changes.begun
      calls := changes.calls }
  · by_cases own : other = hub
    · rw [own, changes.hub_self]
      exact changes.registered
    · rw [changes.hub_other own]
      exact sound.registered other
  · rw [changes.readers]
    by_cases own : other = hub
    · subst own
      rw [changes.hub_self]
      by_cases here : descriptor = content.descriptor
      · subst here
        rw [Function.update_self]
        cases content.registered <;> simp
      · rw [Function.update_of_ne here, sound.readers, keeps]
        exact iff_of_false (fun both => here both.2.symm) fun both => here both.2.symm
    · rw [changes.hub_other own]
      by_cases here : descriptor = content.descriptor
      · subst here
        rw [Function.update_self]
        refine iff_of_false (fun read => ?_) fun both => own ?_
        · split_ifs at read
          exact own (Option.some.inj read).symm
        · refine sound.table_unique ?_ ((sound.registered other).mp both.1)
          rw [both.2]
          exact changes.place
      · rw [Function.update_of_ne here, sound.readers]
  · by_cases own : other = hub
    · subst own
      rw [changes.hub_self] at nonempty ⊢
      exact changes.slot.resolve_right fun gone => nonempty.ne_empty gone.2
    · rw [changes.hub_other own] at nonempty ⊢
      have place := sound.tabled other nonempty
      have away : (loop.hubs other).descriptor ≠ content.descriptor := by
        intro here
        rw [here] at place
        exact own (Option.some.inj (place.symm.trans changes.place))
      exact (changes.table _ away).trans place
  · by_cases here : descriptor = content.descriptor
    · subst here
      rcases changes.slot with slot | ⟨slot, -⟩
      · cases slot.symm.trans placed
        rw [changes.hub_self, changes.made]
        exact ⟨rfl, (sound.placed _ _ changes.place).2⟩
      · cases slot.symm.trans placed
    · rw [changes.table _ here] at placed
      have before := sound.placed _ _ placed
      rw [changes.made, changes.hub_other]
      · exact before
      · rintro rfl
        exact here (before.1.symm.trans keeps)
  · by_cases own : other = hub
    · subst own
      rw [changes.hub_self] at member
      exact changes.waiting wait member
    · rw [changes.hub_other own] at member
      exact changes.unfinished own (sound.waiting other wait member)
  · by_cases own : new.hub = hub
    · rw [own, changes.hub_self]
      exact changes.pending wait new found own unfinished pending
    · rw [changes.hub_other own]
      exact sound.pending wait new (changes.same wait new found own) unfinished pending

theorem Changes.kept (changes : loop.Changes after hub content)
    (others : ∀ descriptor other, descriptor ≠ content.descriptor →
      loop.table descriptor = some other → other ≠ hub ∧ ∃ wait, loop.Unfinished other wait)
    (own : after.table content.descriptor = some hub → ∃ wait, after.Unfinished hub wait) :
    after.Kept := by
  intro descriptor other placed
  by_cases here : descriptor = content.descriptor
  · subst here
    rcases changes.slot with slot | ⟨slot, -⟩
    · cases slot.symm.trans placed
      exact own slot
    · cases slot.symm.trans placed
  · rw [changes.table _ here] at placed
    obtain ⟨different, wait, unfinished⟩ := others descriptor other here placed
    exact ⟨wait, changes.unfinished different unfinished⟩

end Change

section Operations

variable (loop : HubLoop) (hub : ℕ)

theorem discardHub_hubs : (loop.discardHub hub).hubs = loop.hubs := by
  rw [discardHub]
  split_ifs <;> rfl

theorem discardHub_readers : (loop.discardHub hub).readers = loop.readers := by
  rw [discardHub]
  split_ifs <;> rfl

theorem discardHub_waits : (loop.discardHub hub).waits = loop.waits := by
  rw [discardHub]
  split_ifs <;> rfl

theorem discardHub_made : (loop.discardHub hub).made = loop.made := by
  rw [discardHub]
  split_ifs <;> rfl

theorem discardHub_begun : (loop.discardHub hub).begun = loop.begun := by
  rw [discardHub]
  split_ifs <;> rfl

theorem discardHub_calls : (loop.discardHub hub).calls = loop.calls := by
  rw [discardHub]
  split_ifs <;> rfl

/-- Only the place of the hub may become free. -/
theorem discardHub_table (descriptor : ℕ) :
    (loop.discardHub hub).table descriptor =
      if loop.table (loop.hubs hub).descriptor = some hub ∧ (loop.hubs hub).waiters = ∅ ∧
          (loop.hubs hub).registered = false ∧ descriptor = (loop.hubs hub).descriptor then none
      else loop.table descriptor := by
  rw [discardHub]
  split_ifs with stays gone gone
  · rcases stays with place | waits | registered
    · exact absurd gone.1 place
    · exact absurd gone.2.1 waits.ne_empty
    · rw [gone.2.2.1] at registered
      cases registered
  · rfl
  · rw [gone.2.2.2]
    exact Function.update_self _ _ _
  · refine Function.update_of_ne (fun here => gone ?_) _ _
    rw [not_or, not_or, not_not, Finset.not_nonempty_iff_eq_empty, Bool.not_eq_true] at stays
    exact ⟨stays.1, stays.2.1, stays.2.2, here⟩

theorem unregister_table : (loop.unregister hub).table = loop.table := by
  rw [unregister]
  split_ifs <;> rfl

theorem unregister_waits : (loop.unregister hub).waits = loop.waits := by
  rw [unregister]
  split_ifs <;> rfl

theorem unregister_made : (loop.unregister hub).made = loop.made := by
  rw [unregister]
  split_ifs <;> rfl

theorem unregister_begun : (loop.unregister hub).begun = loop.begun := by
  rw [unregister]
  split_ifs <;> rfl

theorem unregister_hubs : (loop.unregister hub).hubs =
    Function.update loop.hubs hub ⟨(loop.hubs hub).descriptor, (loop.hubs hub).waiters, false⟩ := by
  rw [unregister]
  split_ifs with registered
  · rfl
  · rw [Bool.not_eq_true] at registered
    rw [← registered]
    exact (Function.update_eq_self hub loop.hubs).symm

/-- A hub whose reader the loop has exactly when it is registered. -/
def OwnReader : Prop :=
  loop.readers (loop.hubs hub).descriptor =
    if (loop.hubs hub).registered then some hub else none

variable {loop hub}

theorem unregister_readers (own : loop.OwnReader hub) :
    (loop.unregister hub).readers =
      Function.update loop.readers (loop.hubs hub).descriptor none := by
  rw [unregister]
  split_ifs with registered
  · rfl
  · rw [OwnReader, if_neg registered] at own
    rw [← own]
    exact (Function.update_eq_self _ loop.readers).symm

theorem unregister_calls (own : loop.OwnReader hub) (calls : ∀ call ∈ loop.calls, call.Own) :
    ∀ call ∈ (loop.unregister hub).calls, call.Own := by
  rw [unregister]
  split_ifs with registered
  · intro call member
    rcases List.mem_append.mp member with member | member
    · exact calls call member
    · rw [List.mem_singleton.mp member]
      exact own.trans (if_pos registered)
  · exact calls

/-- The reader of a descriptor belongs to the hub in its place. -/
theorem Sound.ownReader (sound : loop.Sound)
    (place : loop.table (loop.hubs hub).descriptor = some hub) : loop.OwnReader hub := by
  rw [OwnReader]
  split_ifs with registered
  · exact (sound.readers _ _).mpr ⟨registered, rfl⟩
  · cases read : loop.readers (loop.hubs hub).descriptor with
    | none => rfl
    | some other =>
        obtain ⟨reads, same⟩ := (sound.readers _ _).mp read
        have there := sound.table_unique (same ▸ place) ((sound.registered other).mp reads)
        exact absurd (there ▸ reads) registered

/-- A hub that is not in its place has neither waiters nor a reader. -/
theorem Sound.unplaced (sound : loop.Sound)
    (gone : loop.table (loop.hubs hub).descriptor ≠ some hub) :
    (loop.hubs hub).waiters = ∅ ∧ (loop.hubs hub).registered = false := by
  have empty : ¬(loop.hubs hub).waiters.Nonempty := fun waits => gone (sound.tabled hub waits)
  exact ⟨Finset.not_nonempty_iff_eq_empty.mp empty,
    Bool.eq_false_iff.mpr fun registered => empty ((sound.registered hub).mp registered)⟩

/-- Only waits change, and they stay unfinished while they are waiters. -/
theorem Sound.waits {after : HubLoop} (sound : loop.Sound) (hubs : after.hubs = loop.hubs)
    (table : after.table = loop.table) (readers : after.readers = loop.readers)
    (made : after.made = loop.made) (calls : after.calls = loop.calls)
    (waiting : ∀ hub, ∀ wait ∈ (loop.hubs hub).waiters, after.Unfinished hub wait)
    (pending : ∀ wait content, after.waits wait = some content → content.finished = false →
      content.future = .pending → loop.waits wait = some content)
    (begun : ∀ wait, after.begun ≤ wait → after.waits wait = none) : after.Sound where
  registered := by
    rw [hubs]
    exact sound.registered
  readers := by
    rw [hubs, readers]
    exact sound.readers
  tabled := by
    rw [hubs, table]
    exact sound.tabled
  placed := by
    rw [hubs, table, made]
    exact sound.placed
  waiting := by
    rw [hubs]
    exact waiting
  pending wait content found unfinished active := by
    rw [hubs]
    exact sound.pending wait content (pending wait content found unfinished active) unfinished active
  begun := begun
  calls := by
    rw [calls]
    exact sound.calls

end Operations

/-! ## What the events change -/

section Events

variable {loop after : HubLoop} {hub : ℕ} {content : FDHub}

theorem Sound.elsewhere (sound : loop.Sound)
    (place : loop.table content.descriptor = some hub)
    (kept : ∀ descriptor other, descriptor ≠ content.descriptor →
      loop.table descriptor = some other → ∃ wait, loop.Unfinished other wait) :
    ∀ descriptor other, descriptor ≠ content.descriptor → loop.table descriptor = some other →
      other ≠ hub ∧ ∃ wait, loop.Unfinished other wait := by
  intro descriptor other away placed
  refine ⟨?_, kept descriptor other away placed⟩
  rintro rfl
  exact away ((sound.placed _ _ placed).1.symm.trans (sound.placed _ _ place).1)

theorem Changes.discard (changes : loop.Changes after hub content) :
    loop.Changes (after.discardHub hub) hub content := by
  have self := changes.hub_self
  refine { changes with
    hubs := (discardHub_hubs after hub).trans changes.hubs
    table := fun descriptor away => ?_
    slot := ?_
    readers := (discardHub_readers after hub).trans changes.readers
    made := (discardHub_made after hub).trans changes.made
    others := by
      rw [discardHub_waits]
      exact changes.others
    same := by
      rw [discardHub_waits]
      exact changes.same
    waiting := by
      intro wait member
      rw [Unfinished, discardHub_waits]
      exact changes.waiting wait member
    pending := by
      rw [discardHub_waits]
      exact changes.pending
    begun := by
      rw [discardHub_waits, discardHub_begun]
      exact changes.begun
    calls := by
      rw [discardHub_calls]
      exact changes.calls }
  · rw [discardHub_table, self, if_neg fun all => away all.2.2.2]
    exact changes.table descriptor away
  · rw [discardHub_table, self]
    split_ifs with all
    · exact .inr ⟨rfl, all.2.1⟩
    · exact changes.slot

/-- A hub without waiters does not stay behind its cleanup. -/
theorem Changes.discard_slot (changes : loop.Changes after hub content)
    (stays : (after.discardHub hub).table content.descriptor = some hub) :
    ∃ wait, (after.discardHub hub).Unfinished hub wait := by
  by_cases waits : content.waiters.Nonempty
  · obtain ⟨wait, member⟩ := waits
    exact ⟨wait, changes.discard.waiting wait member⟩
  · rw [discardHub_table, changes.hub_self] at stays
    split_ifs at stays with all
    exact absurd ⟨stays, Finset.not_nonempty_iff_eq_empty.mp waits,
      Bool.eq_false_iff.mpr fun registered => waits (changes.registered.mp registered), rfl⟩ all

variable {wait : ℕ}

theorem complete_unfinished (loop : HubLoop) (waiters : Finset ℕ)
    (unfinished : loop.Unfinished hub wait) : (loop.complete waiters).Unfinished hub wait := by
  obtain ⟨old, found, same, active⟩ := unfinished
  by_cases member : wait ∈ waiters
  · refine ⟨if old.future = .pending then { old with future := .result } else old, ?_, ?_, ?_⟩
    · simp only [complete, if_pos member, found, Option.map_some]
    · split_ifs <;> exact same
    · split_ifs <;> exact active
  · exact ⟨old, (if_neg member).trans found, same, active⟩

theorem complete_pending (loop : HubLoop) (waiters : Finset ℕ) {new : HubWait}
    (found : (loop.complete waiters).waits wait = some new) (pending : new.future = .pending) :
    loop.waits wait = some new ∧ wait ∉ waiters := by
  by_cases member : wait ∈ waiters
  · simp only [complete, if_pos member, Option.map_eq_some_iff] at found
    obtain ⟨old, -, rfl⟩ := found
    split_ifs at pending with before
    exact absurd pending before
  · exact ⟨(if_neg member).symm.trans found, member⟩

theorem complete_hub (loop : HubLoop) (waiters : Finset ℕ) {new : HubWait}
    (found : (loop.complete waiters).waits wait = some new) :
    ∃ old, loop.waits wait = some old ∧ old.hub = new.hub := by
  by_cases member : wait ∈ waiters
  · simp only [complete, if_pos member, Option.map_eq_some_iff] at found
    obtain ⟨old, before, rfl⟩ := found
    exact ⟨old, before, by split_ifs <;> rfl⟩
  · exact ⟨new, (if_neg member).symm.trans found, rfl⟩

/-- A wait outside the waiters is as it was. -/
theorem complete_other (loop : HubLoop) {waiters : Finset ℕ} (other : wait ∉ waiters) :
    (loop.complete waiters).waits wait = loop.waits wait :=
  if_neg other

theorem wake_hubs (loop : HubLoop) (hub : ℕ) : (loop.wake hub).hubs =
    Function.update loop.hubs hub ⟨(loop.hubs hub).descriptor, ∅, false⟩ := by
  simp only [wake, complete, unregister_hubs, setHub, Function.update_self, Function.update_idem]

theorem wake_table (loop : HubLoop) (hub : ℕ) : (loop.wake hub).table = loop.table := by
  simp only [wake, complete, unregister_table, setHub]

theorem wake_waits (loop : HubLoop) (hub : ℕ) :
    (loop.wake hub).waits = (loop.complete (loop.hubs hub).waiters).waits := by
  simp only [wake, complete, unregister_waits, setHub]

theorem OwnReader.setHub (own : loop.OwnReader hub) (waiters : Finset ℕ) :
    (loop.setHub hub ⟨(loop.hubs hub).descriptor, waiters, (loop.hubs hub).registered⟩).OwnReader
      hub := by
  simpa only [OwnReader, HubLoop.setHub, Function.update_self] using own

theorem wake_readers (own : loop.OwnReader hub) : (loop.wake hub).readers =
    Function.update loop.readers (loop.hubs hub).descriptor none := by
  refine (show (loop.wake hub).readers = _ from rfl).trans
    ((unregister_readers (own.setHub ∅)).trans ?_)
  simp only [setHub, Function.update_self]

theorem wake_calls (own : loop.OwnReader hub) (calls : ∀ call ∈ loop.calls, call.Own) :
    ∀ call ∈ (loop.wake hub).calls, call.Own :=
  unregister_calls (own.setHub ∅) calls

theorem Sound.wake_changes (sound : loop.Sound)
    (place : loop.table (loop.hubs hub).descriptor = some hub) :
    loop.Changes (loop.wake hub) hub ⟨(loop.hubs hub).descriptor, ∅, false⟩ where
  place := place
  hubs := wake_hubs loop hub
  table descriptor _ := by rw [wake_table]
  slot := .inl (by rw [wake_table]; exact place)
  readers := wake_readers (sound.ownReader place)
  made := by simp only [wake, complete, unregister_made, setHub]
  registered := by simp
  others wait old found different := by
    rw [wake_waits, complete_other _ fun member => ?_, found]
    obtain ⟨other, there, same, -⟩ := sound.waiting hub wait member
    exact different (Option.some.inj (found.symm.trans there) ▸ same)
  same wait new found different := by
    rw [wake_waits] at found
    by_cases member : wait ∈ (loop.hubs hub).waiters
    · obtain ⟨old, before, same⟩ := complete_hub _ _ found
      obtain ⟨other, there, own, -⟩ := sound.waiting hub wait member
      cases before.symm.trans there
      exact absurd (same.symm.trans own) different
    · rwa [complete_other _ member] at found
  waiting wait member := absurd member (Finset.notMem_empty wait)
  pending wait new found own unfinished pending := by
    rw [wake_waits] at found
    obtain ⟨before, outside⟩ := complete_pending _ _ found pending
    exact absurd (own ▸ sound.pending wait new before unfinished pending) outside
  begun wait late := by
    have before : loop.waits wait = none := sound.begun wait <| by
      simpa only [wake, complete, unregister_begun, setHub] using late
    rw [wake_waits]
    simp [complete, before]
  calls := wake_calls (sound.ownReader place) sound.calls

theorem FDHub_eta {hub : FDHub} (empty : hub.waiters = ∅) (bare : hub.registered = false) :
    (⟨hub.descriptor, ∅, false⟩ : FDHub) = hub := by
  rw [← empty, ← bare]

/-- A hub without waiters and without a reader is woken in vain. -/
theorem wake_idle (empty : (loop.hubs hub).waiters = ∅)
    (bare : (loop.hubs hub).registered = false) : loop.wake hub = loop := by
  have same : loop.setHub hub ⟨(loop.hubs hub).descriptor, ∅, (loop.hubs hub).registered⟩ = loop := by
    rw [setHub, bare, FDHub_eta empty bare, Function.update_eq_self]
  have calm : loop.unregister hub = loop := by
    simp only [unregister, bare, Bool.false_eq_true, if_false]
  simp only [wake, same, calm, complete, empty, Finset.notMem_empty, if_false]

theorem ready_sound (sound : loop.Sound) (kept : loop.Kept) (hub : ℕ) :
    (loop.ready hub).Sound ∧ (loop.ready hub).Kept := by
  rw [ready]
  by_cases place : loop.table (loop.hubs hub).descriptor = some hub
  · have changes := sound.wake_changes place
    refine ⟨sound.changes changes, changes.kept
      (sound.elsewhere place fun descriptor other _ => kept descriptor other) fun _ => ?_⟩
    obtain ⟨wait, unfinished⟩ := kept _ _ place
    refine ⟨wait, ?_⟩
    rw [Unfinished, wake_waits]
    exact complete_unfinished loop _ unfinished
  · obtain ⟨empty, bare⟩ := sound.unplaced place
    rw [wake_idle empty bare]
    exact ⟨sound, kept⟩

theorem interruptHub_sound (sound : loop.Sound) (kept : loop.Kept) (descriptor : ℕ) :
    (loop.interruptHub descriptor).Sound ∧ (loop.interruptHub descriptor).Kept := by
  rw [interruptHub]
  cases placed : loop.table descriptor with
  | none => exact ⟨sound, kept⟩
  | some hub =>
      obtain ⟨rfl, -⟩ := sound.placed _ _ placed
      have changes := sound.wake_changes placed
      exact ⟨sound.changes changes.discard, changes.discard.kept
        (sound.elsewhere placed fun descriptor other _ => kept descriptor other)
        changes.discard_slot⟩

theorem cancel_sound (sound : loop.Sound) (kept : loop.Kept)
    (found : loop.waits wait = some ⟨hub, .pending, false⟩) :
    (loop.setWait wait ⟨hub, .cancelled, false⟩).Sound ∧
      (loop.setWait wait ⟨hub, .cancelled, false⟩).Kept := by
  have keeps : ∀ other call, loop.Unfinished other call →
      (loop.setWait wait ⟨hub, .cancelled, false⟩).Unfinished other call := by
    rintro other call ⟨old, there, same, active⟩
    by_cases own : call = wait
    · subst own
      cases found.symm.trans there
      exact ⟨_, Function.update_self _ _ _, same, rfl⟩
    · exact ⟨old, (Function.update_of_ne own _ _).trans there, same, active⟩
  refine ⟨sound.waits rfl rfl rfl rfl rfl
    (fun other call member => keeps other call (sound.waiting other call member))
    (fun call new there _ pending => ?_) (fun call late => ?_),
    fun descriptor other placed => (kept descriptor other placed).imp fun call => keeps other call⟩
  · by_cases own : call = wait
    · subst own
      cases (Function.update_self _ _ _).symm.trans there
      cases pending
    · exact (Function.update_of_ne own _ _).symm.trans there
  · have none := sound.begun call late
    refine (Function.update_of_ne ?_ _ _).trans none
    rintro rfl
    cases found.symm.trans none

/-- A call on a hub that another one has replaced leaves nothing to clean up. -/
theorem resume_unplaced (sound : loop.Sound) {content : HubWait}
    (gone : loop.table (loop.hubs content.hub).descriptor ≠ some content.hub) :
    loop.resume wait content = loop.setWait wait { content with finished := true } := by
  obtain ⟨empty, bare⟩ := sound.unplaced gone
  have left : (loop.setWait wait { content with finished := true }).discardWaiter content.hub wait =
      loop.setWait wait { content with finished := true } := by
    have same : (⟨(loop.hubs content.hub).descriptor, (loop.hubs content.hub).waiters.erase wait,
        (loop.hubs content.hub).registered⟩ : FDHub) = loop.hubs content.hub := by
      rw [empty, Finset.erase_empty, ← empty]
    simp only [discardWaiter, setHub, setWait, same, Function.update_eq_self]
  simp only [resume, left]
  have calm : (loop.setWait wait { content with finished := true }).unregister content.hub =
      loop.setWait wait { content with finished := true } := by
    simp only [unregister, setWait, bare, Bool.false_eq_true, if_false]
  rw [calm, ite_self, discardHub, if_pos (.inl gone)]

theorem setWait_self (loop : HubLoop) (wait : ℕ) (new : HubWait) :
    (loop.setWait wait new).waits wait = some new :=
  Function.update_self _ _ _

theorem setWait_other (loop : HubLoop) {wait call : ℕ} (different : call ≠ wait) (new : HubWait) :
    (loop.setWait wait new).waits call = loop.waits call :=
  Function.update_of_ne different _ _

/-- A call that is over is not one that another hub has. -/
theorem setWait_unfinished {wait call other : ℕ} {old new : HubWait}
    (found : loop.waits wait = some old) (different : other ≠ old.hub)
    (unfinished : loop.Unfinished other call) : (loop.setWait wait new).Unfinished other call := by
  obtain ⟨before, there, rfl, active⟩ := unfinished
  have distinct : call ≠ wait := by
    rintro rfl
    cases found.symm.trans there
    exact different rfl
  exact ⟨before, (setWait_other loop distinct new).trans there, rfl, active⟩

/-- The cleanup of a call on the hub in its place. -/
theorem Sound.finish_changes (sound : loop.Sound) {old : HubWait}
    (found : loop.waits wait = some old) (own : old.hub = hub)
    (place : loop.table (loop.hubs hub).descriptor = some hub)
    (content : FDHub) (same : content.descriptor = (loop.hubs hub).descriptor)
    (waiters : content.waiters = (loop.hubs hub).waiters.erase wait)
    (registered : content.registered = true ↔ content.waiters.Nonempty)
    (hubs : after.hubs = Function.update loop.hubs hub content) (table : after.table = loop.table)
    (readers : after.readers = Function.update loop.readers content.descriptor
      (if content.registered then some hub else none)) (made : after.made = loop.made)
    (waits : after.waits = (loop.setWait wait { old with finished := true }).waits)
    (begun : after.begun = loop.begun) (calls : ∀ call ∈ after.calls, call.Own) :
    loop.Changes after hub content where
  place := by
    rw [same]
    exact place
  hubs := hubs
  table _ _ := by rw [table]
  slot := .inl (by rw [table, same]; exact place)
  readers := readers
  made := made
  registered := registered
  others call before there different := by
    have distinct : call ≠ wait := by
      rintro rfl
      cases found.symm.trans there
      exact different own
    rw [waits, setWait_other loop distinct, there]
  same call new there different := by
    have distinct : call ≠ wait := by
      rintro rfl
      rw [waits, setWait_self] at there
      cases there
      exact different own
    rwa [waits, setWait_other loop distinct] at there
  waiting call member := by
    rw [waiters] at member
    obtain ⟨distinct, member⟩ := Finset.mem_erase.mp member
    rw [Unfinished, waits, setWait_other loop distinct]
    exact sound.waiting hub call member
  pending call new there belongs unfinished pending := by
    have distinct : call ≠ wait := by
      rintro rfl
      rw [waits, setWait_self] at there
      cases there
      cases unfinished
    rw [waits, setWait_other loop distinct] at there
    rw [waiters]
    exact Finset.mem_erase.mpr ⟨distinct, belongs ▸ sound.pending call new there unfinished pending⟩
  begun call late := by
    have none := sound.begun call (begun ▸ late)
    have distinct : call ≠ wait := by
      rintro rfl
      cases found.symm.trans none
    rw [waits, setWait_other loop distinct, none]
  calls := calls

theorem resume_sound (sound : loop.Sound) (kept : loop.Kept) {old : HubWait}
    (found : loop.waits wait = some old) :
    (loop.resume wait old).Sound ∧ (loop.resume wait old).Kept := by
  by_cases place : loop.table (loop.hubs old.hub).descriptor = some old.hub
  · have own := sound.ownReader place
    simp only [resume]
    set left := (loop.setWait wait { old with finished := true }).discardWaiter old.hub wait with shape
    have content : left.hubs old.hub = ⟨(loop.hubs old.hub).descriptor,
        (loop.hubs old.hub).waiters.erase wait, (loop.hubs old.hub).registered⟩ := by
      rw [shape]
      exact Function.update_self _ _ _
    have changes : ∃ content, content.descriptor = (loop.hubs old.hub).descriptor ∧
        loop.Changes (if (left.hubs old.hub).waiters.Nonempty then left
          else left.unregister old.hub) old.hub content := by
      by_cases more : ((loop.hubs old.hub).waiters.erase wait).Nonempty
      · have reading := (sound.registered old.hub).mpr (more.mono (Finset.erase_subset _ _))
        rw [content, if_pos more]
        refine ⟨left.hubs old.hub, by rw [content], sound.finish_changes found rfl place _
          (by rw [content]) (by rw [content]) (by rw [content]; exact iff_of_true reading more)
          ?_ rfl ?_ rfl rfl rfl sound.calls⟩
        · rw [content]
          rfl
        · rw [content]
          simp only [reading, if_true]
          rw [OwnReader, if_pos reading] at own
          rw [← own, Function.update_eq_self]
          rfl
      · have reader : left.OwnReader old.hub := by
          rw [OwnReader, content]
          exact own
        rw [content, if_neg more]
        refine ⟨⟨(loop.hubs old.hub).descriptor, (loop.hubs old.hub).waiters.erase wait, false⟩, rfl,
          sound.finish_changes found rfl place _ rfl rfl (iff_of_false (by simp) more) ?_ ?_ ?_ ?_ ?_
          ?_ (unregister_calls reader sound.calls)⟩
        · rw [unregister_hubs, content, shape]
          exact Function.update_idem _ _ _
        · rw [unregister_table]
          rfl
        · rw [unregister_readers reader, content]
          rfl
        · rw [unregister_made]
          rfl
        · rw [unregister_waits]
          rfl
        · rw [unregister_begun]
          rfl
    obtain ⟨content, same, changes⟩ := changes
    refine ⟨sound.changes changes.discard, changes.discard.kept (sound.elsewhere changes.place
      fun descriptor other _ => kept descriptor other) changes.discard_slot⟩
  · rw [resume_unplaced sound place]
    refine ⟨sound.waits rfl rfl rfl rfl rfl (fun other call member => ?_)
      (fun call new there unfinished pending => ?_) (fun call late => ?_),
      fun descriptor other placed => ?_⟩
    · refine setWait_unfinished found ?_ (sound.waiting other call member)
      rintro rfl
      exact place (sound.tabled _ ⟨call, member⟩)
    · have distinct : call ≠ wait := by
        rintro rfl
        cases (setWait_self loop call _).symm.trans there
        cases unfinished
      rwa [setWait_other loop distinct] at there
    · have none := sound.begun call late
      have distinct : call ≠ wait := by
        rintro rfl
        cases found.symm.trans none
      exact (setWait_other loop distinct _).trans none
    · refine (kept descriptor other placed).imp fun call => setWait_unfinished found ?_
      rintro rfl
      exact place ((sound.placed _ _ placed).1 ▸ placed)

/-- The hub of a descriptor is in its place, and the others are as they were. -/
theorem hub_sound (sound : loop.Sound) (kept : loop.Kept) (descriptor : ℕ) :
    (loop.hub descriptor).1.Sound ∧
      (loop.hub descriptor).1.table descriptor = some (loop.hub descriptor).2 ∧
      ((loop.hub descriptor).1.hubs (loop.hub descriptor).2).descriptor = descriptor ∧
      ∀ place other, place ≠ descriptor → (loop.hub descriptor).1.table place = some other →
        ∃ wait, (loop.hub descriptor).1.Unfinished other wait := by
  rw [hub]
  cases placed : loop.table descriptor with
  | some hub =>
      exact ⟨sound, placed, (sound.placed _ _ placed).1, fun place other _ => kept place other⟩
  | none =>
      have fresh : ∀ hub, (loop.hubs hub).waiters.Nonempty → hub ≠ loop.made := fun hub waits =>
        (sound.placed _ _ (sound.tabled hub waits)).2.ne
      have bare : (loop.hubs loop.made).registered = false := Bool.eq_false_iff.mpr fun registered =>
        fresh _ ((sound.registered _).mp registered) rfl
      have self : Function.update loop.hubs loop.made ⟨descriptor, ∅, false⟩ loop.made =
          ⟨descriptor, ∅, false⟩ := Function.update_self _ _ _
      refine ⟨
        { registered := fun hub => ?_
          readers := fun place hub => ?_
          tabled := fun hub waits => ?_
          placed := fun place hub found => ?_
          waiting := fun hub wait member => ?_
          pending := fun wait content found unfinished pending => ?_
          begun := sound.begun
          calls := sound.calls }, Function.update_self _ _ _, ?_, fun place other away found => ?_⟩
      all_goals simp only [setHub] at *
      · by_cases own : hub = loop.made
        · rw [own, self]
          simp
        · rw [Function.update_of_ne own]
          exact sound.registered hub
      · rw [sound.readers]
        by_cases own : hub = loop.made
        · rw [own, self, bare]
          simp
        · rw [Function.update_of_ne own]
      · by_cases own : hub = loop.made
        · rw [own, self] at waits
          exact absurd waits Finset.not_nonempty_empty
        · rw [Function.update_of_ne own] at waits ⊢
          have there := sound.tabled hub waits
          rw [Function.update_of_ne, there]
          rintro same
          cases placed.symm.trans (same ▸ there)
      · by_cases here : place = descriptor
        · subst here
          rw [Function.update_self] at found
          cases found
          rw [self]
          exact ⟨rfl, Nat.lt_succ_self _⟩
        · rw [Function.update_of_ne here] at found
          have before := sound.placed _ _ found
          rw [Function.update_of_ne before.2.ne]
          exact ⟨before.1, before.2.trans (Nat.lt_succ_self _)⟩
      · by_cases own : hub = loop.made
        · rw [own, self] at member
          exact absurd member (Finset.notMem_empty wait)
        · rw [Function.update_of_ne own] at member
          exact sound.waiting hub wait member
      · have member := sound.pending wait content found unfinished pending
        rwa [Function.update_of_ne (fresh _ ⟨wait, member⟩)]
      · rw [self]
      · rw [Function.update_of_ne away] at found
        exact kept place other found

/-- A new call on the hub in its place, which may be over at once. -/
theorem Sound.begin_changes (sound : loop.Sound) (new : HubWait) (own : new.hub = hub)
    (place : loop.table (loop.hubs hub).descriptor = some hub)
    (content : FDHub) (same : content.descriptor = (loop.hubs hub).descriptor)
    (waiters : content.waiters =
      if new.finished then (loop.hubs hub).waiters
      else insert loop.begun (loop.hubs hub).waiters)
    (registered : content.registered = true ↔ content.waiters.Nonempty)
    (hubs : after.hubs = Function.update loop.hubs hub content) (table : after.table = loop.table)
    (readers : after.readers = Function.update loop.readers content.descriptor
      (if content.registered then some hub else none)) (made : after.made = loop.made)
    (waits : after.waits = (loop.setWait loop.begun new).waits)
    (begun : after.begun = loop.begun + 1) (calls : ∀ call ∈ after.calls, call.Own) :
    loop.Changes after hub content := by
  have before : ∀ {call old}, loop.waits call = some old → call ≠ loop.begun := by
    rintro call old there rfl
    cases (sound.begun _ le_rfl).symm.trans there
  exact {
    place := by
      rw [same]
      exact place
    hubs := hubs
    table := fun _ _ => by rw [table]
    slot := .inl (by rw [table, same]; exact place)
    readers := readers
    made := made
    registered := registered
    others := fun call old there _ => by
      rw [waits, setWait_other loop (before there), there]
    same := fun call other there different => by
      have distinct : call ≠ loop.begun := by
        rintro rfl
        rw [waits, setWait_self] at there
        cases there
        exact different own
      rwa [waits, setWait_other loop distinct] at there
    waiting := fun call member => by
      by_cases first : call = loop.begun
      · subst first
        cases ended : new.finished with
        | false => exact ⟨new, by rw [waits, setWait_self], own, ended⟩
        | true =>
            rw [waiters, ended, if_pos rfl] at member
            obtain ⟨old, there, -⟩ := sound.waiting hub _ member
            exact absurd rfl (before there)
      · have member : call ∈ (loop.hubs hub).waiters := by
          rw [waiters] at member
          split_ifs at member with ended
          · exact member
          · exact (Finset.mem_insert.mp member).resolve_left first
        rw [Unfinished, waits, setWait_other loop first]
        exact sound.waiting hub call member
    pending := fun call other there belongs unfinished pending => by
      by_cases first : call = loop.begun
      · subst first
        rw [waits, setWait_self] at there
        cases there
        rw [waiters, unfinished, if_neg Bool.false_ne_true]
        exact Finset.mem_insert_self _ _
      · rw [waits, setWait_other loop first] at there
        have member := belongs ▸ sound.pending call other there unfinished pending
        rw [waiters]
        split_ifs
        · exact member
        · exact Finset.mem_insert_of_mem member
    begun := fun call late => by
      rw [begun] at late
      rw [waits, setWait_other loop (by omega)]
      exact sound.begun call (by omega)
    calls := calls }

/-- A call of `wait` whose `add_reader` is handled. -/
theorem enter_sound (sound : loop.Sound)
    (place : loop.table (loop.hubs hub).descriptor = some hub)
    (kept : ∀ descriptor other, descriptor ≠ (loop.hubs hub).descriptor →
      loop.table descriptor = some other → ∃ wait, loop.Unfinished other wait)
    {adding : AddReader} (handled : adding ≠ .failed) :
    (loop.enter hub adding).Sound ∧ (loop.enter hub adding).Kept := by
  have own := sound.ownReader place
  have filled : (insert loop.begun (loop.hubs hub).waiters).Nonempty := Finset.insert_nonempty _ _
  have settle : ∀ {after : HubLoop} {content : FDHub}, loop.Changes after hub content →
      content.descriptor = (loop.hubs hub).descriptor → content.waiters.Nonempty →
      after.Sound ∧ after.Kept := by
    intro after content changes same waits
    obtain ⟨call, member⟩ := waits
    exact ⟨sound.changes changes, changes.kept
      (sound.elsewhere changes.place (same ▸ kept)) fun _ => ⟨call, changes.waiting call member⟩⟩
  simp only [enter]
  split_ifs with registered
  · refine settle (sound.begin_changes ⟨hub, .pending, false⟩ rfl place
      ⟨(loop.hubs hub).descriptor, insert loop.begun (loop.hubs hub).waiters, true⟩ rfl rfl
      (iff_of_true rfl filled) ?_ rfl ?_ rfl rfl rfl sound.calls) rfl filled
    · rw [← registered]
      rfl
    · rw [OwnReader, if_pos registered] at own
      rw [if_pos rfl, ← own, Function.update_eq_self]
      rfl
  · rw [OwnReader, if_neg registered] at own
    cases adding with
    | failed => exact absurd rfl handled
    | added =>
        refine settle (sound.begin_changes ⟨hub, .pending, false⟩ rfl place
          ⟨(loop.hubs hub).descriptor, insert loop.begun (loop.hubs hub).waiters, true⟩ rfl rfl
          (iff_of_true rfl filled) ?_ rfl ?_ rfl rfl rfl ?_) rfl filled
        · simp only [register, setWait, setHub, Function.update_self, Function.update_idem]
        · simp only [register, setWait, setHub, Function.update_self, if_true]
        · intro call member
          rcases List.mem_append.mp member with member | member
          · exact sound.calls call member
          · rw [List.mem_singleton.mp member]
            simpa only [ReaderCall.Own, setWait, setHub, Function.update_self] using own
    | unsupported =>
        have fresh : loop.begun ∉ (loop.hubs hub).waiters := by
          intro member
          obtain ⟨old, there, -⟩ := sound.waiting hub _ member
          cases (sound.begun _ le_rfl).symm.trans there
        have changes : loop.Changes (discardWaiter (setWait
            { loop.setHub hub ⟨(loop.hubs hub).descriptor,
                insert loop.begun (loop.hubs hub).waiters, (loop.hubs hub).registered⟩ with
              begun := loop.begun + 1 } loop.begun ⟨hub, .pending, true⟩) hub loop.begun)
            hub (loop.hubs hub) := by
          refine sound.begin_changes ⟨hub, .pending, true⟩ rfl place (loop.hubs hub) rfl rfl
            (sound.registered hub) ?_ rfl ?_ rfl rfl rfl sound.calls
          · simp only [discardWaiter, setWait, setHub, Function.update_self, Function.update_idem,
              Finset.erase_insert fresh]
          · rw [if_neg registered, ← own, Function.update_eq_self]
            rfl
        exact ⟨sound.changes changes.discard, changes.discard.kept
          (sound.elsewhere place kept) changes.discard_slot⟩

theorem wait_sound (sound : loop.Sound) (kept : loop.Kept) (descriptor : ℕ) {adding : AddReader}
    (handled : adding ≠ .failed) :
    (loop.wait descriptor adding).Sound ∧ (loop.wait descriptor adding).Kept := by
  obtain ⟨sound, place, same, kept⟩ := hub_sound sound kept descriptor
  exact enter_sound sound (by rw [same]; exact place) (by rw [same]; exact kept) handled

end Events

/-! ## Runs -/

theorem init_sound : init.Sound ∧ init.Kept :=
  ⟨{ registered := fun hub => by simp [init]
     readers := fun descriptor hub => by simp [init]
     tabled := fun hub waits => absurd waits Finset.not_nonempty_empty
     placed := fun descriptor hub placed => by cases placed
     waiting := fun hub wait member => absurd member (Finset.notMem_empty wait)
     pending := fun wait content found => by cases found
     begun := fun wait _ => rfl
     calls := fun call member => absurd member List.not_mem_nil },
   fun descriptor hub placed => by cases placed⟩

end HubLoop

/-- `add_reader` raises no exception that `wait` does not handle. -/
def HubEvent.Handled : HubEvent → Prop
  | wait _ adding => adding ≠ .failed
  | _ => True

namespace HubLoop

theorem step_sound {loop : HubLoop} (sound : loop.Sound) (kept : loop.Kept) {event : HubEvent}
    (handled : event.Handled) : (loop.step event).Sound ∧ (loop.step event).Kept := by
  cases event with
  | wait descriptor adding => exact wait_sound sound kept descriptor handled
  | cancel wait =>
      rw [step]
      split
      · exact cancel_sound sound kept ‹_›
      · exact ⟨sound, kept⟩
  | resume wait =>
      rw [step]
      split
      · rename_i content found
        split_ifs
        · exact ⟨sound, kept⟩
        · exact resume_sound sound kept found
      · exact ⟨sound, kept⟩
  | ready hub => exact ready_sound sound kept hub
  | interrupt descriptor => exact interruptHub_sound sound kept descriptor

theorem run_sound {events : List HubEvent} (handled : ∀ event ∈ events, event.Handled) :
    (run events).Sound ∧ (run events).Kept := by
  induction events using List.reverseRecOn with
  | nil => exact init_sound
  | append_singleton events event induction =>
      obtain ⟨sound, kept⟩ := induction fun other member => handled other (by simp [member])
      rw [run, List.foldl_append]
      exact step_sound sound kept (handled event (by simp))

/-- A wait on a hub whose future is pending. -/
def Waits (loop : HubLoop) (hub wait : ℕ) : Prop :=
  loop.waits wait = some ⟨hub, .pending, false⟩

theorem Sound.wake_result {loop : HubLoop} (sound : loop.Sound) {hub wait : ℕ}
    (waits : loop.Waits hub wait) : (loop.wake hub).waits wait = some ⟨hub, .result, false⟩ := by
  have member := sound.pending wait _ waits rfl rfl
  rw [Waits] at waits
  rw [wake_waits]
  simp only [complete, if_pos member, waits, Option.map_some, if_true]

theorem Sound.interruptHub_result {loop : HubLoop} (sound : loop.Sound) {hub wait : ℕ}
    (waits : loop.Waits hub wait) :
    (loop.interruptHub (loop.hubs hub).descriptor).waits wait = some ⟨hub, .result, false⟩ := by
  have place := sound.tabled hub ⟨wait, sound.pending wait _ waits rfl rfl⟩
  simp only [interruptHub, place, discardHub_waits]
  exact sound.wake_result waits

/-- What holds between the steps of a loop. -/
structure Consistent (loop : HubLoop) : Prop where
  /-- The loop has the reader of a hub exactly when the hub has waiters. -/
  reader : ∀ hub, loop.readers (loop.hubs hub).descriptor = some hub ↔
    (loop.hubs hub).waiters.Nonempty
  registered : ∀ hub, (loop.hubs hub).registered = true ↔ (loop.hubs hub).waiters.Nonempty
  /-- One hub is registered for a descriptor. -/
  single : ∀ first second, (loop.hubs first).registered = true →
    (loop.hubs second).registered = true →
    (loop.hubs first).descriptor = (loop.hubs second).descriptor → first = second
  calls : ∀ call ∈ loop.calls, call.Own
  waiting : ∀ hub, ∀ wait ∈ (loop.hubs hub).waiters, loop.Unfinished hub wait
  /-- A hub stays in the table without waiters until a call whose future is done has gone on. -/
  kept : ∀ descriptor hub, loop.table descriptor = some hub →
    (loop.hubs hub).waiters.Nonempty ∨ ∃ wait content, loop.waits wait = some content ∧
      content.hub = hub ∧ content.finished = false ∧ content.future ≠ .pending
  ready : ∀ hub wait, loop.Waits hub wait →
    (loop.ready hub).waits wait = some ⟨hub, .result, false⟩
  interrupt : ∀ hub wait, loop.Waits hub wait →
    (loop.interruptHub (loop.hubs hub).descriptor).waits wait = some ⟨hub, .result, false⟩

/-- Between any events whose `add_reader` raises no other exceptions, the hubs are consistent. -/
theorem run_consistent (events : List HubEvent) (handled : ∀ event ∈ events, event.Handled) :
    (run events).Consistent := by
  obtain ⟨sound, kept⟩ := run_sound handled
  refine
    { reader := fun hub => ?_
      registered := sound.registered
      single := fun first second reads other same => ?_
      calls := sound.calls
      waiting := sound.waiting
      kept := fun descriptor hub placed => ?_
      ready := fun hub wait waits => sound.wake_result waits
      interrupt := fun hub wait waits => sound.interruptHub_result waits }
  · rw [sound.readers, and_iff_left rfl]
    exact sound.registered hub
  · have read := (sound.readers _ _).mpr ⟨reads, rfl⟩
    exact Option.some.inj (read.symm.trans ((sound.readers _ _).mpr ⟨other, same.symm⟩))
  · obtain ⟨wait, content, found, rfl, active⟩ := kept descriptor hub placed
    by_cases pending : content.future = .pending
    · exact .inl ⟨wait, sound.pending wait content found active pending⟩
    · exact .inr ⟨wait, content, found, rfl, active, pending⟩

/-- Two waits on a descriptor, its reader and an interrupt. -/
theorem run_consistent_twice :
    (run [.wait 3 .added, .wait 3 .added, .ready 0, .interrupt 3]).Consistent :=
  run_consistent _ (by simp [HubEvent.Handled])

/-- A hub whose reader has run is in the table without waiters. -/
theorem ready_keeps_hub :
    ¬∀ events : List HubEvent, (∀ event ∈ events, event.Handled) →
      ∀ descriptor hub, (run events).table descriptor = some hub →
        ((run events).hubs hub).waiters.Nonempty := by
  intro claimed
  have waits := claimed [.wait 3 .added, .ready 0] (by simp [HubEvent.Handled]) 3 0 (by decide)
  exact absurd waits (by decide)

/-- Behind another exception of `add_reader` the call that raised it is still a waiter. -/
theorem enter_failed (loop : HubLoop) {hub : ℕ} (bare : (loop.hubs hub).registered = false) :
    loop.begun ∈ ((loop.enter hub .failed).hubs hub).waiters ∧
      ¬(loop.enter hub .failed).Unfinished hub loop.begun := by
  simp only [enter, bare, Bool.false_eq_true, if_false, setWait, setHub, Function.update_self,
    Finset.mem_insert_self, true_and, Unfinished]
  rintro ⟨content, same, -, active⟩
  cases same
  cases active

end HubLoop

end Postgamma.Python
