import Mathlib

/-!
# Waiting for the readiness of a handle

`readiness.ts`: each live handle has an entry with a version and the waiters that sleep on it.  The
part of `wait` in front of its promise is one step and the part behind it another one, so that any
call may come between them.  A handle carries its generation and is tracked once.
-/

namespace Postgamma.Wasm

/-- Where a call of `wait` is. -/
inductive WaitPhase
  | asleep
  /-- Its promise is resolved, and the part behind it is to run. -/
  | woken
  | resolved
  | rejected
  deriving DecidableEq

/-- `Entry`. -/
structure ReadyEntry where
  version : ℕ
  waiters : List ℕ

/-- A call of `wait` with the entry that it holds. -/
structure Waiting (ι : Type) where
  handle : ι
  version : ℕ
  entry : ℕ
  aborted : Bool
  phase : WaitPhase

/-- `Readiness`; entries and waits are named by numbers. -/
structure Readiness (ι : Type) where
  /-- `entries`. -/
  table : ι → Option ℕ
  entries : ℕ → ReadyEntry
  allocated : ℕ
  /-- `failure` is set. -/
  failed : Bool
  waits : List (Waiting ι)
  /-- The handles that have been tracked. -/
  tracked : List ι
  /-- The versions that `version` has returned. -/
  reads : List (ι × ℕ)
  /-- The versions that were returned in front of a `notify` of their handle. -/
  outdated : List (ι × ℕ)

namespace Waiting

variable {ι : Type}

/-- The call in another phase. -/
def withPhase (waiting : Waiting ι) (phase : WaitPhase) : Waiting ι := { waiting with phase }

def wake (waiting : Waiting ι) : Waiting ι :=
  if waiting.phase = .asleep then waiting.withPhase .woken else waiting

end Waiting

namespace Readiness

variable {ι : Type} [DecidableEq ι]

/-- A new `Readiness`. -/
def init : Readiness ι := ⟨fun _ => none, fun _ => ⟨0, []⟩, 0, false, [], [], [], []⟩

/-- The waiters of some entries are woken. -/
def wakeAll (ready : Readiness ι) (waiters : List ℕ) : Readiness ι :=
  { ready with
    waits := ready.waits.mapIdx fun index waiting =>
      if index ∈ waiters then waiting.wake else waiting }

/-- `track`; a live handle throws. -/
def track (ready : Readiness ι) (handle : ι) : Readiness ι :=
  if ready.table handle ≠ none then ready
  else
    { ready with
      table := Function.update ready.table handle (some ready.allocated)
      entries := Function.update ready.entries ready.allocated ⟨0, []⟩
      allocated := ready.allocated + 1
      tracked := ready.tracked ++ [handle] }

/-- `version`; nothing for an error. -/
def version (ready : Readiness ι) (handle : ι) : Option ℕ :=
  if ready.failed then none else (ready.table handle).map fun entry => (ready.entries entry).version

/-- The call of `version`, whose result is noted. -/
def read (ready : Readiness ι) (handle : ι) : Readiness ι :=
  match ready.version handle with
  | none => ready
  | some version => { ready with reads := ready.reads ++ [(handle, version)] }

def setEntry (ready : Readiness ι) (entry : ℕ) (content : ReadyEntry) : Readiness ι :=
  { ready with entries := Function.update ready.entries entry content }

/-- What has been read of a handle is outdated. -/
def date (ready : Readiness ι) (handle : ι) : Readiness ι :=
  { ready with
    outdated := ready.outdated ++ ready.reads.filter fun read => decide (read.1 = handle) }

def notify (ready : Readiness ι) (handle : ι) : Readiness ι :=
  match ready.table handle with
  | none => ready.date handle
  | some entry =>
      let content := ready.entries entry
      (((ready.date handle).setEntry entry { content with version := content.version + 1 }).wakeAll
        content.waiters)

/-- `wait` up to its promise. -/
def wait (ready : Readiness ι) (handle : ι) (version : ℕ) (aborted : Bool) : Readiness ι :=
  let called (entry : ℕ) (phase : WaitPhase) : Readiness ι :=
    { ready with waits := ready.waits ++ [⟨handle, version, entry, aborted, phase⟩] }
  if aborted then called 0 .rejected
  else
    match ready.version handle, ready.table handle with
    | some current, some entry =>
        if current ≠ version then called entry .resolved
        else
          let content := ready.entries entry
          (called entry .asleep).setEntry entry
            { content with waiters := content.waiters ++ [ready.waits.length] }
    | _, _ => called 0 .rejected

def setWait (ready : Readiness ι) (index : ℕ) (waiting : Waiting ι) : Readiness ι :=
  { ready with waits := ready.waits.set index waiting }

/-- The part of `wait` behind its promise. -/
def resume (ready : Readiness ι) (index : ℕ) (waiting : Waiting ι) : Readiness ι :=
  let content := ready.entries waiting.entry
  (ready.setEntry waiting.entry { content with waiters := content.waiters.erase index }).setWait
    index (waiting.withPhase
      (if waiting.aborted then .rejected
      else if ready.version waiting.handle = none then .rejected
      else .resolved))

/-- The abort of the signal of a wait, whose listener is `wake`. -/
def abort (ready : Readiness ι) (index : ℕ) (waiting : Waiting ι) : Readiness ι :=
  ready.setWait index { waiting.wake with aborted := true }

def retire (ready : Readiness ι) (handle : ι) : Readiness ι :=
  match ready.table handle with
  | none => ready
  | some entry =>
      { ready.wakeAll (ready.entries entry).waiters with
        table := Function.update ready.table handle none }

def liveWaiters (ready : Readiness ι) : List ℕ :=
  ready.tracked.flatMap fun handle =>
    ((ready.table handle).map fun entry => (ready.entries entry).waiters).getD []

def fail (ready : Readiness ι) : Readiness ι :=
  { ready.wakeAll ready.liveWaiters with
    failed := true
    table := fun _ => none }

/-- A step. -/
inductive Step (ready : Readiness ι) : Readiness ι → Prop
  | track {handle : ι} : handle ∉ ready.tracked → Step ready (ready.track handle)
  | read (handle : ι) : Step ready (ready.read handle)
  | notify (handle : ι) : Step ready (ready.notify handle)
  | wait (handle : ι) (version : ℕ) (aborted : Bool) :
      Step ready (ready.wait handle version aborted)
  | resume {index : ℕ} {waiting : Waiting ι} : ready.waits[index]? = some waiting →
      waiting.phase = .woken → Step ready (ready.resume index waiting)
  | abort {index : ℕ} {waiting : Waiting ι} : ready.waits[index]? = some waiting →
      Step ready (ready.abort index waiting)
  | retire (handle : ι) : Step ready (ready.retire handle)
  | fail : Step ready ready.fail

/-- What the steps lead to. -/
inductive Reachable : Readiness ι → Prop
  | init : Reachable init
  | step {ready after : Readiness ι} : Reachable ready → Step ready after → Reachable after

/-! ## The invariant -/

/-- A wait that sleeps is registered with a live entry that still has its version. -/
structure Sound (ready : Readiness ι) : Prop where
  live : ∀ handle entry, ready.table handle = some entry →
    handle ∈ ready.tracked ∧ entry < ready.allocated
  apart : ∀ handle other entry, ready.table handle = some entry →
    ready.table other = some entry → handle = other
  asleep : ∀ index waiting, ready.waits[index]? = some waiting → waiting.phase = .asleep →
    ready.table waiting.handle = some waiting.entry ∧
      index ∈ (ready.entries waiting.entry).waiters ∧
      (ready.entries waiting.entry).version = waiting.version
  registered : ∀ entry, ∀ waiter ∈ (ready.entries entry).waiters,
    ∃ waiting, ready.waits[waiter]? = some waiting ∧ waiting.entry = entry
  reads : ∀ read ∈ ready.reads, read.1 ∈ ready.tracked ∧
    ∀ entry, ready.table read.1 = some entry → read.2 ≤ (ready.entries entry).version
  outdated : ∀ read ∈ ready.outdated, read.1 ∈ ready.tracked ∧
    ∀ entry, ready.table read.1 = some entry → read.2 < (ready.entries entry).version

variable {ready after : Readiness ι}

omit [DecidableEq ι] in
theorem init_sound : (init : Readiness ι).Sound where
  live := by simp [init]
  apart := by simp [init]
  asleep := by simp [init]
  registered := by simp [init]
  reads := by simp [init]
  outdated := by simp [init]

omit [DecidableEq ι] in
theorem wake_phase (waiting : Waiting ι) : waiting.wake.phase ≠ .asleep := by
  rw [Waiting.wake]
  split_ifs with asleep
  · simp [Waiting.withPhase]
  · exact asleep

omit [DecidableEq ι] in
/-- Who still sleeps was not woken. -/
theorem asleep_wakeAll {waiters : List ℕ} {index : ℕ} {waiting : Waiting ι}
    (found : (ready.wakeAll waiters).waits[index]? = some waiting)
    (asleep : waiting.phase = .asleep) :
    index ∉ waiters ∧ ready.waits[index]? = some waiting := by
  simp only [wakeAll, List.getElem?_mapIdx, Option.map_eq_some_iff] at found
  obtain ⟨before, was, same⟩ := found
  split_ifs at same with woken
  · exact absurd (same ▸ asleep) (wake_phase before)
  · exact ⟨woken, same ▸ was⟩

omit [DecidableEq ι] in
theorem wake_entry (waiting : Waiting ι) : waiting.wake.entry = waiting.entry := by
  rw [Waiting.wake]
  split_ifs <;> rfl

omit [DecidableEq ι] in
theorem entry_wakeAll (waiters : List ℕ) {index entry : ℕ}
    (found : ∃ waiting, ready.waits[index]? = some waiting ∧ waiting.entry = entry) :
    ∃ waiting, (ready.wakeAll waiters).waits[index]? = some waiting ∧ waiting.entry = entry := by
  obtain ⟨waiting, present, rfl⟩ := found
  refine ⟨if index ∈ waiters then waiting.wake else waiting, by simp [wakeAll, present], ?_⟩
  split_ifs
  · exact wake_entry waiting
  · rfl

theorem Sound.track (sound : ready.Sound) {handle : ι} (fresh : handle ∉ ready.tracked) :
    (ready.track handle).Sound := by
  rw [Readiness.track]
  split_ifs with live
  · exact sound
  have others : ∀ other, other ∈ ready.tracked →
      Function.update ready.table handle (some ready.allocated) other = ready.table other :=
    fun other member => Function.update_of_ne (ne_of_mem_of_not_mem member fresh) _ _
  have old : ∀ entry < ready.allocated,
      Function.update ready.entries ready.allocated ⟨0, []⟩ entry = ready.entries entry :=
    fun entry small => Function.update_of_ne small.ne _ _
  have cases_of : ∀ other entry,
      Function.update ready.table handle (some ready.allocated) other = some entry →
      other = handle ∧ entry = ready.allocated ∨ ready.table other = some entry := by
    intro other entry found
    rcases eq_or_ne other handle with rfl | different
    · rw [Function.update_self] at found
      exact .inl ⟨rfl, (Option.some.inj found).symm⟩
    · rw [Function.update_of_ne different] at found
      exact .inr found
  exact {
    live := fun other entry found => by
      rcases cases_of other entry found with ⟨rfl, rfl⟩ | found
      · exact ⟨List.mem_append_right _ (List.mem_singleton_self _), Nat.lt_succ_self _⟩
      · obtain ⟨tracked, small⟩ := sound.live other entry found
        exact ⟨List.mem_append_left _ tracked, Nat.lt_succ_of_lt small⟩
    apart := fun first second entry one two => by
      rcases cases_of first entry one with ⟨rfl, rfl⟩ | one <;>
        rcases cases_of second _ two with ⟨same, fresh_entry⟩ | two
      · exact same.symm
      · exact absurd (sound.live second _ two).2 (lt_irrefl _)
      · exact absurd (sound.live first entry one).2 (by omega)
      · exact sound.apart first second entry one two
    asleep := fun index waiting found asleep => by
      obtain ⟨table, member, version⟩ := sound.asleep index waiting found asleep
      obtain ⟨tracked, small⟩ := sound.live _ _ table
      simp only [others _ tracked, old _ small]
      exact ⟨table, member, version⟩
    registered := fun entry waiter member => by
      rcases eq_or_ne entry ready.allocated with rfl | different
      · simp at member
      · simp only [Function.update_of_ne different] at member
        exact sound.registered entry waiter member
    reads := fun read member => by
      obtain ⟨tracked, least⟩ := sound.reads read member
      refine ⟨List.mem_append_left _ tracked, fun entry found => ?_⟩
      simp only [others _ tracked] at found
      simp only [old _ (sound.live _ _ found).2]
      exact least entry found
    outdated := fun read member => by
      obtain ⟨tracked, least⟩ := sound.outdated read member
      refine ⟨List.mem_append_left _ tracked, fun entry found => ?_⟩
      simp only [others _ tracked] at found
      simp only [old _ (sound.live _ _ found).2]
      exact least entry found }

omit [DecidableEq ι] in
theorem Sound.read (sound : ready.Sound) (handle : ι) : (ready.read handle).Sound := by
  rw [Readiness.read]
  cases returned : ready.version handle with
  | none => exact sound
  | some version =>
      rw [Readiness.version] at returned
      split_ifs at returned
      obtain ⟨entry, found, same⟩ := Option.map_eq_some_iff.mp returned
      refine { sound with reads := fun read member => ?_ }
      rcases List.mem_append.mp member with member | single
      · exact sound.reads read member
      · obtain rfl := List.mem_singleton.mp single
        refine ⟨(sound.live handle entry found).1, fun other again => ?_⟩
        obtain rfl := Option.some.inj (found.symm.trans again)
        exact same.ge

/-- The change of an entry, and the wakeup of all its waiters. -/
theorem Sound.notify (sound : ready.Sound) (handle : ι) : (ready.notify handle).Sound := by
  rw [Readiness.notify]
  cases found : ready.table handle with
  | none =>
      refine { sound with outdated := fun read member => ?_ }
      rcases List.mem_append.mp member with member | dated
      · exact sound.outdated read member
      · obtain ⟨member, same⟩ := List.mem_filter.mp dated
        refine ⟨(sound.reads read member).1, fun entry live => ?_⟩
        rw [of_decide_eq_true same] at live
        exact absurd (found.symm.trans live) (by simp)
  | some entry =>
      have grown : ∀ other, (ready.entries other).version ≤
          (Function.update ready.entries entry
            { ready.entries entry with version := (ready.entries entry).version + 1 }
            other).version := by
        intro other
        rcases eq_or_ne other entry with rfl | different
        · simp
        · simp [different]
      exact {
        live := sound.live
        apart := sound.apart
        asleep := fun index waiting present asleep => by
          obtain ⟨missed, before⟩ := asleep_wakeAll present asleep
          obtain ⟨table, member, version⟩ := sound.asleep index waiting before asleep
          have away : waiting.entry ≠ entry := fun same => missed (same ▸ member)
          refine ⟨table, ?_⟩
          simp only [wakeAll, setEntry, Function.update_of_ne away]
          exact ⟨member, version⟩
        registered := fun other waiter member => by
          refine entry_wakeAll _ (sound.registered other waiter ?_)
          rcases eq_or_ne other entry with rfl | different
          · simpa [wakeAll, setEntry] using member
          · simpa [wakeAll, setEntry, different, date] using member
        reads := fun read member => by
          obtain ⟨tracked, least⟩ := sound.reads read member
          exact ⟨tracked, fun other live => (least other live).trans (grown other)⟩
        outdated := fun read member => by
          rcases List.mem_append.mp member with member | dated
          · obtain ⟨tracked, less⟩ := sound.outdated read member
            exact ⟨tracked, fun other live => (less other live).trans_le (grown other)⟩
          · obtain ⟨member, same⟩ := List.mem_filter.mp dated
            obtain ⟨tracked, least⟩ := sound.reads read member
            refine ⟨tracked, fun other live => ?_⟩
            have here : ready.table handle = some other := of_decide_eq_true same ▸ live
            obtain rfl := Option.some.inj (found.symm.trans here)
            have below := least entry live
            simp only [wakeAll, setEntry, Function.update_self]
            omega }

theorem append_found {α : Type} {list : List α} {last found : α} {index : ℕ}
    (present : list[index]? = some found) : (list ++ [last])[index]? = some found := by
  grind

theorem found_append {α : Type} {list : List α} {last found : α} {index : ℕ}
    (present : (list ++ [last])[index]? = some found) :
    list[index]? = some found ∨ index = list.length ∧ last = found := by
  grind

omit [DecidableEq ι] in
/-- A call that settles at once. -/
theorem Sound.called (sound : ready.Sound) {waiting : Waiting ι}
    (awake : waiting.phase ≠ .asleep) :
    ({ ready with waits := ready.waits ++ [waiting] } : Readiness ι).Sound := by
  refine { sound with
    asleep := fun index other found asleep => ?_
    registered := fun entry waiter member => ?_ }
  · rcases found_append found with before | ⟨-, rfl⟩
    · exact sound.asleep index other before asleep
    · exact absurd asleep awake
  · obtain ⟨registered, present, same⟩ := sound.registered entry waiter member
    exact ⟨registered, append_found present, same⟩

omit [DecidableEq ι] in
theorem Sound.wait (sound : ready.Sound) (handle : ι) (version : ℕ) (aborted : Bool) :
    (ready.wait handle version aborted).Sound := by
  rw [Readiness.wait]
  split_ifs
  · exact sound.called (by simp)
  cases returned : ready.version handle with
  | none => exact sound.called (by simp)
  | some current =>
      cases live : ready.table handle with
      | none => exact sound.called (by simp)
      | some entry =>
          simp only
          split_ifs with changed
          · exact sound.called (by simp)
          have kept : ∀ other, (Function.update ready.entries entry
              { ready.entries entry with
                waiters := (ready.entries entry).waiters ++ [ready.waits.length] } other).version =
              (ready.entries other).version := by
            intro other
            rcases eq_or_ne other entry with rfl | different
            · simp
            · simp [different]
          have more : ∀ other, (ready.entries other).waiters ⊆ (Function.update ready.entries entry
              { ready.entries entry with
                waiters := (ready.entries entry).waiters ++ [ready.waits.length] }
              other).waiters := by
            intro other
            rcases eq_or_ne other entry with rfl | different
            · simp
            · simp [different]
          rw [Readiness.version] at returned
          split_ifs at returned
          rw [live] at returned
          have same : (ready.entries entry).version = version :=
            (Option.some.inj returned).trans (not_not.mp changed)
          exact {
            live := sound.live
            apart := sound.apart
            asleep := fun index waiting found asleep => by
              rcases found_append found with before | ⟨rfl, rfl⟩
              · obtain ⟨table, member, unchanged⟩ := sound.asleep index waiting before asleep
                exact ⟨table, more _ member, (kept _).trans unchanged⟩
              · exact ⟨live, by simp [setEntry], (kept entry).trans same⟩
            registered := fun other waiter member => by
              rcases eq_or_ne other entry with rfl | different
              · simp only [setEntry, Function.update_self] at member
                rcases List.mem_append.mp member with member | single
                · obtain ⟨waiting, present, same⟩ := sound.registered other waiter member
                  exact ⟨waiting, append_found present, same⟩
                · obtain rfl := List.mem_singleton.mp single
                  exact ⟨_, List.getElem?_concat_length, rfl⟩
              · simp only [setEntry, Function.update_of_ne different] at member
                obtain ⟨waiting, present, same⟩ := sound.registered other waiter member
                exact ⟨waiting, append_found present, same⟩
            reads := fun read member => by
              obtain ⟨tracked, least⟩ := sound.reads read member
              exact ⟨tracked, fun other found => (least other found).trans (kept other).ge⟩
            outdated := fun read member => by
              obtain ⟨tracked, less⟩ := sound.outdated read member
              exact ⟨tracked, fun other found => (less other found).trans_le (kept other).ge⟩ }

omit [DecidableEq ι] in
/-- A wait that wakes or settles, and leaves an entry. -/
theorem Sound.setWait (sound : ready.Sound) {index : ℕ} {before waiting : Waiting ι}
    (found : ready.waits[index]? = some before) (awake : waiting.phase ≠ .asleep)
    (same : waiting.entry = before.entry) : (ready.setWait index waiting).Sound := by
  refine { sound with
    asleep := fun other sleeper found asleep => ?_
    registered := fun entry waiter member => ?_ }
  on_goal 2 =>
    obtain ⟨registered, present, of_entry⟩ := sound.registered entry waiter member
    rcases eq_or_ne index waiter with rfl | different
    · obtain rfl := Option.some.inj (found.symm.trans present)
      have inside := (List.getElem?_eq_some_iff.mp found).1
      exact ⟨waiting, List.getElem?_set_self inside, same.trans of_entry⟩
    · exact ⟨registered, (List.getElem?_set_ne different).trans present, of_entry⟩
  rcases eq_or_ne index other with rfl | different
  · rw [Readiness.setWait, List.getElem?_set_self'] at found
    obtain ⟨_, _, equal⟩ := Option.map_eq_some_iff.mp found
    rw [← equal] at asleep
    exact absurd asleep awake
  · rw [Readiness.setWait, List.getElem?_set_ne different] at found
    exact sound.asleep other sleeper found asleep

omit [DecidableEq ι] in
theorem Sound.resume (sound : ready.Sound) {index : ℕ} {waiting : Waiting ι}
    (found : ready.waits[index]? = some waiting) (woken : waiting.phase = .woken) :
    (ready.resume index waiting).Sound := by
  have left : (ready.setEntry waiting.entry
      { ready.entries waiting.entry with
        waiters := (ready.entries waiting.entry).waiters.erase index }).Sound := by
    have kept : ∀ other, (Function.update ready.entries waiting.entry
        { ready.entries waiting.entry with
          waiters := (ready.entries waiting.entry).waiters.erase index } other).version =
        (ready.entries other).version := by
      intro other
      rcases eq_or_ne other waiting.entry with rfl | different
      · simp
      · simp [different]
    exact {
      live := sound.live
      apart := sound.apart
      asleep := fun other sleeper present asleep => by
        obtain ⟨table, member, version⟩ := sound.asleep other sleeper present asleep
        have away : other ≠ index := by
          rintro rfl
          obtain rfl := Option.some.inj (found.symm.trans present)
          rw [woken] at asleep
          cases asleep
        refine ⟨table, ?_, (kept _).trans version⟩
        rcases eq_or_ne sleeper.entry waiting.entry with same | different
        · simp only [setEntry, same, Function.update_self]
          exact (List.mem_erase_of_ne away).mpr (same ▸ member)
        · simpa [setEntry, different] using member
      registered := fun other waiter member => by
        refine sound.registered other waiter ?_
        rcases eq_or_ne other waiting.entry with rfl | different
        · simp only [setEntry, Function.update_self] at member
          exact List.mem_of_mem_erase member
        · simpa [setEntry, different] using member
      reads := fun read member => by
        obtain ⟨tracked, least⟩ := sound.reads read member
        exact ⟨tracked, fun other live => (least other live).trans (kept other).ge⟩
      outdated := fun read member => by
        obtain ⟨tracked, less⟩ := sound.outdated read member
        exact ⟨tracked, fun other live => (less other live).trans_le (kept other).ge⟩ }
  refine left.setWait found ?_ rfl
  simp only [Waiting.withPhase]
  split_ifs <;> simp

theorem Sound.retire (sound : ready.Sound) (handle : ι) : (ready.retire handle).Sound := by
  rw [Readiness.retire]
  cases found : ready.table handle with
  | none => exact sound
  | some entry =>
      have fewer : ∀ other ref, Function.update ready.table handle none other = some ref →
          ready.table other = some ref := by
        intro other ref live
        rcases eq_or_ne other handle with rfl | different
        · simp at live
        · rwa [Function.update_of_ne different] at live
      exact {
        live := fun other ref live => sound.live other ref (fewer other ref live)
        apart := fun first second ref one two =>
          sound.apart first second ref (fewer first ref one) (fewer second ref two)
        asleep := fun index waiting present asleep => by
          obtain ⟨missed, before⟩ := asleep_wakeAll present asleep
          obtain ⟨table, member, version⟩ := sound.asleep index waiting before asleep
          have away : waiting.handle ≠ handle := by
            intro same
            rw [same, found] at table
            exact missed (Option.some.inj table ▸ member)
          exact ⟨(Function.update_of_ne away _ _).trans table, member, version⟩
        registered := fun other waiter member =>
          entry_wakeAll _ (sound.registered other waiter member)
        reads := fun read member => by
          obtain ⟨tracked, least⟩ := sound.reads read member
          exact ⟨tracked, fun ref live => least ref (fewer _ ref live)⟩
        outdated := fun read member => by
          obtain ⟨tracked, less⟩ := sound.outdated read member
          exact ⟨tracked, fun ref live => less ref (fewer _ ref live)⟩ }

omit [DecidableEq ι] in
/-- Every sleeper is among the waiters of the live entries. -/
theorem Sound.mem_liveWaiters (sound : ready.Sound) {index : ℕ} {waiting : Waiting ι}
    (found : ready.waits[index]? = some waiting) (asleep : waiting.phase = .asleep) :
    index ∈ ready.liveWaiters := by
  obtain ⟨table, member, -⟩ := sound.asleep index waiting found asleep
  refine List.mem_flatMap.mpr ⟨waiting.handle, (sound.live _ _ table).1, ?_⟩
  simpa [table] using member

omit [DecidableEq ι] in
/-- Nobody sleeps behind a failure. -/
theorem Sound.fail_awake (sound : ready.Sound) {index : ℕ} {waiting : Waiting ι}
    (found : ready.fail.waits[index]? = some waiting) : waiting.phase ≠ .asleep := by
  intro asleep
  obtain ⟨missed, before⟩ := asleep_wakeAll found asleep
  exact missed (sound.mem_liveWaiters before asleep)

omit [DecidableEq ι] in
theorem Sound.fail (sound : ready.Sound) : ready.fail.Sound where
  live := fun _ _ live => by cases live
  apart := fun _ _ _ live => by cases live
  asleep := fun _ _ found asleep => absurd asleep (sound.fail_awake found)
  registered := fun entry waiter member => entry_wakeAll _ (sound.registered entry waiter member)
  reads := fun read member => ⟨(sound.reads read member).1, fun _ live => by cases live⟩
  outdated := fun read member => ⟨(sound.outdated read member).1, fun _ live => by cases live⟩

theorem Step.sound (step : Step ready after) (sound : ready.Sound) : after.Sound := by
  cases step with
  | track fresh => exact sound.track fresh
  | read handle => exact sound.read handle
  | notify handle => exact sound.notify handle
  | wait handle version aborted => exact sound.wait handle version aborted
  | resume found woken => exact sound.resume found woken
  | abort found => exact sound.setWait found (wake_phase _) (wake_entry _)
  | retire handle => exact sound.retire handle
  | fail => exact sound.fail

theorem Reachable.sound (reachable : Reachable ready) : ready.Sound := by
  induction reachable with
  | init => exact init_sound
  | step reachable step induction => exact step.sound induction

omit [DecidableEq ι] in
/-- The wakeup of the waiters of a handle concerns no wait of another handle. -/
theorem Sound.others (sound : ready.Sound) {handle : ι} {entry : ℕ}
    (live : ready.table handle = some entry) {index : ℕ} {waiting : Waiting ι}
    (found : ready.waits[index]? = some waiting) (other : waiting.handle ≠ handle) :
    (ready.wakeAll (ready.entries entry).waiters).waits[index]? = some waiting := by
  simp only [wakeAll, List.getElem?_mapIdx, found, Option.map_some, Option.some.injEq]
  split_ifs with member
  · rw [Waiting.wake, if_neg]
    intro asleep
    obtain ⟨registered, present, same⟩ := sound.registered entry index member
    obtain rfl := Option.some.inj (found.symm.trans present)
    obtain ⟨table, -⟩ := sound.asleep index waiting found asleep
    exact other (sound.apart _ _ _ table (same ▸ live))
  · rfl

end Readiness
end Postgamma.Wasm
