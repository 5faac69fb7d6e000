import Mathlib
import Postgamma.Wasm.BridgeContract

/-!
# The commands of the bridge

One lemma for each command: from a sound bridge, whatever the client has sent and whatever the
native side answers, the native calls of the command keep the contract and leave a sound bridge.
-/

namespace Postgamma
namespace Wasm

open Text (Bytes)
open Ownership (World Object)

namespace Bridge

variable {bridge after before : Bridge} {spare : List (ℕ × Object NativeClass)} {slot : Slot}
  {kind : HandleKind} {calls : List Call}

theorem SameLinks.of_handles (handles : after.handles = bridge.handles) :
    SameLinks bridge after := by
  constructor <;> intro slot <;> rw [handles]

/-- The state beside the handles changes; the terminal owns the instance only where it is alone. -/
theorem Works.frame {next : Bridge} (works : Works before bridge calls spare)
    (handles : next.handles = bridge.handles) (world : next.world = bridge.world)
    (issued : next.issued = bridge.issued)
    (exclusive : next.psqlOwned = true → ∃ home, (bridge.handles home).kind = some .instance_ ∧
      ∀ other, (bridge.handles other).kind.isSome → other = home) :
    Works before next calls spare := by
  have links := SameLinks.of_handles handles
  have limited := works.limited
  refine ⟨links.linked world works.linked, ?_, works.kept, by rw [world, works.world],
    works.later.trans (links.later issued)⟩
  constructor
  · rw [handles]
    exact limited.bounded
  · rw [handles]
    exact limited.watching
  · rw [handles]
    exact limited.retrying
  · rw [handles]
    exact limited.closing
  · rw [links.count]
    exact limited.instances
  · rw [links.count]
    exact limited.logicals
  · rw [links.count]
    exact limited.sessions
  · rw [handles]
    exact exclusive
  · rw [handles, issued]
    exact limited.issued
  · rw [handles]
    exact limited.fresh

/-- An object that is there is used. -/
theorem Works.use (works : Works before bridge calls spare) {class_ : NativeClass} {object : ℕ}
    (there : bridge.world.kindOf object = some class_) :
    Works before bridge (calls ++ [.use class_ object]) spare := by
  refine ⟨works.linked, works.limited, ?_, ?_, works.later⟩
  · rw [World.keeps_append, ← works.world]
    exact ⟨works.kept, there, trivial⟩
  · rw [World.afterAll_append, ← works.world]
    rfl

/-- One part of a run comes behind another. -/
theorem Works.trans {third : Bridge} {more : List Call} (first : Works before bridge calls [])
    (second : Works bridge third more spare) : Works before third (calls ++ more) spare where
  linked := second.linked
  limited := second.limited
  kept := by
    rw [World.keeps_append, ← first.world]
    exact ⟨first.kept, second.kept⟩
  world := by rw [World.afterAll_append, ← first.world, second.world]
  later := first.later.trans second.later

theorem Works.rest (works : Works before bridge calls []) : Works bridge bridge [] [] where
  linked := works.linked
  limited := works.limited
  kept := trivial
  world := rfl
  later := Later.refl bridge

@[simp] theorem slotOf_succ (slot : Slot) : slotOf (slot.val + 1) = some slot := by
  rw [slotOf, dif_pos ⟨Nat.succ_pos _, by simp⟩]
  rfl

/-- The owner of the object of a handle is the object of the handle above it. -/
theorem Linked.owner (linked : bridge.Linked spare)
    (live : (bridge.handles slot).kind = some kind) (hangs : kind ≠ .instance_) :
    ∃ above kindAbove, (bridge.handles slot).parent = above.val + 1 ∧
      (bridge.handles above).kind = some kindAbove ∧ kindAbove ∈ kind.below ∧
      bridge.world.objects (bridge.handles slot).pointer =
        some ⟨kind.native, some (bridge.handles above).pointer⟩ := by
  rcases linked.placed live with ⟨isHome, -, -⟩ | found
  · exact (hangs isHome).elim
  · exact found

/-- The owner, where it can only be of one kind. -/
theorem Linked.owner_single (linked : bridge.Linked spare) {single : HandleKind}
    (live : (bridge.handles slot).kind = some kind) (only : kind.below = [single]) :
    ∃ above, (bridge.handles slot).parent = above.val + 1 ∧
      (bridge.handles above).kind = some single ∧
      bridge.world.objects (bridge.handles slot).pointer =
        some ⟨kind.native, some (bridge.handles above).pointer⟩ := by
  have hangs : kind ≠ .instance_ := by
    rintro rfl
    cases only
  obtain ⟨above, kindAbove, up, alive, below, object⟩ := linked.owner live hangs
  rw [only, List.mem_singleton] at below
  subst below
  exact ⟨above, up, alive, object⟩

/-- A handle of a kind below which nothing hangs has no children. -/
theorem Linked.leaf (linked : bridge.Linked spare)
    (live : (bridge.handles slot).kind = some kind)
    (bare : ∀ child, kind ∉ HandleKind.below child) : bridge.children slot = false := by
  by_contra some
  rw [Bool.not_eq_false] at some
  obtain ⟨child, alive, up⟩ := children_eq_true.mp some
  obtain ⟨kindChild, found⟩ := Option.isSome_iff_exists.mp alive
  rcases linked.placed found with ⟨-, root, -⟩ | ⟨above, kindAbove, hangs, found, below, -⟩
  · omega
  · have same : above = slot := Fin.ext (by omega)
    subst same
    rw [live] at found
    cases found
    exact bare kindChild below

/-- The request of which `ready_sequence` reads the sequence is there. -/
theorem Linked.sequence (linked : bridge.Linked spare)
    (live : (bridge.handles slot).kind = some kind) (kinds : kind = .request ∨ kind = .stream) :
    ∃ object, bridge.sequenceObject slot = some object ∧
      bridge.world.kindOf object = some .request := by
  rcases kinds with rfl | rfl
  · refine ⟨_, ?_, linked.object live⟩
    rw [sequenceObject, if_neg (by simp [live])]
  · obtain ⟨above, up, alive, -⟩ := linked.owner_single live rfl
    refine ⟨(bridge.handles above).pointer, ?_, linked.object alive⟩
    rw [sequenceObject, if_pos live, up, slotOf_succ]
    rfl

theorem reserve_reservable (reserved : bridge.reserve = some slot) :
    (bridge.handles slot).reservable = true := by
  rw [reserve] at reserved
  exact (List.find?_eq_some_iff_append.mp reserved).1

theorem reservable_reserve (reservable : (bridge.handles slot).reservable = true) :
    ∃ place, bridge.reserve = some place := by
  rw [← Option.isSome_iff_exists, reserve, List.find?_isSome]
  exact ⟨slot, List.mem_finRange _, reservable⟩

/-- The order in which objects wait does not matter. -/
theorem Linked.perm (linked : bridge.Linked spare) {other : List (ℕ × Object NativeClass)}
    (same : ∀ item, item ∈ other ↔ item ∈ spare) : bridge.Linked other where
  rooted := linked.rooted
  placed := linked.placed
  distinct := linked.distinct
  covered there := (linked.covered there).imp_left (same _).mpr
  spared member := linked.spared ((same _).mp member)

theorem exists_reservable (free : 0 < bridge.freeSlots) :
    ∃ slot, (bridge.handles slot).reservable = true := by
  rw [freeSlots, census_eq_card, Finset.card_pos] at free
  obtain ⟨slot, member⟩ := free
  exact ⟨slot, (Finset.mem_filter.mp member).2⟩

/-- A live handle of a kind is counted. -/
theorem count_pos {test : HandleKind → Bool} (live : (bridge.handles slot).kind = some kind)
    (holds : test kind = true) : 0 < bridge.count test :=
  census_pos slot (by rw [live]; exact holds)

end Bridge

namespace Turn

variable {before : Bridge} {turn : Turn} {spare : List (ℕ × Object NativeClass)}
  {slot home : Slot} {kind : HandleKind} {native : Native}

@[simp] theorem useOn_bridge (class_ : NativeClass) (object : Option ℕ) :
    (turn.useOn class_ object).bridge = turn.bridge := by
  cases object <;> rfl

/-- A handle of the kind may hang below the parent. -/
def Hangs (bridge : Bridge) (kind : HandleKind) : Option Slot → Prop
  | none => kind = .instance_
  | some above => ∃ kindAbove, (bridge.handles above).kind = some kindAbove ∧
      kindAbove ∈ kind.below ∧
      (kindAbove = .statement ∨ (bridge.handles above).closing = false)

/-- One more handle of the kind stays within the limits. -/
structure Room (bridge : Bridge) (kind : HandleKind) : Prop where
  owned : bridge.psqlOwned = false
  instances : kind = .instance_ → bridge.count (· = .instance_) = 0
  logicals : kind = .logical → bridge.count (· = .logical) = 0
  sessions : kind.session = true → bridge.count HandleKind.session < maxConnections

/-- The entry of an object that is made for a handle. -/
def entryOf (bridge : Bridge) (kind : HandleKind) (parent : Option Slot) : Object NativeClass :=
  { kind := kind.native, owner := parent.map fun above => (bridge.handles above).pointer }

theorem Works.create (works : turn.Works before spare) {parent : Option Slot}
    (hangs : Hangs turn.bridge kind parent) :
    (turn.create kind.native parent).Works before
      ((turn.bridge.world.next, entryOf turn.bridge kind parent) :: spare) := by
  refine works.make (entryOf turn.bridge kind parent) ⟨rfl, ?_⟩
  cases parent with
  | none =>
      subst hangs
      trivial
  | some above =>
      obtain ⟨kindAbove, live, below, -⟩ := hangs
      exact ⟨_, works.linked.object live, mayOwn_below below⟩

/-- A waiting object gets the handle that it was made for. -/
theorem Works.settle {object : ℕ} {parent : Option Slot}
    (works : turn.Works before ((object, entryOf turn.bridge kind parent) :: spare))
    (others : ∀ item ∈ spare, item.1 ≠ object)
    (reserved : (turn.bridge.handles slot).reservable = true) (room : Room turn.bridge kind)
    (hangs : Hangs turn.bridge kind parent) :
    (turn.publish (some slot) kind parent object).Works before spare := by
  refine works.publish others room.owned reserved ?_ ?_ room.instances room.logicals room.sessions
  · cases parent with
    | none =>
        have isHome : kind = .instance_ := hangs
        subst isHome
        exact ⟨rfl, rfl⟩
    | some above =>
        obtain ⟨kindAbove, live, below, -⟩ := hangs
        exact ⟨kindAbove, live, below, rfl⟩
  · intro above member
    cases parent with
    | none => cases member
    | some other =>
        cases member
        obtain ⟨kindAbove, live, -, isStatement | opened⟩ := hangs
        · subst isStatement
          exact .inl live
        · exact .inr opened

/-- An object is made and published in one go. -/
theorem Works.spawn (works : turn.Works before []) {parent : Option Slot}
    (reserved : turn.bridge.reserve = some slot) (room : Room turn.bridge kind)
    (hangs : Hangs turn.bridge kind parent) :
    ((turn.create kind.native parent).publish (some slot) kind parent
      turn.bridge.world.next).Works before [] :=
  Works.settle (works.create hangs) (fun _ member => by cases member)
    (Bridge.reserve_reservable reserved) ⟨room.owned, room.instances, room.logicals, room.sessions⟩
    hangs

/-- A handle below one that is no instance is within the limits. -/
theorem Works.room (works : turn.Works before spare) {other : HandleKind}
    (live : (turn.bridge.handles home).kind = some other) (apart : other ≠ .instance_)
    (isInstance : kind ≠ .instance_) (isLogical : kind ≠ .logical)
    (session : kind.session = false) : Room turn.bridge kind where
  owned := works.limited.unowned live apart
  instances same := (isInstance same).elim
  logicals same := (isLogical same).elim
  sessions holds := by
    rw [session] at holds
    cases holds

/-- The edit of a handle keeps its links, and arms and closes nothing. -/
structure Calm (edit : Handle → Handle) : Prop where
  kind : ∀ handle, (edit handle).kind = handle.kind
  generation : ∀ handle, (edit handle).generation = handle.generation
  parent : ∀ handle, (edit handle).parent = handle.parent
  pointer : ∀ handle, (edit handle).pointer = handle.pointer
  watching : ∀ handle, (edit handle).watching = true → handle.watching = true
  retrying : ∀ handle, (edit handle).progressWatching = true → handle.progressWatching = true
  closing : ∀ handle, (edit handle).closing = true → handle.closing = true

/-- A command at work has kept the links of all handles. -/
structure Tends (before : Bridge) (first next : Turn) : Prop where
  works : next.Works before []
  links : Bridge.SameLinks first.bridge next.bridge
  owned : next.bridge.psqlOwned = first.bridge.psqlOwned

namespace Tends

variable {first next : Turn}

theorem refl (works : turn.Works before []) : Tends before turn turn :=
  ⟨works, .refl _, rfl⟩

theorem live (tends : Tends before first next)
    (found : (first.bridge.handles slot).kind = some kind) :
    (next.bridge.handles slot).kind = some kind := by
  rw [tends.links.kind, found]

theorem childless (tends : Tends before first next)
    (none : first.bridge.children slot = false) : next.bridge.children slot = false := by
  rw [tends.links.children, none]

/-- What is neither the bridge nor the calls changes. -/
theorem as {other : Turn} (tends : Tends before first next) (bridge : other.bridge = next.bridge)
    (calls : other.calls = next.calls) : Tends before first other := by
  obtain ⟨works, links, owned⟩ := tends
  refine ⟨?_, ?_, ?_⟩
  · rw [Turn.Works, bridge, calls]
    exact works
  · rw [bridge]
    exact links
  · rw [bridge]
    exact owned

theorem use (tends : Tends before first next)
    (found : (first.bridge.handles slot).kind = some kind) :
    Tends before first (next.use kind.native slot) :=
  ⟨tends.works.use (tends.live found), tends.links, tends.owned⟩

theorem change (tends : Tends before first next) {edit : Handle → Handle}
    (kind : (edit (next.bridge.handles slot)).kind = (next.bridge.handles slot).kind)
    (generation : (edit (next.bridge.handles slot)).generation =
      (next.bridge.handles slot).generation)
    (parent : (edit (next.bridge.handles slot)).parent = (next.bridge.handles slot).parent)
    (pointer : (edit (next.bridge.handles slot)).pointer = (next.bridge.handles slot).pointer)
    (watching : (edit (next.bridge.handles slot)).watching = true →
      ∃ kind, (next.bridge.handles slot).kind = some kind ∧ kind.watched = true)
    (retrying : (edit (next.bridge.handles slot)).progressWatching = true →
      (next.bridge.handles slot).kind.isSome)
    (closing : (edit (next.bridge.handles slot)).closing = true →
      (next.bridge.handles slot).closing = true ∨
      (next.bridge.handles slot).kind = some .statement ∨ next.bridge.children slot = false) :
    Tends before first (next.change slot edit) := by
  have links := Bridge.SameLinks.set kind generation parent pointer
  exact ⟨tends.works.change links watching retrying closing, tends.links.trans links, tends.owned⟩

theorem calm (tends : Tends before first next) {edit : Handle → Handle} (calm : Calm edit) :
    Tends before first (next.change slot edit) := by
  refine tends.change (calm.kind _) (calm.generation _) (calm.parent _) (calm.pointer _) ?_ ?_ ?_
  · intro watches
    exact tends.works.limited.watching (calm.watching _ watches)
  · intro retries
    exact tends.works.limited.retrying (calm.retrying _ retries)
  · intro closes
    exact .inl (calm.closing _ closes)

/-- A handle of a watched kind is armed or not. -/
theorem watch (tends : Tends before first next) (watching : Bool)
    (found : (first.bridge.handles slot).kind = some kind) (watched : kind.watched = true) :
    Tends before first (next.watch slot watching) := by
  refine tends.change rfl rfl rfl rfl (fun _ => ⟨kind, tends.live found, watched⟩) ?_ ?_
  · exact fun retries => tends.works.limited.retrying retries
  · exact fun closes => .inl closes

/-- A bounded step is to be tried again. -/
theorem progressAgain (tends : Tends before first next) (now : ℚ)
    (found : (first.bridge.handles slot).kind = some kind) :
    Tends before first (next.progressAgain slot now) := by
  have armed : Tends before first (next.change slot fun handle =>
      { handle with closeRetry := now + 1, progressWatching := true }) := by
    refine tends.change rfl rfl rfl rfl ?_ ?_ ?_
    · exact fun watches => tends.works.limited.watching watches
    · intro _
      rw [tends.live found]
      rfl
    · exact fun closes => .inl closes
  exact armed.as rfl rfl

/-- A handle without children, or a statement, begins to close; other flags only fall. -/
theorem close (tends : Tends before first next) {edit : Handle → Handle}
    (calm : Calm fun handle => { edit handle with closing := handle.closing })
    (may : (first.bridge.handles slot).kind = some .statement ∨
      first.bridge.children slot = false) :
    Tends before first (next.change slot edit) := by
  refine tends.change (calm.kind _) (calm.generation _) (calm.parent _) (calm.pointer _) ?_ ?_ ?_
  · intro watches
    exact tends.works.limited.watching (calm.watching _ watches)
  · intro retries
    exact tends.works.limited.retrying (calm.retrying _ retries)
  · intro _
    refine .inr ?_
    rw [tends.links.kind, tends.links.children]
    exact may

theorem watchBegin (tends : Tends before first next) (sequence : ℕ → ℕ)
    (found : (first.bridge.handles slot).kind = some kind)
    (kinds : kind = .request ∨ kind = .stream) :
    Tends before first (next.watchBegin slot sequence) := by
  unfold Turn.watchBegin
  extract_lets +onlyGivenNames calmed object
  have step : Tends before first calmed :=
    tends.calm (by constructor <;> simp)
  obtain ⟨target, isTarget, there⟩ := step.works.linked.sequence (step.live found) kinds
  have isObject : object = some target := isTarget
  rw [isObject]
  have used : Tends before first (calmed.useOn .request (some target)) :=
    ⟨step.works.call there, step.links, step.owned⟩
  exact used.calm (by constructor <;> simp)

/-- A handle without children is freed and retired. -/
theorem retire (tends : Tends before first next)
    (found : (first.bridge.handles slot).kind = some kind)
    (none : first.bridge.children slot = false) (owned : first.bridge.psqlOwned = false) :
    ((next.free kind.native slot).retire slot).Works before [] :=
  tends.works.retire (tends.live found) (tends.childless none) (tends.owned.trans owned)

end Tends

/-- `TELEMETRY`, `CONNECTION_STATUS` and `STATEMENT_INFO`. -/
theorem Works.inquire (works : turn.Works before []) (kind : HandleKind)
    (live : (turn.bridge.handles slot).kind = some kind) :
    (turn.inquire native kind.native slot).Works before [] := by
  unfold Turn.inquire
  split
  · exact works
  · exact works.use live

theorem Works.connect (works : turn.Works before [])
    (live : (turn.bridge.handles home).kind = some .instance_)
    (opened : (turn.bridge.handles home).closing = false)
    (owned : turn.bridge.psqlOwned = false) (reserved : turn.bridge.reserve = some slot) :
    (turn.connect native home (some slot)).Works before [] := by
  unfold Turn.connect
  extract_lets +onlyGivenNames sessions opening
  split
  · exact works
  rename_i free
  extract_lets +onlyGivenNames used
  have used_works : used.Works before [] := works.use live
  split
  · exact used_works
  split
  · exact used_works
  split
  rename_i name reader read
  extract_lets +onlyGivenNames parsed
  split
  · exact used_works
  extract_lets +onlyGivenNames again
  have asked := used_works.use live
  have again_works : again.Works before [] := asked
  split
  · exact again_works
  have room : Room again.bridge .connecting := by
    refine ⟨owned, fun wrong => (by cases wrong), fun wrong => (by cases wrong), fun _ => ?_⟩
    exact Nat.not_le.mp free
  have hangs : Hangs again.bridge .connecting (some home) :=
    ⟨.instance_, live, by simp [HandleKind.below], .inr opened⟩
  exact again_works.spawn reserved room hangs

theorem Works.close (works : turn.Works before [])
    (live : (turn.bridge.handles home).kind = some .instance_)
    (owned : turn.bridge.psqlOwned = false) : (turn.close native home).Works before [] := by
  unfold Turn.close
  split
  · exact works
  split
  · exact works
  rename_i busy
  have none : turn.bridge.children home = false := by simpa using busy
  extract_lets +onlyGivenNames used
  have used_works : used.Works before [] := works.use live
  split
  · exact used_works
  have retired : ((used.free (HandleKind.native .instance_) home).retire home).Works before [] :=
    used_works.retire live none owned
  exact retired.frame rfl rfl rfl fun owns => by
    have same : used.bridge.psqlOwned = true := owns
    have free : used.bridge.psqlOwned = false := owned
    rw [free] at same
    cases same

/-- With an instance that has no children, nothing else is live. -/
theorem Works.alone (works : turn.Works before [])
    (live : (turn.bridge.handles home).kind = some .instance_)
    (none : turn.bridge.children home = false) {other : Slot}
    (alive : (turn.bridge.handles other).kind.isSome) : other = home := by
  have linked := works.linked
  have unique {place : Slot} (isInstance : (turn.bridge.handles place).kind = some .instance_) :
      place = home := by
    by_contra different
    have one := works.limited.instances
    have two : 2 ≤ turn.bridge.count (· = .instance_) := by
      rw [Bridge.count, census_eq_card]
      refine Finset.one_lt_card.mpr ⟨place, ?_, home, ?_, different⟩ <;> simp [*]
    omega
  have lonely (place : Slot) (kind : HandleKind)
      (isInstance : HandleKind.below kind = [.instance_]) :
      (turn.bridge.handles place).kind ≠ some kind := by
    intro found
    obtain ⟨above, up, aliveAbove, -⟩ := linked.owner_single found isInstance
    obtain rfl := unique aliveAbove
    exact Bridge.childless none (by rw [found]; rfl) up
  have bare (place : Slot) : (turn.bridge.handles place).kind ≠ some .statement := by
    intro found
    obtain ⟨above, -, aliveAbove, -⟩ := linked.owner_single found rfl
    exact lonely above _ rfl aliveAbove
  have idle (place : Slot) : (turn.bridge.handles place).kind ≠ some .request := by
    intro found
    obtain ⟨above, kindAbove, -, aliveAbove, below, -⟩ := linked.owner found (by decide)
    simp only [HandleKind.below, List.mem_cons, List.not_mem_nil, or_false] at below
    rcases below with rfl | rfl
    · exact lonely above _ rfl aliveAbove
    · exact bare above aliveAbove
  obtain ⟨kind, found⟩ := Option.isSome_iff_exists.mp alive
  cases kind with
  | instance_ => exact unique found
  | connection => exact (lonely other _ rfl found).elim
  | connecting => exact (lonely other _ rfl found).elim
  | logical => exact (lonely other _ rfl found).elim
  | statement => exact (bare other found).elim
  | request => exact (idle other found).elim
  | stream =>
      obtain ⟨above, -, aliveAbove, -⟩ := linked.owner_single found rfl
      exact (idle above aliveAbove).elim

theorem Works.psqlStart (works : turn.Works before [])
    (live : (turn.bridge.handles home).kind = some .instance_) :
    (turn.psqlStart native home).Works before [] := by
  unfold Turn.psqlStart
  split
  · exact works
  split
  · exact works
  rename_i busy
  extract_lets +onlyGivenNames used
  have used_works : used.Works before [] := works.use live
  split
  · exact used_works
  refine used_works.frame rfl rfl rfl fun _ => ⟨home, live, fun other alive => ?_⟩
  refine works.alone live ?_ alive
  by_contra some
  exact busy (.inl (by simpa using some))

theorem Works.psqlRead (works : turn.Works before []) :
    (turn.psqlRead native).Works before [] := by
  unfold Turn.psqlRead
  split
  · exact works
  split
  · exact works
  · exact works

theorem Works.psqlWrite (works : turn.Works before []) :
    (turn.psqlWrite native).Works before [] := by
  unfold Turn.psqlWrite
  split
  extract_lets +onlyGivenNames parsed
  split
  · exact works
  split
  · exact works
  split
  · exact works
  · exact works

theorem Works.psqlClose (works : turn.Works before []) :
    (turn.psqlClose native).Works before [] := by
  unfold Turn.psqlClose
  split
  · exact works
  split
  · exact works.frame rfl rfl rfl fun owns => by cases owns
  · exact works
  · exact works

theorem Works.connectPoll (works : turn.Works before [])
    (live : (turn.bridge.handles slot).kind = some .connecting) :
    (turn.connectPoll native slot).Works before [] := by
  unfold Turn.connectPoll
  split
  · exact works
  extract_lets +onlyGivenNames calmed used
  have step : Tends before turn calmed :=
    (Tends.refl works).calm (by constructor <;> simp)
  have idle : (calmed.bridge.handles slot).progressWatching = false := by
    rw [show calmed.bridge.handles slot = _ from change_handles turn slot _]
  have tends : Tends before turn used := (step.use live).as rfl rfl
  have owned := works.limited.unowned live (by decide)
  split
  · have none : turn.bridge.children slot = false :=
      works.linked.leaf live fun child => by cases child <;> simp [HandleKind.below]
    exact tends.retire live none owned
  split
  · exact Works.establish tends.works (tends.live live) idle
  split
  · exact (tends.progressAgain native.clockRetry live).works
  · exact tends.works

theorem Works.statementClose (works : turn.Works before [])
    (live : (turn.bridge.handles home).kind = some .statement)
    (reserved : turn.bridge.reserve = some slot) :
    (turn.statementClose native home (some slot)).Works before [] := by
  unfold Turn.statementClose
  split
  · exact works
  split
  · exact works
  extract_lets +onlyGivenNames used
  have tends : Tends before turn used := (Tends.refl works).use live
  split
  · exact tends.works
  extract_lets +onlyGivenNames request made closed
  have calm : Calm fun handle : Handle =>
      { ({ handle with closing := true } : Handle) with closing := handle.closing } :=
    (by constructor <;> simp)
  split
  · rename_i asked
    have isMade : made = used.create .request (some home) := if_pos asked
    have hangs : Hangs used.bridge .request (some home) :=
      ⟨.statement, live, by simp [HandleKind.below], .inl rfl⟩
    have made_works : made.Works before
        [(used.bridge.world.next, entryOf used.bridge .request (some home))] := by
      rw [isMade]
      exact tends.works.create hangs
    have same : made.bridge.handles = used.bridge.handles := by
      rw [isMade]
      rfl
    have isStatement : (made.bridge.handles home).kind = some .statement := by
      rw [same]
      exact live
    have links : Bridge.SameLinks made.bridge closed.bridge := Bridge.SameLinks.set rfl rfl rfl rfl
    have closed_works : closed.Works before
        [(used.bridge.world.next, entryOf used.bridge .request (some home))] := by
      have edited : (made.change home fun handle => { handle with closing := true }).Works before
          [(used.bridge.world.next, entryOf used.bridge .request (some home))] := by
        refine made_works.change links ?_ ?_ fun _ => .inr (.inl isStatement)
        · exact fun watches => made_works.limited.watching watches
        · exact fun retries => made_works.limited.retrying retries
      exact edited
    have entry : entryOf closed.bridge .request (some home) =
        entryOf used.bridge .request (some home) := by
      simp only [entryOf, Option.map_some, links.pointer, same]
    have alive : (closed.bridge.handles home).kind = some .statement := by
      rw [links.kind, isStatement]
    have place : closed.bridge.reserve = some slot := by
      rw [links.reserve, Bridge.reserve, same]
      exact reserved
    rw [← entry] at closed_works
    exact closed_works.settle (fun _ member => by cases member)
      (Bridge.reserve_reservable place)
      (closed_works.room alive (by decide) (by decide) (by decide) rfl)
      ⟨.statement, alive, by simp [HandleKind.below], .inl rfl⟩
  · rename_i silent
    have isMade : made = used := if_neg silent
    have made_tends : Tends before turn made := by
      rw [isMade]
      exact tends
    exact (made_tends.close calm (.inl live)).works

/-- The object that owns a statement is its connection. -/
theorem Works.connectionOf (works : turn.Works before [])
    (live : (turn.bridge.handles slot).kind = some .statement) :
    ∃ object, turn.connectionOf slot = some object ∧
      turn.bridge.world.kindOf object = some .connection := by
  obtain ⟨above, -, alive, object⟩ := works.linked.owner_single live rfl
  refine ⟨_, ?_, works.linked.object alive⟩
  rw [Turn.connectionOf, object]
  rfl

theorem Works.statementFree (works : turn.Works before [])
    (live : (turn.bridge.handles slot).kind = some .statement) :
    (turn.statementFree native slot).Works before [] := by
  unfold Turn.statementFree
  split
  · exact works
  split
  · exact works
  rename_i busy
  have none : turn.bridge.children slot = false := by simpa using busy
  extract_lets +onlyGivenNames used looked
  have tends : Tends before turn used := (Tends.refl works).use live
  have looked_tends : Tends before turn looked := by
    unfold looked
    split
    · exact tends
    · obtain ⟨object, isObject, there⟩ := tends.works.connectionOf (tends.live live)
      rw [isObject]
      exact ⟨tends.works.call there, tends.links, tends.owned⟩
  split
  · exact looked_tends.works
  split
  · exact looked_tends.works
  · exact looked_tends.retire live none (works.limited.unowned live (by decide))

variable {op : Operation}

/-- `EXECUTE`, `STATEMENT_EXECUTE` and `SCRIPT`. -/
theorem Works.execute (works : turn.Works before [])
    (isKind : kind = if op = .statementExecute then HandleKind.statement else .connection)
    (live : (turn.bridge.handles home).kind = some kind)
    (opened : (turn.bridge.handles home).closing = false)
    (reserved : turn.bridge.reserve = some slot) :
    (turn.execute op native home (some slot)).Works before [] := by
  have class_ : (if op = .statementExecute then NativeClass.statement else .connection) =
      kind.native := by
    rw [isKind]
    split <;> rfl
  have below : kind ∈ HandleKind.request.below ∧ kind ≠ .instance_ := by
    rw [isKind]
    split <;> simp [HandleKind.below]
  unfold Turn.execute
  extract_lets +onlyGivenNames reader parsed
  split
  · exact works
  extract_lets +onlyGivenNames asked used
  have parsed_works : parsed.Works before [] := works
  have used_works : used.Works before [] := by
    unfold used
    rw [show asked = kind.native from class_]
    exact parsed_works.use live
  split
  · exact used_works
  have room : Room used.bridge .request :=
    used_works.room live below.2 (by decide) (by decide) rfl
  have hangs : Hangs used.bridge .request (some home) := ⟨kind, live, below.1, .inr opened⟩
  exact used_works.spawn reserved room hangs

theorem Works.prepare (works : turn.Works before [])
    (live : (turn.bridge.handles home).kind = some .connection)
    (opened : (turn.bridge.handles home).closing = false)
    (reserved : turn.bridge.reserve = some slot) :
    (turn.prepare native home (some slot)).Works before [] := by
  unfold Turn.prepare
  split
  · exact works
  rename_i enough
  split
  split
  extract_lets +onlyGivenNames counted skipped parsed
  split
  · exact works
  extract_lets +onlyGivenNames used
  have parsed_works : parsed.Works before [] := works
  have used_works : used.Works before [] := parsed_works.use live
  split
  · exact used_works
  extract_lets +onlyGivenNames statement made request both placed
  have hangs : Hangs used.bridge .statement (some home) :=
    ⟨.connection, live, by simp [HandleKind.below], .inr opened⟩
  have made_works : made.Works before
      [(statement, entryOf used.bridge .statement (some home))] :=
    used_works.create hangs
  have next : request = statement + 1 := rfl
  have both_works : both.Works before
      [(request, { kind := .request, owner := some statement }),
        (statement, entryOf used.bridge .statement (some home))] := by
    refine made_works.make { kind := .request, owner := some statement } ⟨rfl, ?_⟩
    refine ⟨.statement, ?_, trivial⟩
    exact World.kindOf_eq_some.mpr ⟨_, (made_works.linked.spared List.mem_cons_self).1, rfl⟩
  have swapped : both.Works before
      [(statement, entryOf used.bridge .statement (some home)),
        (request, { kind := .request, owner := some statement })] := by
    refine ⟨both_works.linked.perm fun item => ?_, both_works.limited, both_works.kept,
      both_works.world, both_works.later⟩
    simp only [List.mem_cons, List.not_mem_nil, or_false]
    exact or_comm
  have room : Room both.bridge .statement :=
    swapped.room live (by decide) (by decide) (by decide) rfl
  have place := Bridge.reserve_reservable reserved
  have placed_works : placed.Works before
      [(request, { kind := .request, owner := some statement })] := by
    refine swapped.settle ?_ place room hangs
    intro item member
    rw [List.mem_singleton] at member
    subst member
    exact Nat.succ_ne_self statement
  have own : placed.bridge.handles slot = _ :=
    publish_handles both slot .statement (some home) statement
  have alive : (placed.bridge.handles slot).kind = some .statement := by rw [own]
  have more : 0 < placed.bridge.freeSlots := by
    have rest : both.bridge.Elsewhere placed.bridge slot :=
      publish_elsewhere both slot .statement (some home) statement
    have moved := census_update Handle.reservable both.bridge.handles slot
      (placed.bridge.handles slot)
    rw [← rest.handles] at moved
    have taken : (placed.bridge.handles slot).reservable = false := by
      rw [Handle.reservable, alive]
      rfl
    have counted : 2 ≤ census Handle.reservable both.bridge.handles := Nat.not_lt.mp enough
    have was : (both.bridge.handles slot).reservable = true := place
    rw [taken, was] at moved
    have total : placed.bridge.freeSlots + 1 = census Handle.reservable both.bridge.handles + 0 :=
      moved
    omega
  obtain ⟨other, free⟩ := Bridge.exists_reservable more
  obtain ⟨last, isLast⟩ := Bridge.reservable_reserve free
  rw [isLast]
  have points : (placed.bridge.handles slot).pointer = statement := by rw [own]
  have entry : entryOf placed.bridge .request (some slot) =
      { kind := .request, owner := some statement } := by
    simp only [entryOf, Option.map_some, points, HandleKind.native]
  rw [← entry] at placed_works
  exact placed_works.settle (fun _ member => by cases member) (Bridge.reserve_reservable isLast)
    (placed_works.room alive (by decide) (by decide) (by decide) rfl)
    ⟨.statement, alive, by simp [HandleKind.below], .inl rfl⟩

theorem Works.disconnect (works : turn.Works before [])
    (live : (turn.bridge.handles slot).kind = some .connection) :
    (turn.disconnect native slot).Works before [] := by
  unfold Turn.disconnect
  split
  · exact works
  split
  · exact works
  rename_i busy
  have none : turn.bridge.children slot = false := by simpa using busy
  extract_lets +onlyGivenNames closing timed used
  have closing_tends : Tends before turn closing :=
    (Tends.refl works).close (by constructor <;> simp) (.inr none)
  have timed_tends : Tends before turn timed := by
    refine closing_tends.calm ⟨?_, ?_, ?_, ?_, ?_, ?_, ?_⟩
    all_goals
      intro handle
      split
    all_goals first | rfl | exact id
  have tends : Tends before turn used := (timed_tends.use live).as rfl rfl
  split
  · exact (Tends.progressAgain (tends.as rfl rfl) native.clockRetry live).works
  extract_lets +onlyGivenNames cleared
  have cleared_tends : Tends before turn cleared :=
    tends.calm (by constructor <;> simp)
  split
  · exact cleared_tends.retire live none (works.limited.unowned live (by decide))
  · exact cleared_tends.works

theorem useOn_handles (class_ : NativeClass) (object : Option ℕ) :
    (turn.useOn class_ object).bridge.handles = turn.bridge.handles := by
  rw [useOn_bridge]

theorem watchBegin_closing (sequence : ℕ → ℕ) :
    ((turn.watchBegin slot sequence).bridge.handles slot).closing =
      (turn.bridge.handles slot).closing := by
  simp only [Turn.watchBegin, change_handles, useOn_handles]

theorem watch_closing (watching : Bool) :
    ((turn.watch slot watching).bridge.handles slot).closing =
      (turn.bridge.handles slot).closing := by
  simp only [Turn.watch, change_handles]

theorem Works.next (works : turn.Works before [])
    (live : (turn.bridge.handles home).kind = some .request)
    (opened : (turn.bridge.handles home).closing = false) :
    (turn.next native home).Works before [] := by
  unfold Turn.next
  split
  · exact works
  extract_lets +onlyGivenNames begun status watched put
  have begun_tends : Tends before turn begun :=
    ((Tends.refl works).watchBegin native.sequence live (.inl rfl)).use live
  have answered_tends : Tends before turn (begun.answer status) := begun_tends.as rfl rfl
  have watched_tends : Tends before turn watched := answered_tends.watch _ live rfl
  have tends : Tends before turn put := watched_tends.as rfl rfl
  have still : (put.bridge.handles home).closing = false := by
    have same : (put.bridge.handles home).closing = (begun.bridge.handles home).closing :=
      watch_closing _
    have first : (begun.bridge.handles home).closing = (turn.bridge.handles home).closing :=
      watchBegin_closing _
    rw [same, first, opened]
  split
  · exact tends.works
  rename_i result _
  extract_lets +onlyGivenNames marked
  have same : marked.bridge = put.bridge ∧ marked.calls = put.calls := by
    unfold marked
    split
    · exact ⟨rfl, rfl⟩
    · exact ⟨rfl, rfl⟩
  have marked_tends : Tends before turn marked := tends.as same.1 same.2
  split
  · split
    · exact marked_tends.works
    rename_i place isPlace
    extract_lets +onlyGivenNames used
    have used_tends : Tends before turn used := marked_tends.use live
    split
    · exact used_tends.works
    have alive := used_tends.live live
    have bridge : used.bridge = put.bridge := same.1
    have room : Room used.bridge .stream :=
      used_tends.works.room alive (by decide) (by decide) (by decide) rfl
    have hangs : Hangs used.bridge .stream (some home) :=
      ⟨.request, alive, by simp [HandleKind.below], .inr (by rw [bridge, still])⟩
    exact used_tends.works.spawn isPlace room hangs
  · exact marked_tends.works

theorem setDeadline_calm (closing : Bool) (time : ℚ) : Calm (setDeadline closing time) := by
  cases closing <;> constructor <;> intro handle
  all_goals first | rfl | exact id

/-- `CANCEL`, `RELEASE`, `COPY_CLOSE` and `COPY_ABORT`. -/
theorem Works.lifecycle (works : turn.Works before []) (kind : HandleKind) (closing : Bool)
    (live : (turn.bridge.handles slot).kind = some kind) (apart : kind ≠ .instance_) :
    (turn.lifecycle native kind.native closing slot).Works before [] := by
  unfold Turn.lifecycle
  split
  · exact works
  split
  · exact works
  rename_i busy
  have none (closes : closing = true) : turn.bridge.children slot = false := by
    by_contra some
    exact busy ⟨closes, by simpa using some⟩
  extract_lets +onlyGivenNames closed calmed timed used expired
  have closed_tends : Tends before turn closed := by
    unfold closed
    split
    · rename_i closes
      exact (Tends.refl works).close (by constructor <;> simp) (.inr (none closes))
    · exact .refl works
  have calmed_tends : Tends before turn calmed :=
    closed_tends.calm (by constructor <;> simp)
  have timed_tends : Tends before turn timed := by
    have set := setDeadline_calm closing (native.clock + 10000)
    refine calmed_tends.calm ⟨?_, ?_, ?_, ?_, ?_, ?_, ?_⟩
    all_goals
      intro handle
      split
    · exact set.kind handle
    · rfl
    · exact set.generation handle
    · rfl
    · exact set.parent handle
    · rfl
    · exact set.pointer handle
    · rfl
    · exact set.watching handle
    · exact id
    · exact set.retrying handle
    · exact id
    · exact set.closing handle
    · exact id
  have used_tends : Tends before turn used := (timed_tends.use live).as rfl rfl
  have same : expired.bridge = used.bridge ∧ expired.calls = used.calls := by
    unfold expired
    split
    · exact ⟨rfl, rfl⟩
    · exact ⟨rfl, rfl⟩
  have tends : Tends before turn expired := used_tends.as same.1 same.2
  clear_value expired
  split
  · extract_lets +onlyGivenNames cleared
    have cleared_tends : Tends before turn cleared := tends.calm (setDeadline_calm closing 0)
    split
    · split
      · rename_i closes
        exact cleared_tends.retire live (none closes) (works.limited.unowned live apart)
      · exact cleared_tends.works
    · exact cleared_tends.works
  · exact (tends.progressAgain native.clockRetry live).works

/-- The native call of `COPY_READ`, `COPY_WRITE` and `COPY_FINISH`. -/
theorem Works.copyMove (works : turn.Works before [])
    (live : (turn.bridge.handles slot).kind = some .stream) :
    (turn.copyMove native slot).Works before [] := by
  unfold Turn.copyMove
  extract_lets +onlyGivenNames begun watched
  have begun_tends : Tends before turn begun :=
    (((Tends.refl works).watchBegin native.sequence live (.inr rfl)).use live).as rfl rfl
  exact (begun_tends.watch _ live rfl).works

theorem Works.copyRead (works : turn.Works before [])
    (live : (turn.bridge.handles slot).kind = some .stream) :
    (turn.copyRead native slot).Works before [] := by
  unfold Turn.copyRead
  split
  extract_lets +onlyGivenNames parsed
  have parsed_works : parsed.Works before [] := works
  split
  · exact works
  · exact parsed_works.copyMove live

theorem Works.copyWrite (works : turn.Works before [])
    (live : (turn.bridge.handles slot).kind = some .stream) :
    (turn.copyWrite native slot).Works before [] := by
  unfold Turn.copyWrite
  split
  extract_lets +onlyGivenNames parsed
  have parsed_works : parsed.Works before [] := works
  split
  · exact works
  · exact parsed_works.copyMove live

theorem Works.copyFinish (works : turn.Works before [])
    (live : (turn.bridge.handles slot).kind = some .stream) :
    (turn.copyFinish native slot).Works before [] := by
  unfold Turn.copyFinish
  split
  · exact works
  · exact works.copyMove live

theorem session_of_none (none : turn.bridge.count (· = .logical) = 0) :
    turn.bridge.count HandleKind.session =
      turn.bridge.count fun kind => kind = .connection ∨ kind = .connecting := by
  rw [Bridge.count, Bridge.count, census, census]
  refine Finset.sum_congr rfl fun slot _ => congrArg Bool.toNat ?_
  show (turn.bridge.handles slot).kind.any _ = (turn.bridge.handles slot).kind.any _
  cases found : (turn.bridge.handles slot).kind with
  | none => rfl
  | some kind =>
      have apart : kind ≠ .logical := by
        rintro rfl
        have counted : 0 < turn.bridge.count (· = .logical) := Bridge.count_pos found rfl
        exact counted.ne' none
      cases kind with
      | logical => exact (apart rfl).elim
      | instance_ => rfl
      | connection => rfl
      | connecting => rfl
      | statement => rfl
      | request => rfl
      | stream => rfl

/-- `LOGICAL_DUMP` and `LOGICAL_RESTORE`. -/
theorem Works.logicalStart (works : turn.Works before [])
    (live : (turn.bridge.handles home).kind = some .instance_)
    (opened : (turn.bridge.handles home).closing = false)
    (owned : turn.bridge.psqlOwned = false) (reserved : turn.bridge.reserve = some slot) :
    (turn.logicalStart native home (some slot)).Works before [] := by
  unfold Turn.logicalStart
  split
  split
  split
  extract_lets +onlyGivenNames parsed
  split
  · exact works
  split
  · exact works
  rename_i idle
  extract_lets +onlyGivenNames sessions opening used
  have parsed_works : parsed.Works before [] := works
  have used_works : used.Works before [] := parsed_works.use live
  split
  · exact used_works
  split
  · exact used_works
  rename_i room
  split
  · exact used_works
  extract_lets +onlyGivenNames again
  have asked := used_works.use live
  have again_works : again.Works before [] := asked
  split
  · exact again_works
  have none : turn.bridge.count (· = .logical) = 0 := Nat.eq_zero_of_not_pos idle
  have bound : ¬maxConnections ≤ sessions := fun full => room (.inl full)
  have same : again.bridge.count HandleKind.session = sessions := session_of_none none
  have room : Room again.bridge .logical :=
    ⟨owned, fun wrong => (by cases wrong), fun _ => none, fun _ => (by omega)⟩
  have hangs : Hangs again.bridge .logical (some home) :=
    ⟨.instance_, live, by simp [HandleKind.below], .inr opened⟩
  exact again_works.spawn reserved room hangs

theorem Works.logicalStep (works : turn.Works before [])
    (live : (turn.bridge.handles slot).kind = some .logical) :
    (turn.logicalStep native slot).Works before [] := by
  unfold Turn.logicalStep
  extract_lets +onlyGivenNames used
  have used_tends : Tends before turn used := (Tends.refl works).use live
  split
  split
  extract_lets +onlyGivenNames parsed size
  have parsed_tends : Tends before turn parsed := used_tends.as rfl rfl
  split
  · exact parsed_tends.works
  extract_lets +onlyGivenNames unwatched progressed
  have tends : Tends before turn progressed :=
    ((parsed_tends.watch false live rfl).use live).as rfl rfl
  split
  · exact tends.works
  extract_lets +onlyGivenNames put filled
  have filled_tends : Tends before turn filled := tends.as rfl rfl
  exact (filled_tends.watch _ live rfl).works

theorem Works.logicalClose (works : turn.Works before [])
    (live : (turn.bridge.handles slot).kind = some .logical) :
    (turn.logicalClose native slot).Works before [] := by
  have none : turn.bridge.children slot = false :=
    works.linked.leaf live fun child => by cases child <;> simp [HandleKind.below]
  unfold Turn.logicalClose
  extract_lets +onlyGivenNames used
  have used_tends : Tends before turn used := (Tends.refl works).use live
  split
  · exact used_tends.works
  extract_lets +onlyGivenNames calmed fresh closed
  have calmed_tends : Tends before turn calmed :=
    used_tends.calm (by constructor <;> simp)
  have tends : Tends before turn closed := by
    unfold closed
    split
    · have edited : Tends before turn (calmed.change slot fun handle =>
          { handle with closing := true, closeDeadline := native.clock + 30000 }) :=
        calmed_tends.close (by constructor <;> simp) (.inr none)
      exact edited.use live
    · exact calmed_tends
  clear_value closed
  split
  · exact tends.works
  split
  · exact tends.works
  split
  · split
    · exact tends.works
    · exact (tends.progressAgain native.clockRetry live).works
  · exact tends.retire live none (works.limited.unowned live (by decide))

/-! ## The commands without a handle -/

theorem openPath_error {arguments : OpenArguments} {after : Turn}
    (refused : openPath op native arguments turn = .error after) :
    after.bridge = turn.bridge ∧ after.calls = turn.calls := by
  unfold Turn.openPath at refused
  split at refused
  · cases refused
  split at refused
  · cases refused
    exact ⟨rfl, rfl⟩
  split at refused
  · cases refused
  split at refused
  · cases refused
  · cases refused
    exact ⟨rfl, rfl⟩
  · cases refused
    exact ⟨rfl, rfl⟩

/-- `pgm_instance_open` and what follows it. -/
theorem Works.openInstance (works : turn.Works before []) {path : Bytes}
    (none : turn.bridge.count (· = .instance_) = 0) (reserved : turn.bridge.reserve = some slot) :
    (turn.openInstance op native path (some slot)).Works before [] := by
  unfold Turn.openInstance
  split
  · exact works
  extract_lets +onlyGivenNames opened made
  have owned := works.limited.unowned_of_count none
  have hangs : Hangs turn.bridge .instance_ .none := rfl
  have made_works : made.Works before [(opened, entryOf turn.bridge .instance_ .none)] :=
    works.create hangs
  split
  · obtain ⟨accepted, linked⟩ := made_works.linked.discard
      (made.call (.free .instance_ opened)).bridge rfl rfl
    have kept := made_works.append accepted rfl
    exact ⟨linked, made_works.limited.world _, kept.1, kept.2,
      made_works.later.trans ⟨fun _ => le_rfl, fun _ _ alive => alive, List.prefix_refl _⟩⟩
  extract_lets +onlyGivenNames restoring former archive
  have free : made.bridge.psqlOwned = false := owned
  have framed_works : Turn.Works before { made with bridge := { made.bridge with archive } }
      [(opened, entryOf turn.bridge .instance_ .none)] := by
    refine Bridge.Works.frame made_works rfl rfl rfl fun owns => ?_
    have same : made.bridge.psqlOwned = true := owns
    rw [free] at same
    cases same
  have room : Room { made.bridge with archive } .instance_ :=
    ⟨owned, fun _ => none, fun wrong => (by cases wrong), fun wrong => (by cases wrong)⟩
  exact framed_works.settle (fun _ member => (by cases member))
    (Bridge.reserve_reservable reserved) room hangs

/-- `OPEN`, `RESTORE_OPEN` and `RESTORE_FINISH`. -/
theorem Works.opening (works : turn.Works before []) {place : Option Slot}
    (reserved : op ≠ .restoreOpen → ∃ slot, place = some slot ∧ turn.bridge.reserve = some slot) :
    (turn.opening op native place).Works before [] := by
  unfold Turn.opening
  split
  extract_lets +onlyGivenNames parsed
  have parsed_works : parsed.Works before [] := works
  split
  · exact works
  rename_i idle
  have none : turn.bridge.count (· = .instance_) = 0 := Nat.eq_zero_of_not_pos idle
  split
  · exact works
  split
  · exact works
  split
  · rename_i after refused
    obtain ⟨bridge, calls⟩ := openPath_error refused
    rw [Turn.Works, bridge, calls]
    exact works
  rename_i path _
  split
  · exact works
  split
  · unfold Turn.restoreOpen
    split
    · exact works
    split
    · exact works
    split
    · exact works
    exact works.frame rfl rfl rfl works.limited.exclusive
  rename_i restoring
  obtain ⟨slot, rfl, isSlot⟩ := reserved restoring
  split
  · exact works
  split
  · exact works
  · exact parsed_works.openInstance none isSlot

/-- The connections that are not closing are live. -/
theorem mem_openConnections {bridge : Bridge} (member : slot ∈ openConnections bridge) :
    (bridge.handles slot).kind = some .connection := by
  simp only [openConnections, List.mem_filter, Bool.and_eq_true, decide_eq_true_eq] at member
  exact member.2.1

theorem eventSource_live {bridge : Bridge} (found : bridge.eventSource = some slot) :
    (bridge.handles slot).kind = some .instance_ := by
  rw [Bridge.eventSource] at found
  simpa using List.find?_some found

theorem Works.identify (works : turn.Works before []) : turn.identify.Works before [] := by
  have walk (slots : List Slot) {turn : Turn} (works : turn.Works before [])
      (live : ∀ slot ∈ slots, (turn.bridge.handles slot).kind = some .connection) :
      (slots.foldl (fun turn slot => turn.use .connection slot) turn).Works before [] := by
    induction slots generalizing turn with
    | nil => exact works
    | cons slot rest induction =>
        have used : (turn.use .connection slot).Works before [] :=
          works.use (live slot List.mem_cons_self)
        exact induction used fun other member => live other (List.mem_cons_of_mem _ member)
  exact walk _ works fun slot member => mem_openConnections member

theorem Works.events (works : turn.Works before []) : (turn.events native).Works before [] := by
  unfold Turn.events
  split
  · exact works
  extract_lets +onlyGivenNames asked
  have asked_works : asked.Works before [] := by
    unfold asked
    split
    · exact works
    · rename_i slot found
      exact Works.identify (works.use (eventSource_live found))
  clear_value asked
  split
  exact asked_works.frame rfl rfl rfl asked_works.limited.exclusive

/-- `ARCHIVE_READ` and `ARCHIVE_WRITE`. -/
theorem Works.archive (works : turn.Works before []) :
    (turn.archive op native).Works before [] := by
  unfold Turn.archive
  split
  · exact works
  split
  · split
    · exact works
    split
    · exact works.frame rfl rfl rfl works.limited.exclusive
    · exact works.frame rfl rfl rfl works.limited.exclusive
  split
  · exact works.frame rfl rfl rfl works.limited.exclusive
  · exact works.frame rfl rfl rfl works.limited.exclusive

theorem Works.stopDriver (works : turn.Works before []) :
    (turn.stopDriver native).Works before [] := by
  unfold Turn.stopDriver
  split
  · exact works
  split
  · exact works
  extract_lets +onlyGivenNames former archive reset
  have reset_works : reset.Works before [] :=
    works.frame rfl rfl rfl works.limited.exclusive
  split
  · exact reset_works
  · exact reset_works

/-! ## A command -/

theorem carrierCheck_bridge (op : Operation) :
    (turn.carrierCheck op native slot).bridge = turn.bridge := by
  unfold Turn.carrierCheck
  extract_lets +onlyGivenNames opening connection used instance_ asked session
  have used_bridge : used.bridge = turn.bridge := by
    unfold used
    split <;> rfl
  have asked_bridge : asked.bridge = turn.bridge := by
    simp only [asked, useOn_bridge, used_bridge]
  have session_bridge : session.bridge = turn.bridge := by
    simp only [session, useOn_bridge, asked_bridge]
  clear_value asked session
  split
  · rfl
  split
  · exact asked_bridge
  split
  · exact session_bridge
  split
  · exact session_bridge
  · exact session_bridge

/-- The connection that a command starts a request on, and the instance of it. -/
theorem Works.carrier (works : turn.Works before [])
    (live : (turn.bridge.handles slot).kind =
      some (if op = .statementExecute then .statement else .connection)) :
    ∃ object owner, (if op = .statementExecute then turn.connectionOf slot
        else some (turn.bridge.handles slot).pointer) = some object ∧
      turn.bridge.world.objects object = some ⟨.connection, some owner⟩ ∧
      turn.bridge.world.kindOf owner = some .instance_ := by
  have above {place : Slot} (isConnection : (turn.bridge.handles place).kind = some .connection) :
      ∃ owner, turn.bridge.world.objects (turn.bridge.handles place).pointer =
          some ⟨.connection, some owner⟩ ∧
        turn.bridge.world.kindOf owner = some .instance_ := by
    obtain ⟨root, -, alive, object⟩ := works.linked.owner_single isConnection rfl
    exact ⟨_, object, works.linked.object alive⟩
  by_cases isExecute : op = .statementExecute
  · rw [if_pos isExecute] at live
    obtain ⟨root, -, alive, object⟩ := works.linked.owner_single live rfl
    obtain ⟨owner, isOwner⟩ := above alive
    refine ⟨_, owner, ?_, isOwner⟩
    rw [if_pos isExecute, Turn.connectionOf, object]
    rfl
  · rw [if_neg isExecute] at live
    obtain ⟨owner, isOwner⟩ := above live
    exact ⟨_, owner, if_neg isExecute, isOwner⟩

theorem Works.carrierCheck (works : turn.Works before [])
    (live : op.executes = true → (turn.bridge.handles slot).kind =
      some (if op = .statementExecute then .statement else .connection)) :
    (turn.carrierCheck op native slot).Works before [] := by
  unfold Turn.carrierCheck
  extract_lets +onlyGivenNames opening connection used instance_ asked session
  split
  · exact works
  rename_i checks
  have executes : op.executes = true := by
    by_contra idle
    exact checks (.inl (by simpa using idle))
  have found := live executes
  have used_works : used.Works before [] ∧ used.bridge = turn.bridge := by
    unfold used
    split
    · rename_i isExecute
      rw [if_pos isExecute] at found
      exact ⟨works.use found, rfl⟩
    · exact ⟨works, rfl⟩
  obtain ⟨object, owner, isObject, isEntry, home⟩ := works.carrier found
  have known : turn.bridge.world.kindOf object = some .connection :=
    World.kindOf_eq_some.mpr ⟨_, isEntry, rfl⟩
  have isObject : connection = some object := isObject
  have isInstance : instance_ = some owner := by
    have world : used.bridge.world = turn.bridge.world := by rw [used_works.2]
    simp only [instance_, isObject, world, Option.bind_some, isEntry]
  have first_works : (used.useOn .connection connection).Works before [] := by
    rw [isObject]
    exact used_works.1.call (by rw [used_works.2]; exact known)
  have asked_works : asked.Works before [] := by
    unfold asked
    rw [isInstance]
    refine first_works.call ?_
    rw [useOn_bridge, used_works.2]
    exact home
  have asked_bridge : asked.bridge = turn.bridge := by
    simp only [asked, useOn_bridge, used_works.2]
  have session_works : session.Works before [] := by
    unfold session
    rw [isObject]
    exact asked_works.call (by rw [asked_bridge]; exact known)
  clear_value asked session
  split
  · exact asked_works
  split
  · exact session_works
  split
  · exact session_works
  · exact session_works

/-- The switch over the commands that name a handle. -/
theorem Works.serve (works : turn.Works before []) {place : Option Slot}
    (target : op.target = some kind) (live : (turn.bridge.handles home).kind = some kind)
    (opened : op.retires = false → (turn.bridge.handles home).closing = false)
    (owned : op.needsInstance = true → turn.bridge.psqlOwned = false)
    (reserved : op.reserves = true → ∃ slot, place = some slot ∧
      turn.bridge.reserve = some slot) :
    (turn.serve op native home place).Works before [] := by
  cases op <;> cases target <;> simp only [Turn.serve]
  case connect =>
      obtain ⟨slot, rfl, isSlot⟩ := reserved rfl
      exact works.connect live (opened rfl) (owned rfl) isSlot
  case execute =>
      obtain ⟨slot, rfl, isSlot⟩ := reserved rfl
      exact works.execute rfl live (opened rfl) isSlot
  case script =>
      obtain ⟨slot, rfl, isSlot⟩ := reserved rfl
      exact works.execute rfl live (opened rfl) isSlot
  case statementExecute =>
      obtain ⟨slot, rfl, isSlot⟩ := reserved rfl
      exact works.execute rfl live (opened rfl) isSlot
  case prepare =>
      obtain ⟨slot, rfl, isSlot⟩ := reserved rfl
      exact works.prepare live (opened rfl) isSlot
  case statementClose =>
      obtain ⟨slot, rfl, isSlot⟩ := reserved rfl
      exact works.statementClose live isSlot
  case logicalDump =>
      obtain ⟨slot, rfl, isSlot⟩ := reserved rfl
      exact works.logicalStart live (opened rfl) (owned rfl) isSlot
  case logicalRestore =>
      obtain ⟨slot, rfl, isSlot⟩ := reserved rfl
      exact works.logicalStart live (opened rfl) (owned rfl) isSlot
  case next => exact works.next live (opened rfl)
  case release => exact works.lifecycle .request true live (by decide)
  case cancel => exact works.lifecycle .request false live (by decide)
  case copyClose => exact works.lifecycle .stream true live (by decide)
  case copyAbort => exact works.lifecycle .stream false live (by decide)
  case disconnect => exact works.disconnect live
  case close => exact works.close live (owned rfl)
  case connectionStatus => exact works.inquire .connection live
  case telemetry => exact works.inquire .instance_ live
  case statementInfo => exact works.inquire .statement live
  case copyRead => exact works.copyRead live
  case copyWrite => exact works.copyWrite live
  case copyFinish => exact works.copyFinish live
  case connectPoll => exact works.connectPoll live
  case statementFree => exact works.statementFree live
  case logicalStep => exact works.logicalStep live
  case logicalClose => exact works.logicalClose live
  case psqlStart => exact works.psqlStart live
  case psqlRead => exact works.psqlRead
  case psqlWrite => exact works.psqlWrite
  case psqlClose => exact works.psqlClose
  case psqlInterrupt =>
      split
      · exact works
      · exact works
  case unknown => exact works

/-- The switch over the commands that name none. -/
theorem Works.serveBare (works : turn.Works before []) {place : Option Slot}
    (reserved : op.reserves = true → ∃ slot, place = some slot ∧
      turn.bridge.reserve = some slot) :
    (turn.serveBare op native place).Works before [] := by
  cases op <;> simp only [Turn.serveBare]
  case open_ => exact works.opening fun _ => reserved rfl
  case restoreFinish => exact works.opening fun _ => reserved rfl
  case restoreOpen => exact works.opening fun wrong => (wrong rfl).elim
  case events => exact works.events
  case archiveRead => exact works.archive
  case archiveWrite => exact works.archive
  case stop => exact works.stopDriver
  all_goals exact works

/-- The checks in front of the switch. -/
theorem Works.guarded (works : turn.Works before []) {place : Option Slot}
    (target : op.target = some kind) (live : (turn.bridge.handles home).kind = some kind)
    (reserved : op.reserves = true → ∃ slot, place = some slot ∧
      turn.bridge.reserve = some slot) :
    (turn.guarded op native home place).Works before [] := by
  unfold Turn.guarded
  split
  · exact works
  rename_i terminal
  split
  · exact works
  rename_i closes
  extract_lets +onlyGivenNames checked
  have bridge : checked.bridge = turn.bridge := carrierCheck_bridge op
  have checked_works : checked.Works before [] := by
    refine works.carrierCheck fun executes => ?_
    rw [live]
    cases op <;> cases executes <;> cases target <;> rfl
  split
  · exact checked_works
  refine checked_works.serve target ?_ ?_ ?_ ?_
  · rw [bridge, live]
  · intro stays
    rw [bridge]
    by_contra closing
    exact closes ⟨by simpa using closing, stays⟩
  · intro needs
    rw [bridge]
    by_contra owns
    exact terminal ⟨by simpa using owns, needs⟩
  · rw [bridge]
    exact reserved

theorem lookup_live {bridge : Bridge} {reader rest : BridgeReader}
    (found : lookup bridge kind reader = (some slot, rest)) :
    (bridge.handles slot).kind = some kind ∧
      (bridge.handles slot).generation = reader.get.2.get.1 := by
  unfold lookup at found
  dsimp only at found
  split at found
  · cases found
  split at found
  · cases found
  rename_i same
  push Not at same
  cases found
  exact same

/-- **A command keeps the contract**, whatever its bytes and whatever the native side answers. -/
theorem command_works (native : Native) (input : Bytes) {bridge : Bridge}
    (works : Bridge.Works bridge bridge [] []) :
    (Turn.command native input bridge).Works bridge [] := by
  unfold Turn.command
  split
  split
  split
  extract_lets +onlyGivenNames checked op
  split
  rename_i handle rest found
  extract_lets +onlyGivenNames slot turn
  have rests : turn.Works bridge [] := works
  split
  · exact rests
  rename_i going
  have reserved : op.reserves = true → ∃ place, slot = some place ∧
      turn.bridge.reserve = some place := by
    intro reserves
    have isSlot : slot = bridge.reserve := if_pos reserves
    cases taken : bridge.reserve with
    | none =>
        rw [taken] at isSlot
        refine (going (.inr ?_)).elim
        show (if op.reserves = true ∧ slot = none then statusBusy else statusOk) ≠ statusOk
        rw [if_pos ⟨reserves, isSlot⟩]
        decide
    | some place => exact ⟨place, by rw [isSlot, taken], rfl⟩
  split
  · exact rests.serveBare reserved
  · rename_i home
    cases target : op.target with
    | none =>
        rw [target] at found
        cases found
    | some kind =>
        rw [target] at found
        exact rests.guarded target (lookup_live found).1 reserved

end Turn

end Wasm
end Postgamma
