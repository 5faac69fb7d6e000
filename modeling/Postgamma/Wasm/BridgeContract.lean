import Mathlib
import Postgamma.Wasm.BridgeHandles

/-!
# The bridge keeps the contract of the native library

Whatever bytes the client sends and whatever the native library answers, the live handles and the
native objects correspond, a handle hangs below a live handle of the right kind, and every native
call takes an object that is there.
-/

namespace Postgamma
namespace Wasm

open Text (Bytes)
open Ownership (World Object)

def mayOwn : NativeClass → Option NativeClass → Prop
  | .instance_, none => True
  | .connection, some .instance_ => True
  | .operation, some .instance_ => True
  | .statement, some .connection => True
  | .request, some .connection => True
  | .request, some .statement => True
  | .copy, some .request => True
  | _, _ => False

def HandleKind.below : HandleKind → List HandleKind
  | instance_ => []
  | connecting | connection | logical => [instance_]
  | statement => [connection]
  | request => [connection, statement]
  | stream => [request]

theorem mayOwn_below {kind above : HandleKind} (below : above ∈ kind.below) :
    mayOwn kind.native (some above.native) := by
  cases kind <;> cases above <;> simp_all [HandleKind.below, mayOwn, HandleKind.native]

def HandleKind.watched : HandleKind → Bool
  | request | stream | logical => true
  | _ => false

def HandleKind.session (kind : HandleKind) : Bool :=
  kind = connection ∨ kind = connecting ∨ kind = logical

namespace Bridge

/-- A live handle of a kind has its object and its parent. -/
def Placed (bridge : Bridge) (slot : Slot) (kind : HandleKind) : Prop :=
  (kind = .instance_ ∧ (bridge.handles slot).parent = 0 ∧
    bridge.world.objects (bridge.handles slot).pointer = some ⟨.instance_, none⟩) ∨
  ∃ above kindAbove, (bridge.handles slot).parent = above.val + 1 ∧
    (bridge.handles above).kind = some kindAbove ∧ kindAbove ∈ kind.below ∧
    bridge.world.objects (bridge.handles slot).pointer =
      some ⟨kind.native, some (bridge.handles above).pointer⟩

/-- The handles and the native objects correspond, but for objects that no handle has got yet. -/
structure Linked (bridge : Bridge) (spare : List (ℕ × Object NativeClass)) : Prop where
  rooted : bridge.world.Rooted
  placed : ∀ {slot : Slot} {kind : HandleKind}, (bridge.handles slot).kind = some kind →
    bridge.Placed slot kind
  distinct : ∀ {slot other : Slot}, (bridge.handles slot).kind.isSome →
    (bridge.handles other).kind.isSome →
    (bridge.handles slot).pointer = (bridge.handles other).pointer → slot = other
  covered : ∀ {object : ℕ} {entry : Object NativeClass},
    bridge.world.objects object = some entry → (object, entry) ∈ spare ∨
      ∃ slot, (bridge.handles slot).kind.isSome ∧ (bridge.handles slot).pointer = object
  spared : ∀ {object : ℕ} {entry : Object NativeClass}, (object, entry) ∈ spare →
    bridge.world.objects object = some entry ∧
      ∀ slot, (bridge.handles slot).kind.isSome → (bridge.handles slot).pointer ≠ object

/-- The limits that the driver keeps. -/
structure Limited (bridge : Bridge) : Prop where
  bounded : ∀ slot, (bridge.handles slot).generation ≤ lastGeneration
  watching : ∀ {slot : Slot}, (bridge.handles slot).watching = true →
    ∃ kind, (bridge.handles slot).kind = some kind ∧ kind.watched = true
  retrying : ∀ {slot : Slot}, (bridge.handles slot).progressWatching = true →
    (bridge.handles slot).kind.isSome
  closing : ∀ {slot other : Slot}, (bridge.handles slot).kind.isSome →
    (bridge.handles slot).kind ≠ some .statement → (bridge.handles slot).closing = true →
    (bridge.handles other).kind.isSome → (bridge.handles other).parent ≠ slot.val + 1
  instances : bridge.count (· = .instance_) ≤ 1
  logicals : bridge.count (· = .logical) ≤ 1
  sessions : bridge.count HandleKind.session ≤ maxConnections
  exclusive : bridge.psqlOwned = true → ∃ home, (bridge.handles home).kind = some .instance_ ∧
    ∀ other, (bridge.handles other).kind.isSome → other = home
  issued : bridge.issued.Nodup ∧ ∀ slot generation, (slot, generation) ∈ bridge.issued ↔
    0 < generation ∧ generation ≤ (bridge.handles slot).generation
  fresh : ∀ {slot : Slot}, (bridge.handles slot).kind.isSome → 0 < (bridge.handles slot).generation

/-- The same handles, but for their flags and deadlines. -/
structure SameLinks (before after : Bridge) : Prop where
  kind : ∀ slot, (after.handles slot).kind = (before.handles slot).kind
  generation : ∀ slot, (after.handles slot).generation = (before.handles slot).generation
  parent : ∀ slot, (after.handles slot).parent = (before.handles slot).parent
  pointer : ∀ slot, (after.handles slot).pointer = (before.handles slot).pointer

variable {bridge after : Bridge} {spare : List (ℕ × Object NativeClass)} {slot : Slot}
  {kind : HandleKind}

@[simp] theorem set_self (handle : Handle) : (bridge.set slot handle).handles slot = handle :=
  Function.update_self ..

@[simp] theorem set_other (handle : Handle) {other : Slot} (different : other ≠ slot) :
    (bridge.set slot handle).handles other = bridge.handles other :=
  Function.update_of_ne different ..

theorem children_eq_true : bridge.children slot = true ↔
    ∃ other, (bridge.handles other).kind.isSome ∧
      (bridge.handles other).parent = slot.val + 1 := by
  simp [children]

theorem childless (none : bridge.children slot = false) {other : Slot}
    (live : (bridge.handles other).kind.isSome) : (bridge.handles other).parent ≠ slot.val + 1 := by
  intro below
  have found := children_eq_true.mpr ⟨other, live, below⟩
  rw [none] at found
  cases found

namespace SameLinks

theorem refl (bridge : Bridge) : SameLinks bridge bridge :=
  ⟨fun _ => rfl, fun _ => rfl, fun _ => rfl, fun _ => rfl⟩

theorem trans {third : Bridge} (first : SameLinks bridge after) (second : SameLinks after third) :
    SameLinks bridge third where
  kind slot := (second.kind slot).trans (first.kind slot)
  generation slot := (second.generation slot).trans (first.generation slot)
  parent slot := (second.parent slot).trans (first.parent slot)
  pointer slot := (second.pointer slot).trans (first.pointer slot)

/-- A handle keeps its links when only its flags and deadlines change. -/
theorem set {handle : Handle} (kind : handle.kind = (bridge.handles slot).kind)
    (generation : handle.generation = (bridge.handles slot).generation)
    (parent : handle.parent = (bridge.handles slot).parent)
    (pointer : handle.pointer = (bridge.handles slot).pointer) :
    SameLinks bridge (bridge.set slot handle) := by
  constructor <;> intro other <;> by_cases same : other = slot
  all_goals first
    | (subst same; rw [set_self]; assumption)
    | rw [set_other _ same]

theorem children (same : SameLinks bridge after) (slot : Slot) :
    after.children slot = bridge.children slot := by
  simp only [Bridge.children, same.kind, same.parent]

theorem count (same : SameLinks bridge after) (test : HandleKind → Bool) :
    after.count test = bridge.count test := by
  simp only [Bridge.count, census, same.kind]

theorem reserve (same : SameLinks bridge after) : after.reserve = bridge.reserve := by
  simp only [Bridge.reserve, Handle.reservable, same.kind, same.generation]

theorem linked (same : SameLinks bridge after) (world : after.world = bridge.world)
    (linked : bridge.Linked spare) : after.Linked spare := by
  constructor
  · rw [world]
    exact linked.rooted
  · intro slot kind live
    rw [same.kind] at live
    rw [Placed, same.parent, same.pointer, world]
    rcases linked.placed live with home | ⟨above, kindAbove, parent, alive, below, object⟩
    · exact .inl home
    · refine .inr ⟨above, kindAbove, parent, ?_, below, ?_⟩
      · rw [same.kind, alive]
      · rw [same.pointer, object]
  · intro slot other live alive
    rw [same.pointer, same.pointer]
    rw [same.kind] at live alive
    exact linked.distinct live alive
  · intro object entry there
    rw [world] at there
    rcases linked.covered there with member | ⟨slot, live, pointer⟩
    · exact .inl member
    · refine .inr ⟨slot, ?_, ?_⟩
      · rwa [same.kind]
      · rwa [same.pointer]
  · intro object entry member
    rw [world]
    obtain ⟨there, apart⟩ := linked.spared member
    refine ⟨there, fun slot live => ?_⟩
    rw [same.kind] at live
    rw [same.pointer]
    exact apart slot live

end SameLinks

/-- The object of a live handle is there. -/
theorem Linked.object (linked : bridge.Linked spare)
    (live : (bridge.handles slot).kind = some kind) :
    bridge.world.kindOf (bridge.handles slot).pointer = some kind.native := by
  rw [World.kindOf_eq_some]
  rcases linked.placed live with ⟨rfl, -, object⟩ | ⟨above, kindAbove, -, -, -, object⟩
  · exact ⟨_, object, rfl⟩
  · exact ⟨_, object, rfl⟩

/-- The object of a handle without children owns nothing. -/
theorem Linked.freeable (linked : bridge.Linked [])
    (live : (bridge.handles slot).kind = some kind) (none : bridge.children slot = false) :
    World.Accepts mayOwn bridge.world (.free kind.native (bridge.handles slot).pointer) := by
  refine ⟨linked.object live, fun object entry there owned => ?_⟩
  rcases linked.covered there with member | ⟨other, alive, rfl⟩
  · cases member
  obtain ⟨kindOther, found⟩ := Option.isSome_iff_exists.mp alive
  rcases linked.placed found with ⟨-, -, home⟩ | ⟨above, kindAbove, parent, liveAbove, -, home⟩
  · rw [there] at home
    cases home
    cases owned
  · rw [there] at home
    cases home
    have same : above = slot := linked.distinct (by rw [liveAbove]; rfl) (by rw [live]; rfl)
      (Option.some.inj owned)
    subst same
    exact childless none alive parent

/-- An object is made and waits for its handle. -/
theorem Linked.create (linked : bridge.Linked spare) {entry : Object NativeClass}
    (accepted : World.Accepts mayOwn bridge.world
      (.create entry.kind entry.owner bridge.world.next))
    (handles : after.handles = bridge.handles)
    (world : after.world =
      bridge.world.after (.create entry.kind entry.owner bridge.world.next)) :
    after.Linked ((bridge.world.next, entry) :: spare) := by
  have keeps {object : ℕ} {old : Object NativeClass}
      (there : bridge.world.objects object = some old) : after.world.objects object = some old := by
    rw [world, World.create_other _ _ (Nat.ne_of_lt (linked.rooted.made there)), there]
  have older {slot : Slot} (live : (bridge.handles slot).kind.isSome) :
      (bridge.handles slot).pointer ≠ bridge.world.next := by
    obtain ⟨kind, found⟩ := Option.isSome_iff_exists.mp live
    obtain ⟨old, there, -⟩ := World.kindOf_eq_some.mp (linked.object found)
    exact Nat.ne_of_lt (linked.rooted.made there)
  constructor
  · rw [world]
    exact linked.rooted.after accepted
  · intro slot kind live
    rw [handles] at live
    rw [Placed, handles]
    rcases linked.placed live with ⟨isHome, parent, object⟩ |
      ⟨above, kindAbove, parent, alive, below, object⟩
    · exact .inl ⟨isHome, parent, keeps object⟩
    · exact .inr ⟨above, kindAbove, parent, alive, below, keeps object⟩
  · rw [handles]
    exact linked.distinct
  · intro object old there
    by_cases same : object = bridge.world.next
    · subst same
      rw [world, World.create_self] at there
      cases there
      exact .inl List.mem_cons_self
    · rw [world, World.create_other _ _ same] at there
      rw [handles]
      rcases linked.covered there with member | found
      · exact .inl (List.mem_cons_of_mem _ member)
      · exact .inr found
  · intro object old member
    rw [handles]
    rcases List.mem_cons.mp member with same | member
    · cases same
      refine ⟨?_, fun slot live => older live⟩
      rw [world, World.create_self]
    · obtain ⟨there, apart⟩ := linked.spared member
      exact ⟨keeps there, apart⟩

/-- The handles of all slots but one are the same. -/
def Elsewhere (bridge after : Bridge) (slot : Slot) : Prop :=
  ∀ other ≠ slot, after.handles other = bridge.handles other

theorem elsewhere_set (handle : Handle) : bridge.Elsewhere (bridge.set slot handle) slot :=
  fun _ different => set_other handle different

theorem Elsewhere.handles (rest : bridge.Elsewhere after slot) :
    after.handles = Function.update bridge.handles slot (after.handles slot) := by
  funext other
  by_cases same : other = slot
  · subst same
    rw [Function.update_self]
  · rw [Function.update_of_ne same, rest other same]

theorem Elsewhere.count (rest : bridge.Elsewhere after slot) (test : HandleKind → Bool) :
    after.count test + ((bridge.handles slot).kind.any test).toNat =
      bridge.count test + ((after.handles slot).kind.any test).toNat := by
  have moved := census_update (fun handle => handle.kind.any test) bridge.handles slot
    (after.handles slot)
  rw [← rest.handles] at moved
  exact moved

/-- Where a handle of a kind may hang, and the object that it then has. -/
def Fits (bridge : Bridge) (kind : HandleKind) (entry : Object NativeClass) :
    Option Slot → Prop
  | none => kind = .instance_ ∧ entry = ⟨.instance_, none⟩
  | some above => ∃ kindAbove, (bridge.handles above).kind = some kindAbove ∧
      kindAbove ∈ kind.below ∧ entry = ⟨kind.native, some (bridge.handles above).pointer⟩

/-- A waiting object gets its handle. -/
theorem Linked.publish {object : ℕ} {entry : Object NativeClass} {parent : Option Slot}
    (linked : bridge.Linked ((object, entry) :: spare)) (others : ∀ item ∈ spare, item.1 ≠ object)
    (fits : bridge.Fits kind entry parent) (empty : (bridge.handles slot).kind = none)
    (rest : bridge.Elsewhere after slot) (world : after.world = bridge.world)
    (live : (after.handles slot).kind = some kind)
    (pointer : (after.handles slot).pointer = object)
    (hangs : (after.handles slot).parent = Turn.index parent) : after.Linked spare := by
  obtain ⟨there, apart⟩ := linked.spared List.mem_cons_self
  have old {other : Slot} (alive : (bridge.handles other).kind.isSome) : other ≠ slot := by
    rintro rfl
    rw [empty] at alive
    cases alive
  have stays {other : Slot} {kindOther : HandleKind}
      (alive : (bridge.handles other).kind = some kindOther) :
      after.handles other = bridge.handles other := rest other (old (by rw [alive]; rfl))
  constructor
  · rw [world]
    exact linked.rooted
  · intro other kindOther alive
    rw [Placed, world]
    by_cases same : other = slot
    · subst same
      rw [live] at alive
      cases alive
      rw [pointer, hangs]
      cases parent with
      | none =>
          obtain ⟨rfl, rfl⟩ := fits
          exact .inl ⟨rfl, rfl, there⟩
      | some above =>
          obtain ⟨kindAbove, aliveAbove, below, rfl⟩ := fits
          refine .inr ⟨above, kindAbove, rfl, ?_, below, ?_⟩
          · rw [stays aliveAbove, aliveAbove]
          · rw [stays aliveAbove, there]
    · rw [rest other same] at alive ⊢
      rcases linked.placed alive with home | ⟨above, kindAbove, up, aliveAbove, below, home⟩
      · exact .inl home
      · refine .inr ⟨above, kindAbove, up, ?_, below, ?_⟩
        · rw [stays aliveAbove, aliveAbove]
        · rw [stays aliveAbove, home]
  · intro first second aliveFirst aliveSecond equal
    by_cases sameFirst : first = slot <;> by_cases sameSecond : second = slot
    · rw [sameFirst, sameSecond]
    · rw [sameFirst, pointer, rest second sameSecond] at equal
      rw [rest second sameSecond] at aliveSecond
      exact (apart second aliveSecond equal.symm).elim
    · rw [sameSecond, pointer, rest first sameFirst] at equal
      rw [rest first sameFirst] at aliveFirst
      exact (apart first aliveFirst equal).elim
    · rw [rest first sameFirst] at aliveFirst equal
      rw [rest second sameSecond] at aliveSecond equal
      exact linked.distinct aliveFirst aliveSecond equal
  · intro other entryOther home
    rw [world] at home
    rcases linked.covered home with member | ⟨holder, alive, points⟩
    · rcases List.mem_cons.mp member with same | member
      · cases same
        refine .inr ⟨slot, ?_, pointer⟩
        rw [live]
        rfl
      · exact .inl member
    · refine .inr ⟨holder, ?_⟩
      rw [rest holder (old alive)]
      exact ⟨alive, points⟩
  · intro other entryOther member
    rw [world]
    obtain ⟨home, away⟩ := linked.spared (List.mem_cons_of_mem _ member)
    refine ⟨home, fun holder alive => ?_⟩
    by_cases same : holder = slot
    · subst same
      rw [pointer]
      exact (others _ member).symm
    · rw [rest holder same] at alive ⊢
      exact away holder alive

/-- A handle without children gives up its object. -/
theorem Linked.retire (linked : bridge.Linked [])
    (live : (bridge.handles slot).kind = some kind) (none : bridge.children slot = false)
    (rest : bridge.Elsewhere after slot)
    (world : after.world = bridge.world.after (.free kind.native (bridge.handles slot).pointer))
    (gone : (after.handles slot).kind = Option.none) : after.Linked [] := by
  have accepted := linked.freeable live none
  have other {holder : Slot} (alive : (after.handles holder).kind.isSome) : holder ≠ slot := by
    rintro rfl
    rw [gone] at alive
    cases alive
  have keeps {holder : Slot} (different : holder ≠ slot)
      (alive : (bridge.handles holder).kind.isSome) :
      after.world.objects (bridge.handles holder).pointer =
        bridge.world.objects (bridge.handles holder).pointer := by
    rw [world, World.free_other]
    intro equal
    exact different (linked.distinct alive (by rw [live]; rfl) equal)
  constructor
  · rw [world]
    exact linked.rooted.after accepted
  · intro holder kindHolder alive
    have different := other (by rw [alive]; rfl)
    rw [rest holder different] at alive
    rw [Placed, rest holder different, keeps different (by rw [alive]; rfl)]
    rcases linked.placed alive with home | ⟨above, kindAbove, up, aliveAbove, below, home⟩
    · exact .inl home
    · have apart : above ≠ slot := by
        rintro rfl
        exact childless none (by rw [alive]; rfl) up
      refine .inr ⟨above, kindAbove, up, ?_, below, ?_⟩
      · rw [rest above apart, aliveAbove]
      · rw [rest above apart, home]
  · intro first second aliveFirst aliveSecond equal
    have differentFirst := other aliveFirst
    have differentSecond := other aliveSecond
    rw [rest first differentFirst] at aliveFirst equal
    rw [rest second differentSecond] at aliveSecond equal
    exact linked.distinct aliveFirst aliveSecond equal
  · intro object entry there
    by_cases same : object = (bridge.handles slot).pointer
    · rw [world, same, World.free_self] at there
      cases there
    · rw [world, World.free_other _ same] at there
      rcases linked.covered there with member | ⟨holder, alive, rfl⟩
      · cases member
      · have different : holder ≠ slot := fun equal => same (by rw [equal])
        refine .inr ⟨holder, ?_⟩
        rw [rest holder different]
        exact ⟨alive, rfl⟩
  · intro object entry member
    cases member

/-- An object that was to get no handle is freed. -/
theorem Linked.discard {object : ℕ} {entry : Object NativeClass}
    (linked : bridge.Linked [(object, entry)]) (after : Bridge)
    (handles : after.handles = bridge.handles)
    (world : after.world = bridge.world.after (.free entry.kind object)) :
    World.Accepts mayOwn bridge.world (.free entry.kind object) ∧ after.Linked [] := by
  obtain ⟨there, apart⟩ := linked.spared List.mem_cons_self
  have owner {other : ℕ} {entryOther : Object NativeClass}
      (found : bridge.world.objects other = some entryOther) (different : other ≠ object) :
      ∃ holder, (bridge.handles holder).kind.isSome ∧ (bridge.handles holder).pointer = other := by
    rcases linked.covered found with member | found
    · rcases List.mem_cons.mp member with same | member
      · cases same
        exact (different rfl).elim
      · cases member
    · exact found
  have accepted : World.Accepts mayOwn bridge.world (.free entry.kind object) := by
    refine ⟨World.kindOf_eq_some.mpr ⟨entry, there, rfl⟩, fun other entryOther found owned => ?_⟩
    have later := (linked.rooted.owned found owned).1
    obtain ⟨holder, alive, rfl⟩ := owner found (Nat.ne_of_gt later)
    obtain ⟨kind, live⟩ := Option.isSome_iff_exists.mp alive
    rcases linked.placed live with ⟨-, -, home⟩ | ⟨above, kindAbove, -, aliveAbove, -, home⟩
    · rw [found] at home
      cases home
      cases owned
    · rw [found] at home
      cases home
      exact apart above (by rw [aliveAbove]; rfl) (Option.some.inj owned)
  refine ⟨accepted, ?_⟩
  have keeps {other : ℕ} (different : other ≠ object) :
      after.world.objects other = bridge.world.objects other := by
    rw [world, World.free_other _ different]
  constructor
  · rw [world]
    exact linked.rooted.after accepted
  · intro slot kind live
    rw [handles] at live
    rw [Placed, handles, keeps (apart slot (by rw [live]; rfl))]
    exact linked.placed live
  · rw [handles]
    exact linked.distinct
  · intro other entryOther found
    by_cases same : other = object
    · rw [world, same, World.free_self] at found
      cases found
    · rw [keeps same] at found
      rw [handles]
      exact .inr (owner found same)
  · intro other entryOther member
    cases member

/-- The flags and the deadlines of one handle change. -/
theorem Limited.flags (limited : bridge.Limited) (same : SameLinks bridge after)
    (rest : bridge.Elsewhere after slot) (owned : after.psqlOwned = bridge.psqlOwned)
    (issued : after.issued = bridge.issued)
    (watching : (after.handles slot).watching = true →
      ∃ kind, (bridge.handles slot).kind = some kind ∧ kind.watched = true)
    (retrying : (after.handles slot).progressWatching = true → (bridge.handles slot).kind.isSome)
    (closing : (after.handles slot).closing = true → (bridge.handles slot).closing = true ∨
      (bridge.handles slot).kind = some .statement ∨ bridge.children slot = false) :
    after.Limited := by
  constructor
  · intro other
    rw [same.generation]
    exact limited.bounded other
  · intro other watches
    rw [same.kind]
    by_cases equal : other = slot
    · subst equal
      exact watching watches
    · rw [rest other equal] at watches
      exact limited.watching watches
  · intro other retries
    rw [same.kind]
    by_cases equal : other = slot
    · subst equal
      exact retrying retries
    · rw [rest other equal] at retries
      exact limited.retrying retries
  · intro first second alive different closes live
    rw [same.kind] at alive different live
    rw [same.parent]
    by_cases equal : first = slot
    · subst equal
      rcases closing closes with closes | isStatement | none
      · exact limited.closing alive different closes live
      · exact (different isStatement).elim
      · exact childless none live
    · rw [rest first equal] at closes
      exact limited.closing alive different closes live
  · rw [same.count]
    exact limited.instances
  · rw [same.count]
    exact limited.logicals
  · rw [same.count]
    exact limited.sessions
  · rw [owned]
    intro terminal
    obtain ⟨home, isHome, alone⟩ := limited.exclusive terminal
    refine ⟨home, ?_, fun other alive => ?_⟩
    · rw [same.kind, isHome]
    · rw [same.kind] at alive
      exact alone other alive
  · rw [issued]
    refine ⟨limited.issued.1, fun other generation => ?_⟩
    rw [same.generation]
    exact limited.issued.2 other generation
  · intro other alive
    rw [same.kind] at alive
    rw [same.generation]
    exact limited.fresh alive

/-- The limits do not depend on the native objects. -/
theorem Limited.world (limited : bridge.Limited) (world : World NativeClass) :
    ({ bridge with world } : Bridge).Limited :=
  ⟨limited.bounded, limited.watching, limited.retrying, limited.closing, limited.instances,
    limited.logicals, limited.sessions, limited.exclusive, limited.issued, limited.fresh⟩

/-- The terminal owns nothing while a handle of another kind than an instance is live. -/
theorem Limited.unowned (limited : bridge.Limited) (live : (bridge.handles slot).kind = some kind)
    (other : kind ≠ .instance_) : bridge.psqlOwned = false := by
  by_contra owned
  rw [Bool.not_eq_false] at owned
  obtain ⟨home, isHome, alone⟩ := limited.exclusive owned
  have same := alone slot (by rw [live]; rfl)
  subst same
  rw [live] at isHome
  exact other (Option.some.inj isHome)

theorem Limited.unowned_of_count (limited : bridge.Limited)
    (none : bridge.count (· = .instance_) = 0) : bridge.psqlOwned = false := by
  by_contra owned
  rw [Bool.not_eq_false] at owned
  obtain ⟨home, isHome, -⟩ := limited.exclusive owned
  have counted : 0 < bridge.count (· = .instance_) :=
    census_pos home (by simp [isHome])
  omega

/-- The next generation of a slot is given out. -/
theorem Limited.issued_publish (limited : bridge.Limited) (rest : bridge.Elsewhere after slot)
    (issued : after.issued = bridge.issued ++ [(slot, (bridge.handles slot).generation + 1)])
    (generation : (after.handles slot).generation = (bridge.handles slot).generation + 1) :
    after.issued.Nodup ∧ ∀ other count, (other, count) ∈ after.issued ↔
      0 < count ∧ count ≤ (after.handles other).generation := by
  have new : (slot, (bridge.handles slot).generation + 1) ∉ bridge.issued := by
    intro member
    have bound := ((limited.issued.2 _ _).mp member).2
    omega
  rw [issued]
  refine ⟨List.nodup_append.mpr ⟨limited.issued.1, List.nodup_singleton _, ?_⟩, ?_⟩
  · intro first member second singleton equal
    rw [List.mem_singleton] at singleton
    rw [equal, singleton] at member
    exact new member
  · intro other count
    rw [List.mem_append, List.mem_singleton, limited.issued.2, Prod.mk.injEq]
    by_cases same : other = slot
    · subst same
      rw [generation]
      constructor
      · rintro (⟨positive, bound⟩ | ⟨-, rfl⟩)
        · exact ⟨positive, by omega⟩
        · exact ⟨by omega, le_rfl⟩
      · rintro ⟨positive, bound⟩
        by_cases last : count = (bridge.handles other).generation + 1
        · exact .inr ⟨rfl, last⟩
        · exact .inl ⟨positive, by omega⟩
    · rw [rest other same]
      simp [same]

/-- A slot gets a handle. -/
theorem Limited.publish {parent : Option Slot} (limited : bridge.Limited)
    (owned : bridge.psqlOwned = false) (reservable : (bridge.handles slot).reservable = true)
    (rest : bridge.Elsewhere after slot) (terminal : after.psqlOwned = bridge.psqlOwned)
    (issued : after.issued =
      bridge.issued ++ [(slot, (bridge.handles slot).generation + 1)])
    (live : (after.handles slot).kind = some kind)
    (generation : (after.handles slot).generation = (bridge.handles slot).generation + 1)
    (hangs : (after.handles slot).parent = Turn.index parent)
    (watching : (after.handles slot).watching = (bridge.handles slot).watching)
    (retrying : (after.handles slot).progressWatching = false)
    (closing : (after.handles slot).closing = false)
    (above : ∀ home ∈ parent, (bridge.handles home).kind = some .statement ∨
      (bridge.handles home).closing = false)
    (instances : kind = .instance_ → bridge.count (· = .instance_) = 0)
    (logicals : kind = .logical → bridge.count (· = .logical) = 0)
    (sessions : kind.session = true → bridge.count HandleKind.session < maxConnections) :
    after.Limited := by
  obtain ⟨empty, more⟩ : (bridge.handles slot).kind = none ∧
      (bridge.handles slot).generation ≠ lastGeneration := by
    simpa [Handle.reservable] using reservable
  have room := limited.bounded slot
  have counted (test : HandleKind → Bool) :
      after.count test = bridge.count test + (test kind).toNat := by
    have moved := rest.count test
    rw [empty, live] at moved
    simpa using moved
  constructor
  · intro other
    by_cases same : other = slot
    · subst same
      rw [generation]
      omega
    · rw [rest other same]
      exact limited.bounded other
  · intro other watches
    by_cases same : other = slot
    · subst same
      rw [watching] at watches
      obtain ⟨kindOther, found, -⟩ := limited.watching watches
      rw [empty] at found
      cases found
    · rw [rest other same] at watches ⊢
      exact limited.watching watches
  · intro other retries
    by_cases same : other = slot
    · subst same
      rw [retrying] at retries
      cases retries
    · rw [rest other same] at retries ⊢
      exact limited.retrying retries
  · intro first second alive different closes aliveSecond
    by_cases same : first = slot
    · subst same
      rw [closing] at closes
      cases closes
    rw [rest first same] at alive different closes
    by_cases equal : second = slot
    · subst equal
      rw [hangs]
      intro up
      cases parent with
      | none => simp [Turn.index] at up
      | some home =>
          have isHome : home = first := by
            have value : home.val + 1 = first.val + 1 := up
            exact Fin.ext (by omega)
          subst isHome
          rcases above home rfl with isStatement | opened
          · exact different isStatement
          · rw [closes] at opened
            cases opened
    · rw [rest second equal] at aliveSecond ⊢
      exact limited.closing alive different closes aliveSecond
  · rw [counted]
    by_cases isInstance : kind = .instance_
    · rw [instances isInstance, Nat.zero_add]
      exact Bool.toNat_le _
    · simpa [isInstance] using limited.instances
  · rw [counted]
    by_cases isLogical : kind = .logical
    · rw [logicals isLogical, Nat.zero_add]
      exact Bool.toNat_le _
    · simpa [isLogical] using limited.logicals
  · rw [counted]
    cases isSession : kind.session with
    | false => simpa using limited.sessions
    | true =>
        have room := sessions isSession
        simp only [Bool.toNat_true]
        omega
  · intro owns
    rw [terminal, owned] at owns
    cases owns
  · exact limited.issued_publish rest issued generation
  · intro other alive
    by_cases same : other = slot
    · subst same
      rw [generation]
      omega
    · rw [rest other same] at alive ⊢
      exact limited.fresh alive

/-- A slot loses its handle, or a connection has been established. -/
theorem Limited.shrink (limited : bridge.Limited) (rest : bridge.Elsewhere after slot)
    (owned : bridge.psqlOwned = false) (terminal : after.psqlOwned = bridge.psqlOwned)
    (issued : after.issued = bridge.issued)
    (generation : (after.handles slot).generation = (bridge.handles slot).generation)
    (parent : (after.handles slot).kind.isSome →
      (after.handles slot).parent = (bridge.handles slot).parent)
    (live : (after.handles slot).kind.isSome → (bridge.handles slot).kind.isSome)
    (watching : (after.handles slot).watching = false)
    (retrying : (after.handles slot).progressWatching = false)
    (closing : (after.handles slot).kind.isSome → (after.handles slot).closing = true →
      (bridge.handles slot).closing = true ∧ (bridge.handles slot).kind ≠ some .statement)
    (tests : ∀ test ∈ [(fun kind => decide (kind = .instance_) : HandleKind → Bool),
      fun kind => decide (kind = .logical), HandleKind.session],
      (after.handles slot).kind.any test = true → (bridge.handles slot).kind.any test = true) :
    after.Limited := by
  have alive {other : Slot} (found : (after.handles other).kind.isSome) :
      (bridge.handles other).kind.isSome := by
    by_cases same : other = slot
    · subst same
      exact live found
    · rwa [rest other same] at found
  have above {other : Slot} (found : (after.handles other).kind.isSome) :
      (after.handles other).parent = (bridge.handles other).parent := by
    by_cases same : other = slot
    · subst same
      exact parent found
    · rw [rest other same]
  have counted (test : HandleKind → Bool)
      (kept : (after.handles slot).kind.any test = true →
        (bridge.handles slot).kind.any test = true) :
      after.count test ≤ bridge.count test := by
    have moved := rest.count test
    have less : ((after.handles slot).kind.any test).toNat ≤
        ((bridge.handles slot).kind.any test).toNat := Bool.toNat_le_toNat kept
    omega
  have generations (other : Slot) :
      (after.handles other).generation = (bridge.handles other).generation := by
    by_cases same : other = slot
    · subst same
      exact generation
    · rw [rest other same]
  constructor
  · intro other
    rw [generations]
    exact limited.bounded other
  · intro other watches
    by_cases same : other = slot
    · subst same
      rw [watching] at watches
      cases watches
    · rw [rest other same] at watches ⊢
      exact limited.watching watches
  · intro other retries
    by_cases same : other = slot
    · subst same
      rw [retrying] at retries
      cases retries
    · rw [rest other same] at retries ⊢
      exact limited.retrying retries
  · intro first second aliveFirst different closes aliveSecond
    rw [above aliveSecond]
    by_cases same : first = slot
    · subst same
      obtain ⟨closes, different⟩ := closing aliveFirst closes
      exact limited.closing (live aliveFirst) different closes (alive aliveSecond)
    · rw [rest first same] at aliveFirst different closes
      exact limited.closing aliveFirst different closes (alive aliveSecond)
  · exact (counted _ (tests _ (by simp))).trans limited.instances
  · exact (counted _ (tests _ (by simp))).trans limited.logicals
  · exact (counted _ (tests _ (by simp))).trans limited.sessions
  · intro owns
    rw [terminal, owned] at owns
    cases owns
  · rw [issued]
    refine ⟨limited.issued.1, fun other count => ?_⟩
    rw [generations]
    exact limited.issued.2 other count
  · intro other found
    rw [generations]
    exact limited.fresh (alive found)

/-! ## What a command leaves -/

/-- Generations do not fall, a handle that is gone does not come back under its generation, and
nothing that was given out is forgotten. -/
structure Later (before after : Bridge) : Prop where
  generation : ∀ slot, (before.handles slot).generation ≤ (after.handles slot).generation
  live : ∀ slot, (after.handles slot).generation = (before.handles slot).generation →
    (after.handles slot).kind.isSome → (before.handles slot).kind.isSome
  issued : before.issued <+: after.issued

theorem Later.refl (bridge : Bridge) : Later bridge bridge :=
  ⟨fun _ => le_rfl, fun _ _ alive => alive, List.prefix_refl _⟩

theorem Later.trans {third : Bridge} (first : Later bridge after) (second : Later after third) :
    Later bridge third where
  generation slot := (first.generation slot).trans (second.generation slot)
  live slot equal alive := by
    have low := first.generation slot
    have high := second.generation slot
    exact first.live slot (by omega) (second.live slot (by omega) alive)
  issued := first.issued.trans second.issued

theorem SameLinks.later (same : SameLinks bridge after) (issued : after.issued = bridge.issued) :
    Later bridge after where
  generation slot := (same.generation slot).ge
  live slot _ alive := by rwa [same.kind] at alive
  issued := by rw [issued]

/-- Native calls that keep the contract lead on from a bridge, within the limits. -/
structure Works (before after : Bridge) (calls : List Call)
    (spare : List (ℕ × Object NativeClass)) : Prop where
  linked : after.Linked spare
  limited : after.Limited
  kept : World.Keeps mayOwn before.world calls
  world : after.world = before.world.afterAll calls
  later : Later before after

end Bridge

namespace Turn

variable {before : Bridge} {turn : Turn} {spare : List (ℕ × Object NativeClass)} {slot : Slot}
  {kind : HandleKind}

/-- The state of a command at work is sound. -/
abbrev Works (before : Bridge) (turn : Turn) (spare : List (ℕ × Object NativeClass)) : Prop :=
  Bridge.Works before turn.bridge turn.calls spare

/-! ## The parts of a command -/

/-- A native call that keeps the contract is one more of the sequence. -/
theorem Works.append {calls : List Call} {call : Call} (works : turn.Works before spare)
    (accepted : World.Accepts mayOwn turn.bridge.world call) (same : calls = turn.calls ++ [call]) :
    World.Keeps mayOwn before.world calls ∧
      turn.bridge.world.after call = before.world.afterAll calls := by
  subst same
  rw [World.keeps_append, World.afterAll_append, ← works.world]
  exact ⟨⟨works.kept, accepted, trivial⟩, rfl⟩

/-- An object that is there is used. -/
theorem Works.call (works : turn.Works before spare) {class_ : NativeClass} {object : ℕ}
    (there : turn.bridge.world.kindOf object = some class_) :
    (turn.call (.use class_ object)).Works before spare := by
  have accepted : World.Accepts mayOwn turn.bridge.world (.use class_ object) := there
  obtain ⟨kept, world⟩ := works.append accepted rfl
  exact ⟨works.linked, works.limited, kept, world, works.later⟩

/-- The object of a handle is used. -/
theorem Works.use (works : turn.Works before spare)
    (live : (turn.bridge.handles slot).kind = some kind) :
    (turn.use kind.native slot).Works before spare :=
  works.call (works.linked.object live)

/-- Flags and deadlines of a handle change. -/
theorem Works.change (works : turn.Works before spare) {edit : Handle → Handle}
    (same : Bridge.SameLinks turn.bridge (turn.change slot edit).bridge)
    (watching : (edit (turn.bridge.handles slot)).watching = true →
      ∃ kind, (turn.bridge.handles slot).kind = some kind ∧ kind.watched = true)
    (retrying : (edit (turn.bridge.handles slot)).progressWatching = true →
      (turn.bridge.handles slot).kind.isSome)
    (closing : (edit (turn.bridge.handles slot)).closing = true →
      (turn.bridge.handles slot).closing = true ∨
      (turn.bridge.handles slot).kind = some .statement ∨ turn.bridge.children slot = false) :
    (turn.change slot edit).Works before spare where
  linked := same.linked rfl works.linked
  limited := by
    refine works.limited.flags same (Bridge.elsewhere_set _) rfl rfl ?_ ?_ ?_
    all_goals
      rw [Turn.change, Bridge.set_self]
      assumption
  kept := works.kept
  world := works.world
  later := works.later.trans (same.later rfl)

/-- An object is made. -/
theorem Works.make (works : turn.Works before spare) (entry : Object NativeClass)
    (accepted : World.Accepts mayOwn turn.bridge.world
      (.create entry.kind entry.owner turn.bridge.world.next)) :
    (turn.call (.create entry.kind entry.owner turn.bridge.world.next)).Works before
      ((turn.bridge.world.next, entry) :: spare) where
  linked := works.linked.create accepted rfl rfl
  limited := works.limited.world _
  kept := (works.append accepted rfl).1
  world := (works.append accepted rfl).2
  later := works.later.trans ⟨fun _ => le_rfl, fun _ _ alive => alive, List.prefix_refl _⟩

theorem publish_handles (turn : Turn) (slot : Slot) (kind : HandleKind) (parent : Option Slot)
    (object : ℕ) : (turn.publish (some slot) kind parent object).bridge.handles slot =
      { turn.bridge.handles slot with
        kind := some kind
        generation := ((turn.bridge.handles slot).generation + 1) % 4294967296
        pointer := object, closing := false, closeDeadline := 0, closeRetry := 0
        progressWatching := false, cancelDeadline := 0, parent := index parent } :=
  Bridge.set_self _

theorem publish_elsewhere (turn : Turn) (slot : Slot) (kind : HandleKind)
    (parent : Option Slot) (object : ℕ) :
    turn.bridge.Elsewhere (turn.publish (some slot) kind parent object).bridge slot :=
  Bridge.elsewhere_set _

theorem retire_handles (turn : Turn) (slot : Slot) : (turn.retire slot).bridge.handles slot =
    { turn.bridge.handles slot with
      watching := false, progressWatching := false, kind := none, parent := 0, pointer := 0 } :=
  Bridge.set_self _

theorem change_handles (turn : Turn) (slot : Slot) (edit : Handle → Handle) :
    (turn.change slot edit).bridge.handles slot = edit (turn.bridge.handles slot) :=
  Bridge.set_self _

/-- The generation of a slot that `reserve` returns does not wrap. -/
theorem next_generation {handle : Handle} (bound : handle.generation ≤ lastGeneration)
    (reserved : handle.reservable = true) :
    (handle.generation + 1) % 4294967296 = handle.generation + 1 := by
  have more : handle.generation ≠ lastGeneration := by
    simp only [Handle.reservable, Bool.and_eq_true, decide_eq_true_eq] at reserved
    exact reserved.2
  rw [lastGeneration] at bound more
  omega

/-- A waiting object gets its handle. -/
theorem Works.publish {object : ℕ} {entry : Object NativeClass} {parent : Option Slot}
    (works : turn.Works before ((object, entry) :: spare))
    (others : ∀ item ∈ spare, item.1 ≠ object) (owned : turn.bridge.psqlOwned = false)
    (reserved : (turn.bridge.handles slot).reservable = true)
    (fits : turn.bridge.Fits kind entry parent)
    (above : ∀ home ∈ parent, (turn.bridge.handles home).kind = some .statement ∨
      (turn.bridge.handles home).closing = false)
    (instances : kind = .instance_ → turn.bridge.count (· = .instance_) = 0)
    (logicals : kind = .logical → turn.bridge.count (· = .logical) = 0)
    (sessions : kind.session = true → turn.bridge.count HandleKind.session < maxConnections) :
    (turn.publish (some slot) kind parent object).Works before spare := by
  have empty : (turn.bridge.handles slot).kind = none := by
    simp only [Handle.reservable, Bool.and_eq_true, Option.isNone_iff_eq_none] at reserved
    exact reserved.1
  have next := next_generation (works.limited.bounded slot) reserved
  have rest := publish_elsewhere turn slot kind parent object
  have own := publish_handles turn slot kind parent object
  rw [next] at own
  constructor
  · exact works.linked.publish others fits empty rest rfl (by rw [own]) (by rw [own])
      (by rw [own])
  · refine works.limited.publish owned reserved rest rfl ?_ (by rw [own]) (by rw [own])
      (by rw [own]) (by rw [own]) (by rw [own]) (by rw [own]) above instances logicals sessions
    rw [← next]
    rfl
  · exact works.kept
  · exact works.world
  · refine works.later.trans ⟨fun other => ?_, fun other equal alive => ?_, ⟨_, rfl⟩⟩
    · by_cases same : other = slot
      · subst same
        rw [own]
        exact Nat.le_succ _
      · rw [rest other same]
    · by_cases same : other = slot
      · subst same
        rw [own] at equal
        exact (Nat.succ_ne_self _ equal).elim
      · rwa [rest other same] at alive

/-- A handle without children is freed and retired. -/
theorem Works.retire (works : turn.Works before [])
    (live : (turn.bridge.handles slot).kind = some kind)
    (none : turn.bridge.children slot = false) (owned : turn.bridge.psqlOwned = false) :
    ((turn.free kind.native slot).retire slot).Works before [] := by
  have accepted := works.linked.freeable live none
  have rest : turn.bridge.Elsewhere ((turn.free kind.native slot).retire slot).bridge slot :=
    Bridge.elsewhere_set _
  have own := retire_handles (turn.free kind.native slot) slot
  have dead {motive : Prop} (alive : (((turn.free kind.native slot).retire slot).bridge.handles
      slot).kind.isSome) : motive := by
    rw [own] at alive
    cases alive
  constructor
  · exact works.linked.retire live none rest rfl (by rw [own])
  · refine works.limited.shrink rest owned rfl rfl ?_ dead dead (by rw [own]) (by rw [own]) dead ?_
    · rw [own]
      rfl
    · intro test _ holds
      rw [own] at holds
      cases holds
  · exact (works.append accepted rfl).1
  · exact (works.append accepted rfl).2
  · refine works.later.trans ⟨fun other => ?_, fun other _ alive => ?_, List.prefix_refl _⟩
    · by_cases same : other = slot
      · subst same
        rw [own]
        exact le_rfl
      · rw [rest other same]
    · by_cases same : other = slot
      · subst same
        exact dead alive
      · rwa [rest other same] at alive

/-- A connection has been established. -/
theorem Works.establish (works : turn.Works before [])
    (live : (turn.bridge.handles slot).kind = some .connecting)
    (retrying : (turn.bridge.handles slot).progressWatching = false) :
    (turn.change slot fun handle => { handle with kind := some .connection }).Works before [] := by
  have owned := works.limited.unowned live (by decide)
  have alive : (turn.bridge.handles slot).kind.isSome := by
    rw [live]
    rfl
  set after := turn.change slot fun handle => { handle with kind := some .connection } with isAfter
  have rest : turn.bridge.Elsewhere after.bridge slot := Bridge.elsewhere_set _
  have own : after.bridge.handles slot =
      { turn.bridge.handles slot with kind := some .connection } := change_handles _ _ _
  have unwatched : (turn.bridge.handles slot).watching = false := by
    by_contra watches
    rw [Bool.not_eq_false] at watches
    obtain ⟨kind, found, watched⟩ := works.limited.watching watches
    rw [live] at found
    cases found
    cases watched
  have stays {other : Slot} (alive : (after.bridge.handles other).kind.isSome) :
      (turn.bridge.handles other).kind.isSome := by
    by_cases same : other = slot
    · rwa [same]
    · rwa [rest other same] at alive
  constructor
  · constructor
    · exact works.linked.rooted
    · intro other kind found
      by_cases same : other = slot
      · subst same
        rw [own] at found
        cases found
        rcases works.linked.placed live with ⟨wrong, -, -⟩ |
          ⟨above, kindAbove, up, aliveAbove, below, object⟩
        · cases wrong
        · have apart : above ≠ other := by
            rintro rfl
            rw [live] at aliveAbove
            cases aliveAbove
            simp [HandleKind.below] at below
          refine .inr ⟨above, kindAbove, ?_, ?_, below, ?_⟩
          · rw [own, up]
          · rw [rest above apart, aliveAbove]
          · rw [own, rest above apart]
            exact object
      · rw [rest other same] at found
        rw [Bridge.Placed, rest other same]
        rcases works.linked.placed found with
          home | ⟨above, kindAbove, up, aliveAbove, below, object⟩
        · exact .inl home
        · have apart : above ≠ slot := by
            rintro rfl
            rw [live] at aliveAbove
            cases aliveAbove
            cases kind <;> simp [HandleKind.below] at below
          refine .inr ⟨above, kindAbove, up, ?_, below, ?_⟩
          · rw [rest above apart, aliveAbove]
          · rw [rest above apart]
            exact object
    · intro first second aliveFirst aliveSecond equal
      refine works.linked.distinct (stays aliveFirst) (stays aliveSecond) ?_
      have pointer (other : Slot) :
          (after.bridge.handles other).pointer = (turn.bridge.handles other).pointer := by
        by_cases same : other = slot
        · rw [same, own]
        · rw [rest other same]
      rwa [pointer, pointer] at equal
    · intro object entry there
      rcases works.linked.covered there with member | ⟨holder, found, points⟩
      · cases member
      · refine .inr ⟨holder, ?_⟩
        by_cases same : holder = slot
        · rw [same, own]
          exact ⟨rfl, same ▸ points⟩
        · rw [rest holder same]
          exact ⟨found, points⟩
    · intro object entry member
      cases member
  · refine works.limited.shrink rest owned rfl rfl (by rw [own]) (fun _ => by rw [own])
      (fun _ => alive) ?_ ?_ ?_ ?_
    · rw [own]
      exact unwatched
    · rw [own]
      exact retrying
    · intro _ closes
      rw [own] at closes
      refine ⟨closes, ?_⟩
      rw [live]
      simp
    · intro test member holds
      rw [own] at holds
      rw [live]
      simp only [List.mem_cons, List.not_mem_nil, or_false] at member
      rcases member with rfl | rfl | rfl
      · simp at holds
      · simp at holds
      · rfl
  · exact works.kept
  · exact works.world
  · refine works.later.trans ⟨fun other => ?_, fun other _ found => stays found,
      List.prefix_refl _⟩
    by_cases same : other = slot
    · rw [same, own]
    · rw [rest other same]

end Turn

end Wasm
end Postgamma
