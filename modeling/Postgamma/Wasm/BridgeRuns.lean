import Mathlib
import Postgamma.Wasm.BridgeCommands

/-!
# Runs of the bridge

The driver of the bridge takes one command after the other, and wakes the client between them. Over
any run the native calls keep the contract of the library, the handles and the native objects
correspond, and a slot with its generation names one handle for ever.
-/

namespace Postgamma
namespace Wasm

open Text (Bytes)
open LittleEndian (u32)
open Ownership (World)

/-- A handle is live under its slot and its generation. -/
def Bridge.Live (bridge : Bridge) (slot : Slot) (generation : ℕ) : Prop :=
  (bridge.handles slot).kind.isSome ∧ (bridge.handles slot).generation = generation

namespace Driver

variable {origin driver : Driver} {wake : Wake} {slot : Slot} {kind : HandleKind}

/-- What a driver has done since an earlier moment keeps the contract, and its bridge is sound. -/
def Works (origin driver : Driver) : Prop :=
  ∃ calls, driver.calls = origin.calls ++ calls ∧
    Bridge.Works origin.bridge driver.bridge calls []

theorem start_sound : Bridge.Works start.bridge start.bridge [] [] where
  linked :=
    { rooted := World.empty_rooted
      placed := fun live => by cases live
      distinct := fun live => by cases live
      covered := fun there => by cases there
      spared := fun member => by cases member }
  limited :=
    { bounded := fun _ => Nat.zero_le _
      watching := fun watches => by cases watches
      retrying := fun retries => by cases retries
      closing := fun live => by cases live
      instances := by
        rw [Bridge.count, census_eq_card]
        simp [start, Handle.zero]
      logicals := by
        rw [Bridge.count, census_eq_card]
        simp [start, Handle.zero]
      sessions := by
        rw [Bridge.count, census_eq_card]
        simp [start, Handle.zero]
      exclusive := fun owns => by cases owns
      issued := by
        refine ⟨List.nodup_nil, fun slot generation => ?_⟩
        simp only [start, Handle.zero, List.not_mem_nil, false_iff]
        omega
      fresh := fun live => by cases live }
  kept := trivial
  world := rfl
  later := .refl _

theorem Works.linked (works : Works origin driver) : driver.bridge.Linked [] :=
  works.choose_spec.2.linked

theorem Works.limited (works : Works origin driver) : driver.bridge.Limited :=
  works.choose_spec.2.limited

theorem Works.later (works : Works origin driver) : Bridge.Later origin.bridge driver.bridge :=
  works.choose_spec.2.later

theorem Works.refl (works : Works origin driver) : Works driver driver :=
  ⟨[], (List.append_nil _).symm, works.choose_spec.2.rest⟩

theorem Works.useOn (works : Works origin driver) {class_ : NativeClass} {object : ℕ}
    (there : driver.bridge.world.kindOf object = some class_) :
    Works origin (driver.useOn class_ (some object)) := by
  obtain ⟨calls, same, works⟩ := works
  have used := works.use there
  refine ⟨_, ?_, used⟩
  rw [Driver.useOn, Driver.call, same, List.append_assoc]

/-- What is neither the handles nor the objects changes. -/
theorem Works.frame {next : Driver} (works : Works origin driver)
    (handles : next.bridge.handles = driver.bridge.handles)
    (world : next.bridge.world = driver.bridge.world)
    (issued : next.bridge.issued = driver.bridge.issued)
    (owned : next.bridge.psqlOwned = driver.bridge.psqlOwned)
    (calls : next.calls = driver.calls) : Works origin next := by
  obtain ⟨made, same, works⟩ := works
  refine ⟨made, calls.trans same, works.frame handles world issued ?_⟩
  rw [owned]
  exact works.limited.exclusive

/-- The objects that `ready_now` asks are there. -/
theorem Works.readyCalls (works : Works origin driver)
    (watches : (driver.bridge.handles slot).watching = true) :
    Works origin (driver.readyCalls wake slot) ∧
      (driver.readyCalls wake slot).bridge = driver.bridge := by
  obtain ⟨kind, live, watched⟩ := works.limited.watching watches
  unfold Driver.readyCalls
  extract_lets +onlyGivenNames handle object
  split
  · rename_i isLogical
    rw [live] at isLogical
    cases isLogical
    exact ⟨works.useOn (works.linked.object live), rfl⟩
  rename_i apart
  have kinds : kind = .request ∨ kind = .stream := by
    cases kind with
    | request => exact .inl rfl
    | stream => exact .inr rfl
    | logical => exact (apart live).elim
    | instance_ => cases watched
    | connection => cases watched
    | connecting => cases watched
    | statement => cases watched
  obtain ⟨target, isTarget, there⟩ := works.linked.sequence live kinds
  have isObject : object = some target := isTarget
  extract_lets +onlyGivenNames asked
  have asked_works : Works origin asked := by
    unfold asked
    rw [isObject]
    exact works.useOn there
  have bridge : asked.bridge = driver.bridge := by
    unfold asked
    rw [isObject]
    rfl
  split
  · rename_i isRequest
    have found : kind = .request := by
      have same : (driver.bridge.handles slot).kind = some .request := isRequest.2
      rw [live] at same
      exact Option.some.inj same
    subst found
    refine ⟨asked_works.useOn ?_, bridge⟩
    rw [bridge]
    exact works.linked.object live
  · exact ⟨asked_works, bridge⟩

/-- A handle is disarmed. -/
theorem Works.emit (works : Works origin driver) : Works origin (driver.emit slot) := by
  have links : Bridge.SameLinks driver.bridge (driver.emit slot).bridge :=
    Bridge.SameLinks.set rfl rfl rfl rfl
  have own : (driver.emit slot).bridge.handles slot =
      { driver.bridge.handles slot with watching := false, progressWatching := false } :=
    Bridge.set_self _
  obtain ⟨calls, same, works⟩ := works
  refine ⟨calls, same, links.linked rfl works.linked, ?_, works.kept, works.world,
    works.later.trans (links.later rfl)⟩
  refine works.limited.flags links (Bridge.elsewhere_set _) rfl rfl ?_ ?_ ?_
  · intro watches
    rw [own] at watches
    cases watches
  · intro retries
    rw [own] at retries
    cases retries
  · intro closes
    rw [own] at closes
    exact .inl closes

theorem Works.notifySlot (works : Works origin driver) :
    Works origin (notifySlot wake driver slot) := by
  unfold Driver.notifySlot
  extract_lets +onlyGivenNames handle ready asked
  have asks (watches : ¬handle.watching = false) :
      Works origin asked ∧ asked.bridge = driver.bridge :=
    works.readyCalls (by simpa using watches)
  split
  · exact works
  rename_i armed
  split
  · split
    · split
      · exact works
      · rename_i watches
        have asked_works := (asks watches).1
        split
        · exact asked_works
        · exact asked_works.emit
    · exact works.emit
  · rename_i calm
    have watches : ¬handle.watching = false := by
      intro idle
      exact armed ⟨idle, by simpa using calm⟩
    have asked_works := (asks watches).1
    split
    · exact asked_works
    · exact asked_works.emit

theorem Works.notifyReady (works : Works origin driver) :
    Works origin (driver.notifyReady wake) := by
  have walk (slots : List Slot) {driver : Driver} (works : Works origin driver) :
      Works origin (slots.foldl (Driver.notifySlot wake) driver) := by
    induction slots generalizing driver with
    | nil => exact works
    | cons slot rest induction => exact induction works.notifySlot
  exact walk _ works

theorem Works.consumeIdle (slots : List Slot) (works : Works origin driver)
    (live : ∀ slot ∈ slots, (driver.bridge.handles slot).kind = some .connection) :
    Works origin (slots.foldl Driver.consumeIdle driver) ∧
      (slots.foldl Driver.consumeIdle driver).bridge = driver.bridge := by
  induction slots generalizing driver with
  | nil => exact ⟨works, rfl⟩
  | cons slot rest induction =>
      have first : Works origin (driver.consumeIdle slot) :=
        works.useOn (works.linked.object (live slot List.mem_cons_self))
      exact induction first fun other member => live other (List.mem_cons_of_mem _ member)

theorem Works.notifyEvents (works : Works origin driver) :
    Works origin (driver.notifyEvents wake) := by
  unfold Driver.notifyEvents
  extract_lets +onlyGivenNames consumed taken
  obtain ⟨consumed_works, bridge⟩ := Works.consumeIdle (Turn.openConnections driver.bridge) works
    fun slot member => Turn.mem_openConnections member
  have consumed_works : Works origin consumed := consumed_works
  clear_value consumed
  have taken_works : Works origin taken := by
    unfold taken
    split
    · exact consumed_works
    split
    · exact consumed_works
    · rename_i slot found
      have asked := consumed_works.useOn
        (consumed_works.linked.object (Turn.eventSource_live found))
      exact asked.frame rfl rfl rfl rfl rfl
  clear_value taken
  split
  · exact consumed_works
  split
  · exact taken_works.frame rfl rfl rfl rfl rfl
  · exact taken_works

theorem Works.iterate (works : Works origin driver) (iteration : Wake × Option (Native × Bytes)) :
    Works origin (driver.iterate iteration) := by
  unfold Driver.iterate
  split
  · exact works
  extract_lets +onlyGivenNames notified
  have notified_works : Works origin notified := works.notifyReady.notifyEvents
  clear_value notified
  split
  · exact notified_works
  · rename_i native input _
    obtain ⟨calls, same, works⟩ := notified_works
    have turn_works := Turn.command_works native input works.rest
    refine ⟨calls ++ (Turn.command native input notified.bridge).calls, ?_,
      works.trans turn_works⟩
    rw [Driver.command, same, List.append_assoc]

theorem Works.foldl (works : Works origin driver)
    (iterations : List (Wake × Option (Native × Bytes))) :
    Works origin (iterations.foldl Driver.iterate driver) := by
  induction iterations generalizing driver with
  | nil => exact works
  | cons iteration rest induction => exact induction (works.iterate iteration)

/-- Any run, from the start on. -/
theorem run_works (iterations : List (Wake × Option (Native × Bytes))) :
    Works start (run iterations) := by
  have first : Works start start := ⟨[], rfl, start_sound⟩
  exact first.foldl iterations

theorem run_kept (iterations : List (Wake × Option (Native × Bytes))) :
    World.Keeps mayOwn World.empty (run iterations).calls := by
  obtain ⟨calls, same, works⟩ := run_works iterations
  rw [same]
  exact works.kept

/-- The rest of a run, behind its front. -/
theorem run_append (front back : List (Wake × Option (Native × Bytes))) :
    Works (run front) (run (front ++ back)) := by
  rw [run, run, List.foldl_append]
  exact (run_works front).refl.foldl back

end Driver

/-- **The contract of the native library is kept**: whatever the client sends, whatever the native
side answers and whenever the driver wakes, every native call of a run takes objects that are there,
nothing is freed before what it owns, and the live handles and the native objects correspond. -/
theorem contract_kept (iterations : List (Wake × Option (Native × Bytes))) :
    World.Keeps mayOwn World.empty (Driver.run iterations).calls ∧
      (Driver.run iterations).bridge.world =
        World.empty.afterAll (Driver.run iterations).calls ∧
      (Driver.run iterations).bridge.Linked [] := by
  refine ⟨Driver.run_kept iterations, ?_, (Driver.run_works iterations).linked⟩
  obtain ⟨calls, same, works⟩ := Driver.run_works iterations
  rw [same]
  exact works.world

/-- **No use after free, and children first**: once a run has freed an object, no later call of the
run mentions it, and an object is freed only after all that it owns. -/
theorem freed_for_good (iterations : List (Wake × Option (Native × Bytes)))
    {front back : List Call} {class_ : NativeClass} {object : ℕ}
    (freed : (Driver.run iterations).calls = front ++ .free class_ object :: back) :
    (∀ call ∈ back, ¬call.Mentions object) ∧
      ∀ before middle kind child, front = before ++ .create kind (some object) child :: middle →
        ∃ kind, .free kind child ∈ middle := by
  have kept := Driver.run_kept iterations
  rw [freed] at kept
  refine ⟨World.Keeps.freed World.empty_rooted kept, ?_⟩
  rintro before middle kind child rfl
  exact World.Keeps.children World.empty_rooted kept

/-- A native side on which nothing goes wrong and nothing is ready. -/
def Native.willing : Native where
  clock := 0
  clockAgain := 0
  clockRetry := 0
  sequence := fun _ => 0
  telemetry := statusOk
  pinned := 0
  active := 0
  workers := 4
  session := statusOk
  carrierRetained := true
  status := statusOk
  complete := true
  progress := .ready
  words := []
  errorStatus := statusOk
  result := none
  take := statusOk
  request := true
  remoteClosed := false
  connectionFailed := false
  persistentPath := true
  mount := .mounted
  destinationMissing := true
  destinationMade := true
  marked := true
  incomplete := false
  committed := true
  storageClosed := true
  allocated := true
  dump := true
  operationState := 0
  consumed := 0
  output := []
  cancel := statusOk
  locked := true
  workerGone := true
  psqlStarted := true
  psqlWritten := true
  psqlEnd := .closed
  events := []
  identity := id
  files := { kind := fun _ => none, listing := fun _ => [] }
  readCalls :=
    { read := .ok, close := none, openDatabase := none, readdir := fun _ => none, lstat := none
      opendir := none, open_ := none }
  writeCalls := { mkdir := none, open_ := none, write := .ok, fsync := none, close := none }

/-- A command of words, submitted before the driver wakes. -/
def submitted (words : List ℕ) : Wake × Option (Native × Bytes) :=
  ({ now := 0, sequence := fun _ => 0, operationReady := fun _ => false
     progressReady := fun _ => false, event := false },
    some (Native.willing, words.flatMap u32))

/-- `OPEN` at `"/tmp"`, `CONNECT`, `CONNECT_POLL`, `DISCONNECT` and `CLOSE`. -/
def openAndClose : List (Wake × Option (Native × Bytes)) :=
  [submitted [10, 0, 1, 0, 2, 4, 1886221359, 0, 0, 0, 0], submitted [10, 1, 2, 1, 1, 0],
    submitted [10, 2, 17, 2, 1], submitted [10, 3, 6, 2, 1], submitted [10, 4, 7, 1, 1]]

/-- The instance is freed last, behind the connection that it owned. -/
theorem freed_for_good_openAndClose :
    ∃ front, (Driver.run openAndClose).calls = front ++ [.free .instance_ 0] ∧
      ∀ before middle kind child, front = before ++ .create kind (some 0) child :: middle →
        ∃ kind, .free kind child ∈ middle := by
  have freed : (Driver.run openAndClose).calls =
      (Driver.run openAndClose).calls.dropLast ++ .free .instance_ 0 :: [] := by decide +kernel
  exact ⟨_, freed, (freed_for_good openAndClose freed).2⟩

/-- **Within the limits**: over any run there is at most one instance and one logical operation, at
most four sessions, and nothing but the instance while the terminal owns it; generations do not
wrap, a handle that closes has no children unless it is a statement, and what is watched is live. -/
theorem limits_kept (iterations : List (Wake × Option (Native × Bytes))) :
    (Driver.run iterations).bridge.Limited :=
  (Driver.run_works iterations).limited

/-- **Names are not used twice**: a slot and a generation are given out once in a run, a live handle
has a name that was given out, and a handle that is gone is never live again under its name. -/
theorem names_for_good (front back : List (Wake × Option (Native × Bytes))) :
    (Driver.run (front ++ back)).bridge.issued.Nodup ∧
      (Driver.run front).bridge.issued <+: (Driver.run (front ++ back)).bridge.issued ∧
      (∀ slot, ((Driver.run (front ++ back)).bridge.handles slot).kind.isSome →
        (slot, ((Driver.run (front ++ back)).bridge.handles slot).generation) ∈
          (Driver.run (front ++ back)).bridge.issued) ∧
      ∀ slot generation, (slot, generation) ∈ (Driver.run front).bridge.issued →
        ¬(Driver.run front).bridge.Live slot generation →
        ¬(Driver.run (front ++ back)).bridge.Live slot generation := by
  have works := Driver.run_append front back
  have limited := works.limited
  refine ⟨limited.issued.1, works.later.issued, fun slot alive => ?_, ?_⟩
  · rw [limited.issued.2]
    exact ⟨limited.fresh alive, le_rfl⟩
  · intro slot generation given gone alive
    have old := ((Driver.run_works front).limited.issued.2 _ _).mp given
    have grown := works.later.generation slot
    obtain ⟨some, same⟩ := alive
    have equal : ((Driver.run (front ++ back)).bridge.handles slot).generation =
        ((Driver.run front).bridge.handles slot).generation := by omega
    exact gone ⟨works.later.live slot equal some, by omega⟩

end Wasm
end Postgamma
