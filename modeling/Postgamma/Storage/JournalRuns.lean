import Postgamma.Storage.JournalOpen

/-!
# Runs of the journal

A run opens the journal, appends changes and takes checkpoints, and crashes at any point of any
operation, recovery included. The history of the changes it owes is kept beside it: every
acknowledged change, and a change that was in flight at a crash once an open has brought it back.
-/

namespace Postgamma
namespace Storage

open Text Json LittleEndian CrashFile

namespace Namespace

/-- The namespace behind a change; a refused one leaves it as it is. -/
def advance (ns : Namespace) (change : Change) : Namespace :=
  match apply change.value ns with
  | .ok _ after => after
  | .error _ after => after

/-- The namespace that a history of changes leads to. -/
def applyAll (history : List Change) : Namespace := history.foldl advance .initial

theorem applyAll_append (history : List Change) (change : Change) :
    applyAll (history ++ [change]) = (applyAll history).advance change := by
  rw [applyAll, List.foldl_append]
  rfl

theorem advance_eq {ns after : Namespace} {change : Change}
    (accepted : apply change.value ns = .ok () after) : ns.advance change = after := by
  rw [advance, accepted]

end Namespace

/-- What a crash leaves of a directory: every file durable, each cut back on its own. -/
structure Directory.Restarts {β : Type} [Inhabited β] (directory after : Directory β) : Prop where
  /-- The journal files. -/
  slots : ∃ image, Crashes directory.slots image ∧
    ∀ slot, after.slots slot = (image slot).map .ofBytes
  objects : List.Forall₂ (fun old new => new.1 = old.1 ∧
    ∃ left, old.2.Survives left ∧ new.2 = .ofBytes left) directory.objects after.objects

variable {β : Type}

/-- A crash has one outcome, and the directory is left with that one alone. -/
theorem Directory.Restarts.sound [Inhabited β] {allowed : Image → Prop}
    {directory after : Directory β} (restarts : directory.Restarts after)
    (sound : Sound allowed directory.slots) :
    ∃ image, allowed image ∧ ∀ allowed' : Image → Prop, allowed' image →
      Sound allowed' after.slots := by
  obtain ⟨image, crashes, slots⟩ := restarts.slots
  refine ⟨image, sound.images image crashes, fun allowed' holds => ⟨?_, ?_⟩⟩
  · intro image' crashes'
    have same : image' = image := by
      funext slot
      have leaves := crashes' slot
      rw [slots] at leaves
      cases here : image slot with
      | none =>
          cases there : image' slot with
          | none => rfl
          | some bytes => simp [here, there, Leaves] at leaves
      | some bytes =>
          rw [here] at leaves
          obtain ⟨left, there, survives⟩ := leaves_some leaves
          rw [there, File.survives_ofBytes.mp survives]
    rw [same]
    exact holds
  · intro slot file found empty left survives
    rw [slots] at found
    obtain ⟨bytes, -, rfl⟩ := Option.map_eq_some_iff.mp found
    exact (File.survives_ofBytes.mp survives).trans empty

theorem Directory.Restarts.objects_nil [Inhabited β] {directory after : Directory β}
    (restarts : directory.Restarts after) (empty : directory.objects = []) : after.objects = [] := by
  have objects := restarts.objects
  rw [empty] at objects
  exact List.forall₂_nil_left_iff.mp objects

/-- An operation on the journal. -/
inductive Operation where
  /-- `open`. -/
  | «open»
  | append (change : Change)
  | checkpoint

def Operation.run : Operation → Action β Unit
  | .open => Journal.open
  | .append change => Journal.append change
  | .checkpoint => Journal.checkpoint

/-- The journal between two operations. -/
structure System (β : Type) where
  /-- The directory, with what is not yet durable. -/
  directory : Directory β
  /-- The journal object, if one is open. -/
  journal : Option Journal
  /-- The changes that are part of the namespace. -/
  history : List Change
  /-- The change whose append a crash has cut off. -/
  inflight : Option Change

namespace System

/-- A fresh store. -/
def initial (β : Type) : System β :=
  { directory := .empty β, journal := none, history := [], inflight := none }

/-- The start of an operation with the outcomes of its calls. -/
def begin (system : System β) (script : List Outcome) : Session β :=
  (system.directory.start script).setJournal (system.journal.getD .new)

/-- The history behind an open: the change in flight is part of it if it is in the namespace. -/
def settle (system : System β) (ns : Namespace) : List Change :=
  match system.inflight with
  | none => system.history
  | some change =>
      if ns.setSequence 0 = .applyAll (system.history ++ [change]) then system.history ++ [change]
      else system.history

/-- The state behind an operation that has returned. -/
def returned (system : System β) (operation : Operation) (after : Session β) : System β where
  directory := after.world.directory
  journal := some after.journal
  history :=
    match operation with
    | .open => system.settle after.journal.ns
    | .append change => system.history ++ [change]
    | .checkpoint => system.history
  inflight := none

/-- The state behind a crash during an operation. -/
def crashed (system : System β) (operation : Operation) (directory : Directory β) : System β where
  directory
  journal := none
  history := system.history
  inflight :=
    match operation with
    | .append change => some change
    | _ => system.inflight

end System

/-- Conditions on an operation, the journal object it starts from and the outcomes of its calls. -/
abbrev Guard := Operation → Journal → List Outcome → Prop

/-- One operation, or the part of it in front of a crash. A journal object is not used again once
a call has failed in one of its operations. -/
inductive Step [Inhabited β] (guard : Guard) (system : System β) : System β → Prop where
  | returned {operation : Operation} {script : List Outcome} {after : Session β}
      (isOpen : operation = .open ∨ system.journal.isSome)
      (guarded : guard operation (system.begin script).journal script)
      (run : operation.run (system.begin script) = .ok () after) :
      Step guard system (system.returned operation after)
  | refused {operation : Operation} {script : List Outcome} {thrown : Thrown}
      {after : Session β} (isOpen : system.journal.isSome)
      (guarded : guard operation (system.begin script).journal script)
      (clean : ∀ outcome ∈ script, outcome.Clean) (running : operation ≠ .open)
      (run : operation.run (system.begin script) = .error thrown after) :
      Step guard system
        { system with directory := after.world.directory, journal := some after.journal }
  | failed {operation : Operation} {script : List Outcome} {thrown : Thrown} {after : Session β}
      (isOpen : operation = .open ∨ system.journal.isSome)
      (guarded : guard operation (system.begin script).journal script)
      (run : operation.run (system.begin script) = .error thrown after) :
      Step guard system { system with directory := after.world.directory, journal := none }
  | crashed {operation : Operation} {script : List Outcome} {directory after : Directory β}
      (isOpen : operation = .open ∨ system.journal.isSome)
      (guarded : guard operation (system.begin script).journal script)
      (point : Yields operation.run (system.begin script)
        (fun _ final => directory ∈ final.world.past)
        (fun _ final => directory ∈ final.world.past))
      (restarts : directory.Restarts after) :
      Step guard system (system.crashed operation after)

/-- The states that a run reaches from a fresh store. -/
inductive Reachable [Inhabited β] (guard : Guard) : System β → Prop where
  | initial : Reachable guard (.initial β)
  | step {system next : System β} (before : Reachable guard system)
      (step : Step guard system next) : Reachable guard next

/-- The histories that an open may find. -/
def System.Possible (system : System β) (history : List Change) : Prop :=
  history = system.history ∨
    ∃ change, system.inflight = some change ∧ history = system.history ++ [change]

/-- Two namespaces with the same nodes and the same next identity. -/
def Namespace.Same (first second : Namespace) : Prop :=
  first.nodes = second.nodes ∧ first.nextId = second.nextId

/-- What holds between two operations. -/
structure System.Sound (system : System β) : Prop where
  /-- There are no data objects. -/
  vacant : system.directory.objects = []
  /-- The slots hold the namespace of a possible history, whatever a crash does. -/
  holds : ∃ history, system.Possible history ∧
    Storage.Sound (Holds (([] : List (Nat × File β)) = []) (.applyAll history))
      system.directory.slots
  /-- An open journal is ready, and nothing is in flight. -/
  ready : ∀ journal, system.journal = some journal → system.inflight = none ∧
    ∃ base log, Ready (.applyAll system.history) base log journal system.directory

/-- An append that is not refused behind its complete record. -/
def Settles (change : Change) (journal : Journal) (script : List Outcome) : Prop :=
  ∀ rest, recordRest change journal script = some rest →
    change.Lossless ∧ (∃ after, Namespace.apply change.value journal.ns = .ok () after) ∧
      FileCall.rest .single rest ≠ none

theorem System.Sound.safe {system : System β} (sound : system.Sound) (script : List Outcome)
    {allowed : Image → Prop} (slots : Storage.Sound allowed system.directory.slots) :
    Safe allowed [] (¬∀ outcome ∈ script, outcome.Clean) (system.begin script).world where
  current := List.mem_singleton_self _
  objects := by
    intro directory member
    rw [List.mem_singleton.mp member]
    exact sound.vacant
  sound := by
    intro directory member
    rw [List.mem_singleton.mp member]
    exact slots
  clean := (em _).symm

theorem System.Sound.opens {system : System β} (sound : system.Sound) (script : List Outcome) :
    ∃ history, system.Possible history ∧
      Opens (.applyAll history) [] (¬∀ outcome ∈ script, outcome.Clean) Journal.open
        (system.begin script) := by
  obtain ⟨history, possible, slots⟩ := sound.holds
  exact ⟨history, possible, open_yields (sound.safe script slots)⟩

section Step

variable {system : System β} {operation : Operation} {script : List Outcome} {session : Session β}
  {history : List Change} {broken : Prop}

/-- The namespace that the slots of a run hold. -/
abbrev Keeps (β : Type) (history : List Change) : Image → Prop :=
  Holds (([] : List (Nat × File β)) = []) (.applyAll history)

theorem System.Sound.closed {next : System β}
    (safe : Safe (Keeps β history) [] broken session.world) (possible : next.Possible history)
    (place : next.directory = session.world.directory) (noJournal : next.journal = none) :
    next.Sound where
  vacant := by rw [place, safe.objects _ safe.current]
  holds := ⟨history, possible, by rw [place]; exact safe.sound _ safe.current⟩
  ready := by simp [noJournal]

theorem System.Sound.crashed [Inhabited β] {allowed : Image → Prop} {directory after : Directory β}
    (safe : Safe allowed [] broken session.world) (member : directory ∈ session.world.past)
    (restarts : directory.Restarts after)
    (possible : ∀ image, allowed image →
      ∃ history, (system.crashed operation after).Possible history ∧ Keeps β history image) :
    (system.crashed operation after).Sound := by
  obtain ⟨image, isAllowed, sound⟩ := restarts.sound (safe.sound directory member)
  obtain ⟨history, isPossible, holds⟩ := possible image isAllowed
  refine ⟨restarts.objects_nil (safe.objects directory member), ?_, ?_⟩
  · exact ⟨history, isPossible, sound _ holds⟩
  · intro journal wrong
    exact absurd wrong.symm (Option.some_ne_none journal)

variable {journal : Journal}

theorem System.Sound.opened {base : Namespace} {log : Bytes}
    {directory : Directory β} {allowed : Image → Prop}
    (here : At allowed [] broken journal directory session)
    (ready : Ready (.applyAll history) base log journal directory) :
    System.Sound
      { directory := session.world.directory, journal := some session.journal, history,
        inflight := none } := by
  refine ⟨?_, ⟨history, .inl rfl, ?_⟩, ?_⟩
  · exact here.safe.objects _ here.safe.current
  · rw [here.directory]
    exact ready.sound
  · intro journal' same
    rw [← Option.some.inj same, here.journal, here.directory]
    exact ⟨rfl, base, log, ready⟩

theorem System.settle_eq {ns : Namespace} (possible : system.Possible history)
    (same : ns.setSequence 0 = .applyAll history) :
    Namespace.applyAll (system.settle ns) = .applyAll history := by
  rw [System.settle]
  rcases possible with rfl | ⟨change, inflight, rfl⟩
  · cases system.inflight with
    | none => rfl
    | some change =>
        dsimp only
        split_ifs with found
        · rw [← found, same]
        · rfl
  · rw [inflight]
    dsimp only
    rw [if_pos same]

/-- Every outcome of an operation, and every crash on the way, keeps what the next open needs. -/
def System.Keeping [Inhabited β] (system : System β) (operation : Operation)
    (script : List Outcome) : Prop :=
  let recoverable := fun session : Session β => ∀ directory ∈ session.world.past, ∀ after,
    directory.Restarts after → (system.crashed operation after).Sound
  Yields operation.run (system.begin script)
    (fun _ after => recoverable after ∧ (system.returned operation after).Sound)
    (fun _ after => recoverable after ∧
      System.Sound { system with directory := after.world.directory, journal := none } ∧
      (operation ≠ .open → (∀ outcome ∈ script, outcome.Clean) →
        System.Sound
          { system with directory := after.world.directory, journal := some after.journal }))

theorem System.Sound.keeping_open [Inhabited β] (sound : system.Sound) (script : List Outcome) :
    system.Keeping .open script := by
  obtain ⟨history, possible, opens⟩ := sound.opens script
  refine opens.weaken ?_ ?_
  · rintro _ after ⟨base, log, journal, directory, here, ready⟩
    refine ⟨fun directory member after' restarts => ?_, ?_⟩
    · exact .crashed here.safe member restarts fun image holds => ⟨history, possible, holds⟩
    · have same : after.journal.ns.setSequence 0 = .applyAll history := by
        rw [here.journal, ready.same]
      rw [← system.settle_eq possible same] at ready
      exact .opened here ready
  · rintro _ after ⟨-, safe⟩
    refine ⟨fun directory member after' restarts => ?_, ?_, fun wrong => absurd rfl wrong⟩
    · exact .crashed safe member restarts fun image holds => ⟨history, possible, holds⟩
    · exact .closed safe possible rfl rfl

theorem System.Sound.at_ready (sound : system.Sound)
    (isOpen : system.journal = some journal) (script : List Outcome) :
    system.inflight = none ∧ ∃ base log,
      Ready (.applyAll system.history) base log journal system.directory ∧
      At (Keeps β system.history) [] (¬∀ outcome ∈ script, outcome.Clean) journal
        system.directory (system.begin script) := by
  obtain ⟨none, base, log, ready⟩ := sound.ready journal isOpen
  refine ⟨none, base, log, ready, ?_, rfl, sound.safe script ready.sound⟩
  rw [System.begin, isOpen]
  rfl

theorem System.Sound.keeping_checkpoint [Inhabited β] (sound : system.Sound)
    (isOpen : system.journal = some journal) (script : List Outcome) :
    system.Keeping .checkpoint script := by
  obtain ⟨inflight, base, log, ready, here⟩ := sound.at_ready isOpen script
  have crashes {broken : Prop} {after : Session β}
      (safe : Safe (Keeps β system.history) [] broken after.world) :
      ∀ directory ∈ after.world.past, ∀ after', directory.Restarts after' →
        (system.crashed .checkpoint after').Sound := by
    intro directory member after' restarts
    exact .crashed safe member restarts fun image holds => ⟨system.history, .inl rfl, holds⟩
  refine (checkpoint_yields here (fun _ => id) ready.turning).weaken ?_ ?_
  · rintro _ after ⟨journal', directory', there, ready', -⟩
    exact ⟨crashes there.safe, .opened there ready'⟩
  · rintro _ after (⟨rfl, -⟩ | failed)
    · refine ⟨crashes here.safe, .closed here.safe (.inl rfl) rfl rfl, fun _ _ => ?_⟩
      rw [inflight]
      exact .opened here ready
    · refine ⟨crashes failed.safe, .closed failed.safe (.inl rfl) rfl rfl, ?_⟩
      exact fun _ clean => absurd clean failed.cause

/-- The condition of an append, for the tree that the namespace in memory stands for. -/
theorem Settles.accepted {change : Change} {rest : List Outcome}
    {tree : Namespace} (settles : Settles change journal script)
    (taken : recordRest change journal script = some rest)
    (same : journal.ns.setSequence 0 = tree) :
    ∃ after, Namespace.apply change.value tree = .ok () after := by
  obtain ⟨-, ⟨after, accepted⟩, -⟩ := settles rest taken
  have commute := Namespace.apply_commutes 0 change.value journal.ns
  rw [accepted] at commute
  subst same
  exact ⟨_, commute⟩

theorem System.Sound.keeping_append [Inhabited β] (sound : system.Sound)
    (isOpen : system.journal = some journal) {change : Change}
    (settles : Settles change journal script) : system.Keeping (.append change) script := by
  obtain ⟨inflight, base, log, ready, here⟩ := sound.at_ready isOpen script
  have old (image : Image) (after : Directory β) (holds : Keeps β system.history image) :
      ∃ history, (system.crashed (.append change) after).Possible history ∧
        Keeps β history image := ⟨system.history, .inl rfl, holds⟩
  refine (append_yields change here ready).weaken ?_ ?_
  · rintro _ after ⟨rest, tree', base', log', journal', directory', taken, accepted, there, ready'⟩
    have lossless := (settles rest taken).1
    have grown : Namespace.applyAll (system.history ++ [change]) = tree' := by
      rw [Namespace.applyAll_append, Namespace.advance_eq accepted]
    refine ⟨fun directory member after' restarts => ?_, ?_⟩
    · refine .crashed there.safe member restarts ?_
      rintro image (holds | completed)
      · exact old image after' holds
      · refine ⟨system.history ++ [change], .inr ⟨change, rfl, rfl⟩, ?_⟩
        rw [Keeps, grown]
        exact completed.holds lossless accepted
    · refine .opened there (?_ : Ready (.applyAll (system.history ++ [change])) base' log' _ _)
      rw [grown]
      exact ready' lossless
  · rintro _ after (⟨-, stopped⟩ | ⟨rest, taken, -, cause⟩)
    · refine ⟨fun directory member after' restarts => ?_, ?_, fun _ clean => ?_⟩
      · exact .crashed stopped.safe member restarts fun image => old image after'
      · exact .closed stopped.safe (.inl rfl) rfl rfl
      · obtain ⟨base', log', ready'⟩ := stopped.ready.resolve_left (not_not.mpr clean)
        rw [inflight]
        exact .opened ⟨rfl, rfl, stopped.safe⟩ ready'
    · -- The append is not refused behind its record.
      obtain ⟨tree', accepted⟩ := settles.accepted taken ready.same
      rcases cause with stopped | ⟨thrown, refused⟩
      · exact absurd stopped (settles rest taken).2.2
      · rw [accepted] at refused
        cases refused

end Step

/-- A step of a run keeps what the next open needs. -/
theorem System.Sound.step [Inhabited β] {guard : Guard} {system next : System β}
    (settles : ∀ change journal script, guard (.append change) journal script →
      Settles change journal script)
    (sound : system.Sound) (step : Step guard system next) : next.Sound := by
  have keeping {operation : Operation} {script : List Outcome}
      (isOpen : operation = .open ∨ system.journal.isSome)
      (guarded : guard operation (system.begin script).journal script) :
      system.Keeping operation script := by
    cases operation with
    | «open» => exact sound.keeping_open script
    | append change =>
        obtain ⟨journal, found⟩ := Option.isSome_iff_exists.mp (isOpen.resolve_left (by simp))
        have same : (system.begin script).journal = journal := by rw [System.begin, found]; rfl
        rw [same] at guarded
        exact sound.keeping_append found (settles change journal script guarded)
    | checkpoint =>
        obtain ⟨journal, found⟩ := Option.isSome_iff_exists.mp (isOpen.resolve_left (by simp))
        exact sound.keeping_checkpoint found script
  cases step with
  | returned isOpen guarded run => exact ((keeping isOpen guarded).of_ok run).2
  | refused isOpen guarded clean running run =>
      exact ((keeping (.inr isOpen) guarded).of_error run).2.2 running clean
  | failed isOpen guarded run => exact ((keeping isOpen guarded).of_error run).2.1
  | @crashed operation script directory after isOpen guarded point restarts =>
      have both := point.and (keeping isOpen guarded)
      cases outcome : operation.run (system.begin script) with
      | ok value final =>
          obtain ⟨member, recoverable, -⟩ := both.of_ok outcome
          exact recoverable directory member after restarts
      | error thrown final =>
          obtain ⟨member, recoverable, -⟩ := both.of_error outcome
          exact recoverable directory member after restarts

theorem System.sound_initial : (System.initial β).Sound := by
  refine ⟨rfl, ⟨[], .inl rfl, ?_, ?_⟩, ?_⟩
  · intro image crashes
    have missing (slot : Slot) : image slot = none := by
      have leaves := crashes slot
      cases found : image slot with
      | none => rfl
      | some bytes =>
          rw [found] at leaves
          exact leaves.elim
    refine .fresh rfl rfl (.inl (missing .first)) ?_ (fun _ => missing .second)
    intro bytes wrong
    rw [missing] at wrong
    exact absurd wrong.symm (Option.some_ne_none bytes)
  · intro slot file wrong
    exact absurd wrong.symm (Option.some_ne_none file)
  · intro journal wrong
    exact absurd wrong.symm (Option.some_ne_none journal)

theorem Reachable.sound [Inhabited β] {guard : Guard} {system : System β}
    (settles : ∀ change journal script, guard (.append change) journal script →
      Settles change journal script)
    (reachable : Reachable guard system) : system.Sound := by
  induction reachable with
  | initial => exact System.sound_initial
  | step _ step induction => exact induction.step settles step

/-- No call fails, and an append is one of a valid change whose name survives a snapshot. -/
def Orderly : Guard := fun operation journal script =>
  (∀ outcome ∈ script, outcome.Clean) ∧
    ∀ change, operation = .append change →
      change.Lossless ∧ ∃ after, Namespace.apply change.value journal.ns = .ok () after

theorem Orderly.settles {change : Change} {journal : Journal} {script : List Outcome}
    (orderly : Orderly (.append change) journal script) : Settles change journal script := by
  intro rest taken
  obtain ⟨lossless, valid⟩ := orderly.2 change rfl
  refine ⟨lossless, valid, ?_⟩
  exact single_of_clean fun outcome member =>
    orderly.1 outcome ((recordRest_suffix taken).subset member)

/-- From every state that a run reaches, the next open succeeds and yields the acknowledged
changes, perhaps with the one that was in flight behind them. -/
theorem open_recovers [Inhabited β] {system : System β} (reachable : Reachable Orderly system)
    {script : List Outcome} (clean : ∀ outcome ∈ script, outcome.Clean) :
    ∃ after history, Journal.open (system.begin script) = .ok () after ∧
      system.Possible history ∧ after.journal.ns.Same (.applyAll history) := by
  have sound := reachable.sound fun _ _ _ => Orderly.settles
  obtain ⟨history, possible, opens⟩ := sound.opens script
  cases outcome : Journal.open (system.begin script) with
  | ok value after =>
      obtain ⟨base, log, journal, directory, here, ready⟩ := opens.of_ok outcome
      refine ⟨after, history, rfl, possible, ?_⟩
      rw [here.journal, ← ready.same]
      exact ⟨rfl, rfl⟩
  | error thrown after => exact absurd clean (opens.of_error outcome).1

theorem open_recovers_twice : ∃ system : System UInt8, system.journal.isSome ∧
    ∃ after history, Journal.open (system.begin [.short 7]) = .ok () after ∧
      system.Possible history ∧ after.journal.ns.Same (.applyAll history) := by
  have fresh : Reachable Orderly (System.initial UInt8) := .initial
  obtain ⟨after, -, run, -⟩ := open_recovers fresh (List.forall_mem_nil Outcome.Clean)
  refine ⟨(System.initial UInt8).returned .open after, rfl, open_recovers ?_ ?_⟩
  · exact .step .initial (.returned (.inl rfl) ⟨by simp, by simp⟩ run)
  · simp [Outcome.Clean]

end Storage
end Postgamma
