import Postgamma.Storage.JournalRuns

/-!
# Rejected appends

An append that rejects before its record is complete has done nothing: the namespace in memory is
the old one, and so is the one that a later open finds. Behind a complete record it is too late.
The namespace in memory is still the old one, but an open replays the record. It throws where the
change is refused, and finds the new namespace where only the flush has failed.
-/

namespace Postgamma
namespace Storage

open Text Json LittleEndian CrashFile

variable {β : Type} {objects : List (Nat × File β)} {session : Session β} {journal : Journal}
  {directory : Directory β} {slot : Slot} {file : File UInt8}

/-- Nothing is asked of a crash. -/
abbrev Anything : Image → Prop := fun _ => True

/-- What an open finds behind a complete record: the namespace with the change, if it returns. -/
def Finds (change : Change) (tree : Namespace) (session : Session β) : Prop :=
  ∃ after, Namespace.apply change.value tree = .ok () after ∧
    session.journal.ns.setSequence 0 = after

theorem recover_completed {change : Change} {base ns : Namespace} {log record : Bytes}
    {other : File UInt8} (here : At Anything objects True journal directory session)
    (kept : Kept base journal.generation log ns)
    (encoded : encode change (ns.sequence + 1) = .ok record)
    (found : directory.slots slot = some file)
    (short : (slotBytes base journal.generation log record).length ≤ slotLimit)
    (away : directory.slots slot.other = some other)
    (stale : Stale journal.generation other.content) :
    Yields (Journal.recover slot (snapshotState base journal.generation)
        (slotBytes base journal.generation log record)) session
      (fun _ => Finds change (ns.setSequence 0))
      (fun _ after => Safe Anything objects True after.world) := by
  have limit : slotLimit ≤ journalLimit := by decide
  have part : (log ++ record).length ≤ (slotBytes base journal.generation log record).length := by
    simp [slotBytes]
  have replayed : (base.setSequence 0).replay ((slotBytes base journal.generation log record).drop
      (Checkpoint.snapshotSize base)) = ns.replayFrom log.length (record ++ []) := by
    rw [drop_slotBytes, Namespace.replay, if_neg (by omega), kept.replayFrom, List.append_nil]
  apply Yields.modify_bind
  have there : At Anything objects True { journal with active := slot } directory
      (session.setJournal { session.journal with active := slot }) := by
    rw [here.journal]
    exact here.setJournal _
  simp only [snapshotState, replayed, Namespace.replayFrom_record encoded]
  cases outcome : Namespace.apply change.value ns with
  | error thrown next => exact there.safe
  | ok _ next =>
      simp only [Torn.replayFrom (.inl rfl)]
      have accepted := Namespace.apply_commutes 0 change.value ns
      rw [outcome] at accepted
      apply Yields.modify_bind
      have there : At Anything objects True
          { journal with active := slot, ns := next.setSequence (next.sequence + 1) } directory
          ((session.setJournal { session.journal with active := slot }).setNs
            (next.setSequence (next.sequence + 1))) := by
        rw [Session.setNs, there.journal]
        exact there.setJournal _
      refine Yields.seq (flush_yields there found) (fun _ _ failed => failed.1.safe) ?_
      intro _ after there
      refine (retire_yields there (Directory.setSlot_other.trans away) stale
        fun _ _ _ _ _ => trivial).weaken ?_ (fun _ _ failed => failed.safe)
      intro _ final reached
      refine ⟨_, accepted, ?_⟩
      rw [reached.journal]
      rfl

theorem openSlots_completed {change : Change} {tree : Namespace} {first second : File UInt8}
    (here : At Anything objects True .new directory session)
    (inFirst : directory.slots .first = some first)
    (inSecond : directory.slots .second = some second)
    (completed : Completed change tree directory.contents) :
    Yields Journal.openSlots session (fun _ => Finds change tree)
      (fun _ after => Safe Anything objects True after.world) := by
  obtain ⟨slot, base, ns, generation, log, record, other, kept, rfl, encoded, inSlot, short,
    inOther, stale⟩ := completed
  have limit : slotLimit ≤ journalLimit := by decide
  obtain ⟨file, found, content⟩ := Option.map_eq_some_iff.mp inSlot
  obtain ⟨otherFile, away, otherContent⟩ := Option.map_eq_some_iff.mp inOther
  have bounded : ∀ place present, directory.slots place = some present →
      present.content.length ≤ journalLimit := by
    intro place present there
    rcases slot.eq_or_other place with rfl | rfl
    · rw [← Option.some.inj (found.symm.trans there), content]
      exact short.trans limit
    · rw [← Option.some.inj (away.symm.trans there), otherContent]
      exact stale.short.trans limit
  have failed : ∀ {ns : Namespace} (_ : Thrown) (after : Session β),
      Failed Anything objects True ns after → Safe Anything objects True after.world :=
    fun _ after reached => reached.safe
  refine Yields.seq (openFirst_yields here inFirst) failed ?_
  rintro _ after ⟨rfl, there⟩
  refine Yields.seq (createSyncAccessHandle_yields there .first) failed ?_
  intro _ after there
  refine Yields.seq (read_yields there inFirst (bounded _ _ inFirst)) failed ?_
  rintro _ after ⟨rfl, there⟩
  refine Yields.seq (getFileHandle_yields there inSecond _) (fun _ _ reached => reached.2.2.safe) ?_
  intro _ after there
  refine Yields.seq (createSyncAccessHandle_yields there .second) failed ?_
  intro _ after there
  refine Yields.seq (read_yields there inSecond (bounded _ _ inSecond)) failed ?_
  rintro _ after ⟨rfl, there⟩
  have assigned := there.setJournal { after.journal with generation }
  have recovers := recover_completed assigned kept encoded found short away
    (otherContent.symm ▸ stale)
  exact resume_live false kept inFirst inSecond inSlot inOther stale recovers

/-- An open behind a complete record finds the namespace with the change, or throws. -/
theorem open_completed {change : Change} {tree : Namespace}
    (safe : Safe Anything objects True session.world)
    (completed : Completed change tree session.world.directory.contents) :
    Yields Journal.open session (fun _ => Finds change tree) (fun _ _ => True) := by
  have files (slot : Slot) : ∃ file, session.world.directory.slots slot = some file := by
    obtain ⟨active, _, _, _, _, _, _, -, -, -, inSlot, -, inOther, -⟩ := completed
    rcases active.eq_or_other slot with rfl | rfl
    · exact (Option.map_eq_some_iff.mp inSlot).imp fun _ => And.left
    · exact (Option.map_eq_some_iff.mp inOther).imp fun _ => And.left
  obtain ⟨first, inFirst⟩ := files .first
  obtain ⟨second, inSecond⟩ := files .second
  apply Yields.modify_bind
  have here : At Anything objects True .new session.world.directory (session.setJournal .new) :=
    ⟨rfl, rfl, safe⟩
  refine Yields.tryCatch (openSlots_completed here inFirst inSecond completed) ?_
  intro thrown after reached
  have closed : Yields (tryCatch Journal.close fun _ => return) after (fun _ _ => True)
      (fun _ _ => False) := Yields.tryCatch (close_yields reached |>.weaken (fun _ _ _ => trivial)
        fun _ _ => id) fun _ _ _ => trivial
  exact Yields.seq closed (fun _ _ => False.elim) fun _ _ _ => trivial

/-- A clean open of the directory succeeds and yields the namespace. -/
def Reopens (directory : Directory β) (ns : Namespace) : Prop :=
  ∀ script, (∀ outcome ∈ script, outcome.Clean) →
    ∃ after, Journal.open (directory.start script) = .ok () after ∧ after.journal.ns.Same ns

/-- The namespace in memory is unchanged, and a later open yields it. -/
def Harmless (before : Journal) (after : Session β) : Prop :=
  after.journal.ns.Same before.ns ∧ Reopens after.world.directory before.ns

/-- No append of the run is refused behind its complete record. -/
def Settled : Guard := fun operation journal script =>
  ∀ change, operation = .append change → Settles change journal script

theorem Namespace.same_iff {first second : Namespace} :
    first.Same second ↔ first.setSequence 0 = second.setSequence 0 := by
  simp [Same, setSequence]

theorem Stopped.harmless {tree base : Namespace} {log : Bytes} {broken : Prop}
    {before : Journal} {place : Directory β} (ready : Ready tree base log before place)
    (stopped : Stopped (([] : List (Nat × File β)) = []) tree [] broken session) :
    Harmless before session := by
  refine ⟨Namespace.same_iff.mpr (stopped.same.trans ready.same.symm), ?_⟩
  intro script clean
  have safe : Safe (Holds (([] : List (Nat × File β)) = []) tree) []
      (¬∀ outcome ∈ script, outcome.Clean) (session.world.directory.start script).world := by
    refine ⟨List.mem_singleton_self _, ?_, ?_, (em _).symm⟩
    · intro directory member
      rw [List.mem_singleton.mp member]
      exact stopped.safe.objects _ stopped.safe.current
    · intro directory member
      rw [List.mem_singleton.mp member]
      exact stopped.safe.sound _ stopped.safe.current
  have opens := open_yields safe
  cases outcome : Journal.open (session.world.directory.start script) with
  | ok value after =>
      obtain ⟨base', log', journal', directory', here, ready'⟩ := opens.of_ok outcome
      refine ⟨after, rfl, Namespace.same_iff.mpr ?_⟩
      rw [here.journal, ready'.same, ready.same]
  | error thrown after => exact absurd clean (opens.of_error outcome).1

theorem Late.not_harmless {tree base : Namespace} {log : Bytes} {broken vacant : Prop}
    {before : Journal} {place : Directory β} {change : Change}
    (ready : Ready tree base log before place)
    (late : Late vacant change tree objects broken session) : ¬Harmless before session := by
  rintro ⟨-, reopens⟩
  obtain ⟨after, run, same⟩ := reopens [] (List.forall_mem_nil Outcome.Clean)
  have safe : Safe Anything objects True (session.world.directory.start []).world := by
    refine ⟨List.mem_singleton_self _, ?_, ?_, .inl trivial⟩
    · intro directory member
      rw [List.mem_singleton.mp member]
      exact late.safe.objects _ late.safe.current
    · intro directory member
      rw [List.mem_singleton.mp member]
      exact (late.safe.sound _ late.safe.current).mono fun _ _ => trivial
  obtain ⟨tree', accepted, found⟩ := (open_completed safe late.completed).of_ok run
  obtain ⟨name, -, applied⟩ := Namespace.applied_of_apply accepted
  rw [Namespace.same_iff, found, ready.same] at same
  rcases applied.ne with nodes | nextId
  · exact nodes (congrArg Namespace.nodes same)
  · exact nextId (congrArg Namespace.nextId same)

/-- In every run whose appends are settled, a rejected append is harmless exactly when it has
stopped before its record was complete. -/
theorem rejection_harmless_iff [Inhabited β] {system : System β}
    (reachable : Reachable Settled system) {journal : Journal}
    (isOpen : system.journal = some journal) (change : Change) (script : List Outcome)
    {thrown : Thrown} {after : Session β}
    (rejected : Journal.append change (system.begin script) = .error thrown after) :
    Harmless journal after ↔ recordRest change journal script = none := by
  have sound := reachable.sound fun change _ _ settled => settled change rfl
  obtain ⟨-, base, log, ready, here⟩ := sound.at_ready isOpen script
  rcases (append_yields change here ready).of_error rejected with
    ⟨taken, stopped⟩ | ⟨rest, taken, late, -⟩
  · exact ⟨fun _ => taken, fun _ => stopped.harmless ready⟩
  · refine ⟨fun harmless => absurd harmless (late.not_harmless ready), fun stopped => ?_⟩
    exact absurd (taken.symm.trans stopped) (Option.some_ne_none rest)

/-- The fresh store once it has been opened. -/
def openedSystem : System UInt8 :=
  match Journal.open ((System.initial UInt8).begin []) with
  | .ok _ opened => (System.initial UInt8).returned .open opened
  | .error _ _ => .initial UInt8

theorem reachable_openedSystem :
    Reachable Settled openedSystem ∧ openedSystem.journal.isSome := by
  have evaluated : openedSystem.journal.isSome := by decide +kernel
  refine ⟨?_, evaluated⟩
  rw [openedSystem] at evaluated ⊢
  cases run : Journal.open ((System.initial UInt8).begin []) with
  | ok _ opened => exact .step .initial (.returned (.inl rfl) (fun _ wrong => nomatch wrong) run)
  | error thrown opened => exact .initial

def missingRemoval : Change := .remove Namespace.rootIdentity (ascii "missing")

/-- A record whose first write fails. -/
theorem rejection_harmless_failedWrite : ∃ journal thrown after,
    openedSystem.journal = some journal ∧
      Journal.append missingRemoval (openedSystem.begin [.fail 3]) = .error thrown after ∧
      Harmless journal after := by
  obtain ⟨reachable, isOpen⟩ := reachable_openedSystem
  obtain ⟨journal, found⟩ := Option.isSome_iff_exists.mp isOpen
  have stopped : (openedSystem.journal.bind fun journal =>
      recordRest missingRemoval journal [.fail 3]) = none := by decide +kernel
  have rejects : (match Journal.append missingRemoval (openedSystem.begin [.fail 3]) with
      | .ok _ _ => false
      | .error _ _ => true) = true := by decide +kernel
  rw [found] at stopped
  cases run : Journal.append missingRemoval (openedSystem.begin [.fail 3]) with
  | ok _ after =>
      rw [run] at rejects
      exact absurd rejects Bool.false_ne_true
  | error thrown after =>
      exact ⟨journal, thrown, after, found, rfl,
        (rejection_harmless_iff reachable found missingRemoval [.fail 3] run).mpr stopped⟩

/-- Removing a file that is not there is rejected behind its record, and no open succeeds again. -/
theorem not_harmless_missingRemoval : ∃ journal thrown after,
    Reachable Settled openedSystem ∧ openedSystem.journal = some journal ∧
      Journal.append missingRemoval (openedSystem.begin []) = .error thrown after ∧
      ¬Harmless journal after := by
  obtain ⟨reachable, isOpen⟩ := reachable_openedSystem
  obtain ⟨journal, found⟩ := Option.isSome_iff_exists.mp isOpen
  have evaluated : (match Journal.append missingRemoval (openedSystem.begin []) with
      | .ok _ _ => false
      | .error _ after =>
          match Journal.open (after.world.directory.start []) with
          | .ok _ _ => false
          | .error _ _ => true) = true := by decide +kernel
  cases run : Journal.append missingRemoval (openedSystem.begin []) with
  | ok _ after =>
      rw [run] at evaluated
      exact absurd evaluated Bool.false_ne_true
  | error thrown after =>
      refine ⟨journal, thrown, after, reachable, found, rfl, ?_⟩
      rintro ⟨-, reopens⟩
      obtain ⟨final, succeeds, -⟩ := reopens [] (List.forall_mem_nil Outcome.Clean)
      rw [run] at evaluated
      simp only [succeeds] at evaluated
      exact absurd evaluated Bool.false_ne_true

end Storage
end Postgamma
