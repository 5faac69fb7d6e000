import Postgamma.Storage.JournalAppend

/-!
# Opening the journal

Whatever a crash or a failed call has left in the slots, as long as they hold a namespace,
`open` returns with that namespace and a ready journal, and the slots hold it all the way: opening
may itself be interrupted any number of times.
-/

namespace Postgamma
namespace Storage

open Text Json LittleEndian CrashFile

variable {β : Type} {allowed : Image → Prop} {objects : List (Nat × File β)} {broken vacant : Prop}
  {session : Session β} {journal : Journal} {directory : Directory β} {slot : Slot}
  {file : File UInt8}

theorem handleRead_yields (here : At allowed objects broken journal directory session)
    (found : directory.slots slot = some file) (length offset : Nat) :
    Yields (AccessHandle.read slot length offset) session
      (fun bytes after => (∃ count, bytes = ((file.content.drop offset).take length).take count) ∧
        (broken ∨ (file.content.drop offset).take length = [] ∨ bytes ≠ []) ∧
        At allowed objects broken journal directory after)
      (fun _ => Failed allowed objects broken journal.ns) := by
  apply Yields.get_bind
  rw [here.file_eq found]
  generalize (file.content.drop offset).take length = bytes
  refine Yields.seq (outcome_yields here) (fun _ _ => False.elim) ?_
  rintro result after ⟨clean, there⟩
  cases result with
  | full =>
      refine ⟨⟨bytes.length, (List.take_length).symm⟩, ?_, there⟩
      exact .inr (em (bytes = []))
  | short count =>
      refine ⟨⟨count, rfl⟩, clean.imp_right fun positive => ?_, there⟩
      have positive : 0 < count := positive
      rcases Nat.eq_zero_or_pos bytes.length with empty | some
      · exact .inl (List.length_eq_zero_iff.mp empty)
      · refine .inr (List.ne_nil_of_length_pos ?_)
        rw [List.length_take]
        omega
  | fail count => exact there.failed (clean.resolve_right id)

theorem readFrom_yields {remaining offset : Nat}
    (here : At allowed objects broken journal directory session)
    (found : directory.slots slot = some file) (whole : offset + remaining = file.content.length) :
    Yields (Journal.readFrom slot remaining offset) session
      (fun bytes after => bytes = file.content.drop offset ∧
        At allowed objects broken journal directory after)
      (fun _ => Failed allowed objects broken journal.ns) := by
  induction remaining using Nat.strong_induction_on generalizing offset session with
  | _ remaining induction =>
      rw [Journal.readFrom]
      by_cases done : remaining = 0
      · rw [if_pos done]
        exact ⟨(List.drop_eq_nil_of_le (by omega)).symm, here⟩
      · rw [if_neg done]
        refine Yields.bind (handleRead_yields here found remaining offset) ?_
        rintro bytes after ⟨⟨count, taken⟩, progress, there⟩
        have all : (file.content.drop offset).take remaining = file.content.drop offset :=
          List.take_of_length_le (by rw [List.length_drop]; omega)
        rw [all] at taken progress
        have length : bytes.length ≤ remaining := by
          rw [taken, List.length_take, List.length_drop]
          omega
        split_ifs with stuck
        · refine there.failed ?_
          rcases progress with isBroken | empty | some
          · exact isBroken
          · have short := congrArg List.length empty
            rw [List.length_drop, List.length_nil] at short
            omega
          · have := List.length_pos_iff.mpr some
            omega
        · refine Yields.bind (induction (remaining - bytes.length) (by omega) there (by omega)) ?_
          rintro rest final ⟨tail, reached⟩
          refine ⟨?_, reached⟩
          rw [tail, ← List.drop_drop]
          have front : bytes = (file.content.drop offset).take bytes.length := by
            rw [taken, List.length_take, ← List.take_take, List.take_length]
          conv_lhs =>
            enter [1]
            rw [front]
          exact List.take_append_drop _ _

theorem read_yields (here : At allowed objects broken journal directory session)
    (found : directory.slots slot = some file) (short : file.content.length ≤ journalLimit) :
    Yields (Journal.read slot) session
      (fun bytes after => bytes = file.content ∧
        At allowed objects broken (journal.withSize slot file.content.length) directory after)
      (fun _ => Failed allowed objects broken journal.ns) := by
  have size : Yields (AccessHandle.getSize slot) session
      (fun size after => size = file.content.length ∧
        At allowed objects broken journal directory after)
      (fun _ => Failed allowed objects broken journal.ns) := by
    refine Yields.seq (outcome_yields here) (fun _ _ => False.elim) ?_
    rintro result after ⟨clean, there⟩
    have known : (after.file slot).content.length = file.content.length := by
      rw [there.file_eq found]
    cases result with
    | full => exact ⟨known, there⟩
    | short count => exact ⟨known, there⟩
    | fail count => exact there.failed (clean.resolve_right id)
  refine Yields.bind size ?_
  rintro _ after ⟨rfl, there⟩
  rw [if_neg (by omega)]
  apply Yields.modify_bind
  refine (readFrom_yields (there.setSize slot _) found (Nat.zero_add _)).weaken ?_ (fun _ _ => id)
  rintro bytes final ⟨read, reached⟩
  exact ⟨read.trans List.drop_zero, reached⟩

theorem getFileHandle_yields (here : At allowed objects broken journal directory session)
    (found : directory.slots slot = some file) (create : Bool) :
    Yields (getFileHandle slot create) session
      (fun _ => At allowed objects broken journal directory)
      (fun thrown after => thrown = .unknown ∧ broken ∧
        At allowed objects broken journal directory after) := by
  refine Yields.seq (outcome_yields here) (fun _ _ => False.elim) ?_
  rintro result after ⟨clean, there⟩
  have located : after.world.directory.slots slot = some file := by rw [there.directory, found]
  cases result with
  | full | short count =>
      apply Yields.get_bind
      rw [located]
      exact there
  | fail count => exact ⟨rfl, clean.resolve_right id, there⟩

theorem getFileHandle_create (here : At allowed objects broken journal directory session)
    (missing : directory.slots slot = none)
    (sound : Sound allowed (directory.setSlot slot (.ofBytes [])).slots) :
    Yields (getFileHandle slot true) session
      (fun _ => At allowed objects broken journal (directory.setSlot slot (.ofBytes [])))
      (fun _ after => broken ∧ At allowed objects broken journal directory after) := by
  refine Yields.seq (outcome_yields here) (fun _ _ => False.elim) ?_
  rintro result after ⟨clean, there⟩
  have located : after.world.directory.slots slot = none := by rw [there.directory, missing]
  cases result with
  | full | short count =>
      apply Yields.get_bind
      rw [located]
      exact there.setSlot sound
  | fail count => exact ⟨clean.resolve_right id, there⟩

theorem getFileHandle_missing (here : At allowed objects broken journal directory session)
    (missing : directory.slots slot = none) :
    Yields (getFileHandle slot false) session (fun _ _ => False)
      (fun thrown after => (thrown = .notFound "missing" ∨ thrown = .unknown ∧ broken) ∧
        At allowed objects broken journal directory after) := by
  refine Yields.seq (outcome_yields here) (fun _ _ => False.elim) ?_
  rintro result after ⟨clean, there⟩
  have located : after.world.directory.slots slot = none := by rw [there.directory, missing]
  cases result with
  | full | short count =>
      apply Yields.get_bind
      rw [located]
      exact ⟨.inl rfl, there⟩
  | fail count => exact ⟨.inr ⟨rfl, clean.resolve_right id⟩, there⟩

theorem createSyncAccessHandle_yields
    (here : At allowed objects broken journal directory session) (slot : Slot) :
    Yields (createSyncAccessHandle slot) session
      (fun _ => At allowed objects broken { journal with handles := journal.handles ++ [slot] }
        directory)
      (fun _ => Failed allowed objects broken journal.ns) := by
  refine Yields.seq (outcome_yields here) (fun _ _ => False.elim) ?_
  rintro result after ⟨clean, there⟩
  have pushed : At allowed objects broken { journal with handles := journal.handles ++ [slot] }
      directory (after.setJournal
        { after.journal with handles := after.journal.handles ++ [slot] }) := by
    rw [there.journal]
    exact there.setJournal _
  cases result with
  | full | short count => exact pushed
  | fail count => exact there.failed (clean.resolve_right id)

/-- The file is there, and opening it says so. -/
theorem openFirst_yields (here : At allowed objects broken journal directory session)
    (found : directory.slots .first = some file) :
    Yields Journal.openFirst session
      (fun fresh after => fresh = false ∧ At allowed objects broken journal directory after)
      (fun _ => Failed allowed objects broken journal.ns) := by
  refine Yields.tryCatch (Yields.bind (getFileHandle_yields here found false) ?_) ?_
  · exact fun _ after there => ⟨rfl, there⟩
  · rintro _ after ⟨rfl, isBroken, there⟩
    exact there.failed isBroken

theorem openFirst_create (here : At allowed [] broken journal directory session)
    (missing : directory.slots .first = none) (alone : directory.slots .second = none)
    (sound : Sound allowed (directory.setSlot .first (.ofBytes [])).slots) :
    Yields Journal.openFirst session
      (fun fresh after => fresh = true ∧
        At allowed [] broken journal (directory.setSlot .first (.ofBytes [])) after)
      (fun _ => Failed allowed [] broken journal.ns) := by
  refine Yields.tryCatch (Yields.bind (getFileHandle_missing here missing) ?_) ?_
  · exact fun _ _ => False.elim
  · rintro _ after ⟨rfl | ⟨rfl, isBroken⟩, there⟩
    · apply Yields.get_bind
      rw [there.directory]
      have empty : ¬((directory.slots .second).isSome ∨ directory.objects ≠ []) := by
        rw [alone, there.objects_eq]
        simp
      simp only [if_neg empty]
      refine Yields.seq (getFileHandle_create there missing sound) ?_ ?_
      · rintro _ final ⟨isBroken, reached⟩
        exact reached.failed isBroken
      · exact fun _ final reached => ⟨rfl, reached⟩
    · exact there.failed isBroken

theorem candidates_first {first second : Bytes} {state : Checkpoint.Restored}
    (restored : Checkpoint.restore first = .ok state) (stale : Stale state.generation second) :
    ∃ rest, Journal.candidates first second = (.first, state) :: rest ∧
      ∀ older ∈ rest, older.2.generation < state.generation := by
  cases other : Checkpoint.restore second with
  | error thrown => exact ⟨[], by simp [Journal.candidates, restored, other], by simp⟩
  | ok second' =>
      have older := stale.older second' other
      refine ⟨[(.second, second')], ?_, by simpa using older⟩
      simp [Journal.candidates, restored, other, older.le]

theorem candidates_second {first second : Bytes} {state : Checkpoint.Restored}
    (restored : Checkpoint.restore second = .ok state) (stale : Stale state.generation first) :
    ∃ rest, Journal.candidates first second = (.second, state) :: rest ∧
      ∀ older ∈ rest, older.2.generation < state.generation := by
  cases other : Checkpoint.restore first with
  | error thrown => exact ⟨[], by simp [Journal.candidates, restored, other], by simp⟩
  | ok first' =>
      have older := stale.older first' other
      refine ⟨[(.first, first')], ?_, by simpa using older⟩
      simp [Journal.candidates, restored, other, older]

theorem candidates_nil {first second : Bytes} (noFirst : Stale 0 first) (noSecond : Stale 0 second) :
    Journal.candidates first second = [] := by
  have none {bytes : Bytes} (stale : Stale 0 bytes) :
      ∃ thrown, Checkpoint.restore bytes = .error thrown := by
    cases outcome : Checkpoint.restore bytes with
    | error thrown => exact ⟨thrown, rfl⟩
    | ok state => exact absurd (stale.older state outcome) (Nat.not_lt_zero _)
  obtain ⟨first', left⟩ := none noFirst
  obtain ⟨second', right⟩ := none noSecond
  simp [Journal.candidates, left, right]

theorem Kept.replay {base ns : Namespace} {generation : Nat} {log torn : Bytes}
    (kept : Kept base generation log ns) (isTorn : Torn torn)
    (short : (slotBytes base generation log torn).length ≤ slotLimit) :
    (base.setSequence 0).replay
        ((slotBytes base generation log torn).drop (Checkpoint.snapshotSize base)) =
      (ns, .ok ⟨log.length, torn.length⟩) := by
  have limit : slotLimit ≤ journalLimit := by decide
  have part : (log ++ torn).length ≤ (slotBytes base generation log torn).length := by
    simp [slotBytes]
  rw [drop_slotBytes, Namespace.replay, if_neg (by omega), kept.replayFrom, isTorn.replayFrom]

/-- Cutting the torn rest of a slot changes nothing about the pair. -/
theorem Holds.cut {tree base ns : Namespace} {generation : Nat} {log torn : Bytes}
    {image image' : Image} (kept : Kept base generation log ns) (same : ns.setSequence 0 = tree)
    (holds : Holds vacant tree image) (here : image slot = some (slotBytes base generation log torn))
    (short : (slotBytes base generation log torn).length ≤ slotLimit)
    (here' : image' slot = some (slotBytes base generation log []))
    (there' : image' slot.other = image slot.other) : Holds vacant tree image' := by
  have restored := kept.restore torn
  have shorter : (slotBytes base generation log []).length ≤ slotLimit := by
    simp only [slotBytes, List.length_append, List.length_nil] at short ⊢
    omega
  cases holds with
  | fresh isVacant isInitial first second order =>
      -- An empty pair has no snapshot in any slot.
      cases slot with
      | first =>
          have nonempty : slotBytes base generation log torn ≠ [] := by
            have long := snapshotSize_gt kept.tree
            apply List.ne_nil_of_length_pos
            simp only [slotBytes, List.length_append, Checkpoint.sealed_length]
            omega
          rw [here] at first
          simp [nonempty] at first
      | second => exact absurd ((second _ here).older _ restored) (Nat.not_lt_zero _)
  | @live other base' ns' generation' log' torn' bytes kept' same' isTorn' here'' short' there stale =>
      rcases slot.eq_or_other other with rfl | rfl
      · have generations : generation' = generation := by
          rw [here''] at here
          have restored' := kept'.restore torn'
          rw [Option.some.inj here, restored] at restored'
          exact (congrArg Checkpoint.Restored.generation (Except.ok.inj restored')).symm
        subst generations
        exact .live kept same (.inl rfl) here' shorter (there'.trans there) stale
      · rw [Slot.other_other, here] at there
        have older : generation < generation' := by
          rw [← Option.some.inj there] at stale
          exact stale.older _ restored
        refine .live kept' same' isTorn' (there'.trans here'') short' ?_ (kept.stale shorter older)
        rw [Slot.other_other]
        exact here'

/-- The journal is open and ready for the next operation. -/
def Opened (vacant : Prop) (tree : Namespace) (objects : List (Nat × File β)) (broken : Prop)
    (session : Session β) : Prop :=
  ∃ base log journal directory, At (Holds vacant tree) objects broken journal directory session ∧
    Ready tree base log journal directory

theorem recover_yields {tree base ns : Namespace} {log torn : Bytes} {other : File UInt8}
    (here : At (Holds vacant tree) objects broken journal directory session)
    (kept : Kept base journal.generation log ns) (same : ns.setSequence 0 = tree)
    (isTorn : Torn torn) (found : directory.slots slot = some file)
    (content : file.content = slotBytes base journal.generation log torn)
    (short : (slotBytes base journal.generation log torn).length ≤ slotLimit)
    (size : journal.sizes slot = (slotBytes base journal.generation log torn).length)
    (away : directory.slots slot.other = some other)
    (stale : Stale journal.generation other.content) :
    Yields (Journal.recover slot (snapshotState base journal.generation)
        (slotBytes base journal.generation log torn)) session
      (fun _ => Opened vacant tree objects broken)
      (fun _ after => broken ∧ Safe (Holds vacant tree) objects broken after.world) := by
  have cutLength : Checkpoint.snapshotSize base + log.length ≤
      (slotBytes base journal.generation log torn).length := by
    simp only [slotBytes, List.length_append, Checkpoint.sealed_length]
    omega
  have cut : (slotBytes base journal.generation log torn).take
      (Checkpoint.snapshotSize base + log.length) = slotBytes base journal.generation log [] := by
    simp only [slotBytes, ← List.append_assoc, List.append_nil]
    apply List.take_left'
    rw [List.length_append, Checkpoint.sealed_length]
  have long := snapshotSize_gt kept.tree
  -- What is left to do once the slot ends with its last record.
  have finish (file' : File UInt8) : ∀ {journal' : Journal} {state : Session β},
      At (Holds vacant tree) objects broken journal' (directory.setSlot slot file') state →
      journal'.active = slot → journal'.ns = ns → journal'.generation = journal.generation →
      file'.content = slotBytes base journal.generation log [] →
      journal'.sizes slot = (slotBytes base journal.generation log []).length →
      Yields (Journal.flush >>= fun _ => Journal.retire slot.other) state
        (fun _ => Opened vacant tree objects broken)
        (fun _ after => broken ∧ Safe (Holds vacant tree) objects broken after.world) := by
    rintro journal' state there rfl rfl generation content' size'
    rw [← generation] at kept content' size' stale
    refine Yields.seq (flush_yields there Directory.setSlot_slots)
      (fun _ _ failed => ⟨failed.1.cause, failed.1.safe⟩) ?_
    intro _ after there
    rw [Directory.setSlot_setSlot, File.flush, content'] at there
    have shorter : (slotBytes base journal'.generation log []).length ≤ slotLimit := by
      rw [generation, ← cut, List.length_take]
      omega
    refine (retire_yields there (Directory.setSlot_other.trans away) stale ?_).weaken ?_
      (fun _ _ failed => ⟨failed.cause, failed.safe⟩)
    · intro image bytes inOther older inActive
      rw [Slot.other_other, Directory.setSlot_slots] at inActive
      obtain ⟨left, inActive, survives⟩ := leaves_some inActive
      rw [File.survives_ofBytes.mp survives] at inActive
      exact .live kept same (.inl rfl) inActive shorter inOther older
    · intro _ final reached
      refine ⟨base, log, _, _, reached, kept, same, ?_, ?_, ?_, shorter⟩
      · exact (Directory.setSlot_ne (Slot.other_ne _).symm).trans Directory.setSlot_slots
      · exact Directory.setSlot_slots
      · exact (Journal.withSize_ne _ (Slot.other_ne _).symm _).trans size'
  apply Yields.modify_bind
  have there : At (Holds vacant tree) objects broken { journal with active := slot } directory
      (session.setJournal { session.journal with active := slot }) := by
    rw [here.journal]
    exact here.setJournal _
  simp only [snapshotState, kept.replay isTorn short]
  apply Yields.modify_bind
  have there : At (Holds vacant tree) objects broken { journal with active := slot, ns } directory
      ((session.setJournal { session.journal with active := slot }).setNs ns) := by
    rw [Session.setNs, there.journal]
    exact there.setJournal _
  split_ifs with rest
  · refine Yields.seq (truncate_yields there found (by omega) ?_)
      (fun _ _ failed => ⟨failed.cause, failed.safe⟩) ?_
    · intro image inActive inOther
      rw [content, resize_of_le cutLength, cut] at inActive
      have old : Holds vacant tree (Function.update image slot
          (some (slotBytes base journal.generation log torn))) := by
        refine here.sound.images _ fun other' => ?_
        rcases slot.eq_or_other other' with rfl | rfl
        · rw [found, Function.update_self, ← content]
          exact file.survives_content
        · rwa [Function.update_of_ne (Slot.other_ne _)]
      refine old.cut kept same (Function.update_self _ _ _) short inActive ?_
      rw [Function.update_of_ne (Slot.other_ne _)]
    · intro _ after reached
      refine finish _ reached rfl rfl rfl ?_ ?_
      · rw [File.content_edit, content, ← cut]
        exact resize_of_le cutLength
      · refine (Journal.withSize_sizes _ _ _).trans ?_
        rw [← cut, List.length_take, Nat.min_eq_left cutLength]
  · have whole : torn = [] := List.length_eq_zero_iff.mp (not_not.mp rest)
    subst whole
    have same := Directory.setSlot_self found
    rw [← same] at there
    exact finish file there rfl rfl rfl content size

theorem Namespace.namesLossless_initial : Namespace.initial.NamesLossless := by
  intro node member
  obtain rfl := List.mem_singleton.mp member
  rfl

/-- The end of an operation that opens the journal. -/
abbrev Opens (tree : Namespace) (objects : List (Nat × File β)) (broken : Prop)
    (program : Action β Unit) (session : Session β) : Prop :=
  Yields program session (fun _ => Opened (objects = []) tree objects broken)
    (fun _ after => broken ∧ Safe (Holds (objects = []) tree) objects broken after.world)

theorem start_yields {second : File UInt8}
    (here : At (Holds (objects = []) .initial) objects broken journal directory session)
    (isVacant : objects = []) (isNew : journal.ns = .initial) (active : journal.active = .first)
    (generation : journal.generation = 0) (found : directory.slots .first = some file)
    (empty : file.content = []) (other : directory.slots .second = some second)
    (stale : Stale 0 second.content) :
    Opens .initial objects broken Journal.start session := by
  have blank := here.sound.blank .first file found empty
  have turning : Turning (objects = []) .initial journal directory file second := by
    refine ⟨by rw [isNew]; rfl, by rw [isNew]; exact Namespace.tree_initial, ?_, by rw [active, found],
      by rw [active]; exact other, ?_, ?_, by rw [generation]; exact stale⟩
    · rw [isNew]
      exact Namespace.namesLossless_initial
    · intro bytes survives
      rw [blank bytes survives]
      exact stale_nil _
    · intro bytes survives image rest inFirst inSecond isStale
      rw [blank bytes survives, active] at inFirst
      rw [active] at inSecond
      rw [generation] at isStale
      refine .fresh isVacant rfl (.inr inFirst) ?_ ?_
      · intro bytes' inSecond'
        rw [Option.some.inj (inSecond'.symm.trans inSecond)]
        exact isStale
      · intro missing
        rw [inFirst] at missing
        exact absurd missing (Option.some_ne_none _)
  apply Yields.get_bind
  rw [here.directory, here.objects_eq, if_neg (not_not.mpr isVacant)]
  refine (checkpoint_yields here (fun _ => id) turning).weaken ?_ ?_
  · rintro _ after ⟨journal', directory', reached, ready, -⟩
    exact ⟨_, _, journal', directory', reached, ready⟩
  · rintro _ after (⟨-, exhausted⟩ | failed)
    · omega
    · exact ⟨failed.cause, failed.safe⟩

/-! ## The whole of `open` -/

/-- What `resume` does where one slot has a snapshot and the other one is stale. -/
theorem resume_live {first second : File UInt8} {base ns : Namespace} {generation : Nat}
    {log rest other : Bytes} {returns : Unit → Session β → Prop}
    {throws : Thrown → Session β → Prop} (fresh : Bool) (kept : Kept base generation log ns)
    (inFirst : directory.slots .first = some first)
    (inSecond : directory.slots .second = some second)
    (inSlot : directory.contents slot = some (slotBytes base generation log rest))
    (inOther : directory.contents slot.other = some other) (stale : Stale generation other)
    (recovers : Yields (Journal.recover slot (snapshotState base generation)
        (slotBytes base generation log rest))
      (session.setJournal { session.journal with generation }) returns throws) :
    Yields (Journal.resume fresh first.content second.content) session returns throws := by
  have firstContent : directory.contents .first = some first.content := by
    rw [Directory.contents, inFirst]
    rfl
  have secondContent : directory.contents .second = some second.content := by
    rw [Directory.contents, inSecond]
    rfl
  have chosen : ∃ older, Journal.candidates first.content second.content =
      (slot, snapshotState base generation) :: older ∧
      ∀ candidate ∈ older, candidate.2.generation < generation := by
    cases slot with
    | first =>
        obtain rfl := Option.some.inj (secondContent.symm.trans inOther)
        have content := Option.some.inj (firstContent.symm.trans inSlot)
        exact candidates_first (content ▸ kept.restore rest) stale
    | second =>
        obtain rfl := Option.some.inj (firstContent.symm.trans inOther)
        have content := Option.some.inj (secondContent.symm.trans inSlot)
        exact candidates_second (content ▸ kept.restore rest) stale
  have notLegacy : ¬Journal.Legacy first.content := by
    cases slot with
    | first =>
        rw [Option.some.inj (firstContent.symm.trans inSlot)]
        exact (slotBytes_mark kept rest).2
    | second =>
        rw [Option.some.inj (firstContent.symm.trans inOther)]
        exact stale.notLegacy
  have bytes : slot.pick first.content second.content = slotBytes base generation log rest := by
    cases slot with
    | first => exact Option.some.inj (firstContent.symm.trans inSlot)
    | second => exact Option.some.inj (secondContent.symm.trans inSlot)
  obtain ⟨older, newest, all⟩ := chosen
  apply Yields.modify_bind
  rw [newest, if_neg notLegacy, List.head?_cons, Option.map_some, Option.getD_some]
  dsimp only
  rw [bytes]
  split_ifs with ambiguous
  · obtain ⟨candidate, member, same⟩ := List.any_eq_true.mp ambiguous
    have clash : candidate.2.generation = generation := of_decide_eq_true same
    exact absurd clash (all candidate member).ne
  · exact recovers

variable {tree : Namespace}

theorem resume_yields {first second : File UInt8} (fresh : Bool)
    (here : At (Holds (objects = []) tree) objects broken journal directory session)
    (isNew : journal.ns = .initial) (active : journal.active = .first)
    (inFirst : directory.slots .first = some first)
    (inSecond : directory.slots .second = some second)
    (sizes : ∀ slot file, directory.slots slot = some file →
      journal.sizes slot = file.content.length) :
    Opens tree objects broken (Journal.resume fresh first.content second.content) session := by
  have assigned (generation : Nat) : At (Holds (objects = []) tree) objects broken
      { journal with generation } directory
      (session.setJournal { session.journal with generation }) := by
    rw [here.journal]
    exact here.setJournal _
  have files (slot : Slot) (bytes : Bytes) (found : directory.contents slot = some bytes) :
      ∃ file, directory.slots slot = some file ∧ file.content = bytes :=
    Option.map_eq_some_iff.mp found
  have holds := here.sound.images _ (crashes_contents directory)
  cases holds with
  | fresh isVacant isInitial isEmpty isStale order =>
      subst isInitial
      have empty : first.content = [] := by
        simpa [Directory.contents, inFirst] using isEmpty
      have stale : Stale 0 second.content := isStale _ (by simp [Directory.contents, inSecond])
      have none : Journal.candidates first.content second.content = [] :=
        candidates_nil (empty ▸ stale_nil 0) stale
      have notLegacy : ¬Journal.Legacy first.content := (empty ▸ stale_nil 0).notLegacy
      apply Yields.modify_bind
      rw [none, if_neg notLegacy]
      dsimp only
      rw [if_pos (.inr empty)]
      exact start_yields (assigned 0) isVacant isNew active rfl inFirst empty inSecond stale
  | @live slot base ns generation log torn other kept same isTorn inSlot short inOther stale =>
      obtain ⟨file, found, content⟩ := files slot _ inSlot
      obtain ⟨otherFile, away, rfl⟩ := files slot.other _ inOther
      have size := sizes slot file found
      rw [content] at size
      have recovered := recover_yields (assigned generation) kept same isTorn found content short
        size away stale
      exact resume_live fresh kept inFirst inSecond inSlot inOther stale recovered

/-- Without its other file the pair holds an empty database. -/
theorem Holds.empty {image : Image} (holds : Holds vacant tree image)
    (missing : image slot = none) :
    vacant ∧ tree = .initial ∧ (image .first = none ∨ image .first = some []) ∧
      image .second = none := by
  cases holds with
  | fresh isVacant isInitial first second order =>
      refine ⟨isVacant, isInitial, first, ?_⟩
      cases slot with
      | first => exact order missing
      | second => exact missing
  | @live other _ _ _ _ _ _ _ _ _ here _ there _ =>
      rcases other.eq_or_other slot with rfl | rfl
      · exact absurd (here.symm.trans missing) (Option.some_ne_none _)
      · exact absurd (there.symm.trans missing) (Option.some_ne_none _)

/-- A missing file may be created, the first one in front of the second. -/
theorem Sound.create (sound : Sound (Holds vacant tree) directory.slots)
    (missing : directory.slots slot = none)
    (order : slot = .second → ∃ file, directory.slots .first = some file) :
    Sound (Holds vacant tree) (directory.setSlot slot (.ofBytes [])).slots where
  images := by
    intro image crashes
    have inSlot := crashes slot
    rw [Directory.setSlot_slots] at inSlot
    obtain ⟨left, inSlot, survives⟩ := leaves_some inSlot
    obtain rfl := File.survives_ofBytes.mp survives
    have before : Crashes directory.slots (Function.update image slot none) := by
      intro other
      rcases slot.eq_or_other other with rfl | rfl
      · rw [missing, Function.update_self]
        trivial
      · have inOther := crashes slot.other
        rwa [Directory.setSlot_other, ← Function.update_of_ne (Slot.other_ne slot) none image]
          at inOther
    obtain ⟨isVacant, isInitial, first, second⟩ :=
      (sound.images _ before).empty (Function.update_self _ _ _)
    cases slot with
    | first =>
        refine .fresh isVacant isInitial (.inr inSlot) ?_ ?_
        · intro bytes inSecond
          rw [Function.update_of_ne (by decide)] at second
          exact absurd (inSecond.symm.trans second) (Option.some_ne_none _)
        · intro absent
          exact absurd (inSlot.symm.trans absent) (Option.some_ne_none _)
    | second =>
        rw [Function.update_of_ne (by decide)] at first
        refine .fresh isVacant isInitial first ?_ ?_
        · intro bytes inSecond
          rw [← Option.some.inj (inSlot.symm.trans inSecond)]
          exact stale_nil 0
        · intro absent
          obtain ⟨file, found⟩ := order rfl
          have inFirst := crashes .first
          rw [Directory.setSlot_ne (by decide), found] at inFirst
          obtain ⟨left, inFirst, -⟩ := leaves_some inFirst
          exact absurd (inFirst.symm.trans absent) (Option.some_ne_none _)
  blank := by
    intro other file found empty left survives
    rcases slot.eq_or_other other with rfl | rfl
    · rw [Directory.setSlot_slots] at found
      obtain rfl := Option.some.inj found
      exact File.survives_ofBytes.mp survives
    · rw [Directory.setSlot_other] at found
      exact sound.blank _ file found empty left survives

theorem openFirst_opens
    (here : At (Holds (objects = []) tree) objects broken journal directory session) :
    Yields Journal.openFirst session
      (fun _ after => ∃ directory' file, directory'.slots .first = some file ∧
        At (Holds (objects = []) tree) objects broken journal directory' after)
      (fun _ => Failed (Holds (objects = []) tree) objects broken journal.ns) := by
  cases found : directory.slots .first with
  | some file =>
      refine (openFirst_yields here found).weaken ?_ (fun _ _ => id)
      exact fun _ after reached => ⟨directory, file, found, reached.2⟩
  | none =>
      have holds := here.sound.images _ (crashes_contents directory)
      have missing : directory.contents .first = none := by
        rw [Directory.contents, found]
        rfl
      obtain ⟨rfl, -, -, second⟩ := holds.empty missing
      have alone : directory.slots .second = none := by
        simpa [Directory.contents] using second
      have sound := here.sound.create found (fun wrong => absurd wrong (by decide))
      refine (openFirst_create here found alone sound).weaken ?_ (fun _ _ => id)
      exact fun _ after reached => ⟨_, _, Directory.setSlot_slots, reached.2⟩

theorem openSecond_opens {create : Bool}
    (here : At (Holds (objects = []) tree) objects broken journal directory session)
    (found : directory.slots .first = some file) (may : file.content = [] → create = true) :
    Yields (getFileHandle .second create) session
      (fun _ after => ∃ directory' second, directory'.slots .first = some file ∧
        directory'.slots .second = some second ∧
        At (Holds (objects = []) tree) objects broken journal directory' after)
      (fun _ => Failed (Holds (objects = []) tree) objects broken journal.ns) := by
  cases other : directory.slots .second with
  | some second =>
      refine (getFileHandle_yields here other create).weaken ?_ ?_
      · exact fun _ after reached => ⟨directory, second, found, other, reached⟩
      · exact fun _ after failed => failed.2.2.failed failed.2.1
  | none =>
      have holds := here.sound.images _ (crashes_contents directory)
      have missing : directory.contents .second = none := by
        rw [Directory.contents, other]
        rfl
      obtain ⟨-, -, empty, -⟩ := holds.empty missing
      have content : file.content = [] := by simpa [Directory.contents, found] using empty
      rw [may content]
      have sound := here.sound.create other (fun _ => ⟨file, found⟩)
      refine (getFileHandle_create here other sound).weaken ?_ ?_
      · exact fun _ after reached => ⟨_, _, (Directory.setSlot_ne (by decide)).trans found,
          Directory.setSlot_slots, reached⟩
      · exact fun _ after failed => failed.2.failed failed.1

/-- No slot of a sound pair is too long to be read. -/
theorem Holds.short {image : Image} {bytes : Bytes}
    (holds : Holds vacant tree image) (here : image slot = some bytes) :
    bytes.length ≤ journalLimit := by
  have limit : slotLimit ≤ journalLimit := by decide
  refine le_trans ?_ limit
  cases holds with
  | fresh isVacant isInitial first second order =>
      cases slot with
      | first =>
          have empty : bytes = [] := by simpa [here] using first
          simp [empty]
      | second => exact (second bytes here).short
  | @live other _ _ _ _ _ _ _ _ _ inSlot short inOther stale =>
      rcases other.eq_or_other slot with rfl | rfl
      · rwa [Option.some.inj (here.symm.trans inSlot)]
      · rw [Option.some.inj (here.symm.trans inOther)]
        exact stale.short

theorem At.short (here : At (Holds vacant tree) objects broken journal directory session)
    (found : directory.slots slot = some file) : file.content.length ≤ journalLimit := by
  have content : directory.contents slot = some file.content := by
    rw [Directory.contents, found]
    rfl
  exact (here.sound.images _ (crashes_contents directory)).short content

theorem openSlots_yields
    (here : At (Holds (objects = []) tree) objects broken .new directory session) :
    Opens tree objects broken Journal.openSlots session := by
  have failed : ∀ {ns : Namespace} (_ : Thrown) (after : Session β),
      Failed (Holds (objects = []) tree) objects broken ns after →
      broken ∧ Safe (Holds (objects = []) tree) objects broken after.world :=
    fun _ after reached => ⟨reached.cause, reached.safe⟩
  refine Yields.seq (openFirst_opens here) failed ?_
  rintro fresh after ⟨directory, first, inFirst, there⟩
  refine Yields.seq (createSyncAccessHandle_yields there .first) failed ?_
  intro _ after there
  have short := there.short inFirst
  refine Yields.seq (read_yields there inFirst short) failed ?_
  rintro _ after ⟨rfl, there⟩
  refine Yields.seq (openSecond_opens there inFirst (by simp +contextual)) failed ?_
  rintro _ after ⟨directory, second, inFirst, inSecond, there⟩
  refine Yields.seq (createSyncAccessHandle_yields there .second) failed ?_
  intro _ after there
  have short := there.short inSecond
  refine Yields.seq (read_yields there inSecond short) failed ?_
  rintro _ after ⟨rfl, there⟩
  refine resume_yields fresh there rfl rfl inFirst inSecond ?_
  intro slot file found
  cases slot with
  | first => rw [Option.some.inj (inFirst.symm.trans found)]; rfl
  | second => rw [Option.some.inj (inSecond.symm.trans found)]; rfl

theorem handleClose_yields (here : At allowed objects broken journal directory session) :
    Yields AccessHandle.close session (fun _ => At allowed objects broken journal directory)
      (fun _ => At allowed objects broken journal directory) := by
  refine Yields.seq (outcome_yields here) (fun _ _ => False.elim) ?_
  rintro result after ⟨-, there⟩
  cases result with
  | full | short count | fail count => exact there

theorem closeAll_yields (here : At allowed objects broken journal directory session)
    (slots : List Slot) :
    Yields (Journal.closeAll slots) session
      (fun _ => At allowed objects broken journal directory) (fun _ _ => False) := by
  induction slots generalizing session with
  | nil => exact here
  | cons slot slots induction =>
      have closed : Yields (tryCatch (do AccessHandle.close; return []) fun _ => return [slot])
          session (fun _ => At allowed objects broken journal directory) (fun _ _ => False) :=
        Yields.tryCatch (Yields.bind (handleClose_yields here) fun _ _ => id) fun _ _ => id
      refine Yields.bind closed ?_
      intro kept after there
      exact Yields.bind (induction there) fun _ _ => id

theorem close_yields (safe : Safe allowed objects broken session.world) :
    Yields Journal.close session (fun _ after => Safe allowed objects broken after.world)
      (fun _ after => Safe allowed objects broken after.world) := by
  apply Yields.get_bind
  refine Yields.seq (closeAll_yields ⟨rfl, rfl, safe⟩ _) (fun _ _ => False.elim) ?_
  intro remaining after there
  apply Yields.modify_bind
  have kept := (there.setJournal { after.journal with handles := remaining }).safe
  split_ifs
  · exact kept
  · exact kept

/-- Opening the journal succeeds unless a call fails, and is safe all the way. -/
theorem open_yields (safe : Safe (Holds (objects = []) tree) objects broken session.world) :
    Opens tree objects broken Journal.open session := by
  apply Yields.modify_bind
  have here : At (Holds (objects = []) tree) objects broken .new session.world.directory
      (session.setJournal .new) := ⟨rfl, rfl, safe⟩
  refine Yields.tryCatch (openSlots_yields here) ?_
  rintro thrown after ⟨isBroken, reached⟩
  have closed : Yields (tryCatch Journal.close fun _ => return) after
      (fun _ final => Safe (Holds (objects = []) tree) objects broken final.world)
      (fun _ _ => False) := Yields.tryCatch (close_yields reached) fun _ _ => id
  exact Yields.seq closed (fun _ _ => False.elim) fun _ final kept => ⟨isBroken, kept⟩

end Storage
end Postgamma
