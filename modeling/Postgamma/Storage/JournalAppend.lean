import Postgamma.Storage.JournalSpec

/-!
# Checkpoints and appends

A journal is ready when its active slot is flushed up to the last record and the other one holds
the marker. A checkpoint moves the namespace to the other slot, and an append writes one record
more. Along the way a crash leaves the old namespace, or the new one once the record is complete.
-/

namespace Postgamma
namespace Storage

open Text Json LittleEndian CrashFile

variable {β : Type} {allowed : Image → Prop} {objects : List (Nat × File β)} {broken vacant : Prop}
  {session : Session β} {journal : Journal} {directory : Directory β}

/-- The journal object and the directory between two operations. -/
structure Ready (tree base : Namespace) (log : Bytes) (journal : Journal)
    (directory : Directory β) : Prop where
  /-- The active slot leads to the namespace in memory. -/
  kept : Kept base journal.generation log journal.ns
  /-- The namespace is the expected one. -/
  same : journal.ns.setSequence 0 = tree
  /-- The active slot is flushed and ends with its last record. -/
  active : directory.slots journal.active =
    some (.ofBytes (slotBytes base journal.generation log []))
  /-- The other slot is retired. -/
  retired : directory.slots journal.active.other = some (.ofBytes marker)
  /-- The size of the active slot is known. -/
  size : journal.sizes journal.active = (slotBytes base journal.generation log []).length
  /-- The active slot is within its limit. -/
  short : (slotBytes base journal.generation log []).length ≤ slotLimit

/-- The journal object and the directory in front of a checkpoint. -/
structure Turning (vacant : Prop) (tree : Namespace) (journal : Journal) (directory : Directory β)
    (old new : File UInt8) : Prop where
  /-- The namespace is the expected one. -/
  same : journal.ns.setSequence 0 = tree
  isTree : journal.ns.Tree
  /-- Its names come back from a snapshot. -/
  names : journal.ns.NamesLossless
  active : directory.slots journal.active = some old
  /-- The slot to write. -/
  target : directory.slots journal.active.other = some new
  /-- The active slot is stale for the next generation. -/
  older : ∀ bytes, old.Survives bytes → Stale (journal.generation + 1) bytes
  /-- Until then it holds the namespace. -/
  holds : ∀ bytes, old.Survives bytes → ∀ image other, image journal.active = some bytes →
    image journal.active.other = some other → Stale journal.generation other → Holds vacant tree image
  /-- The slot to write is stale. -/
  stale : Stale journal.generation new.content

theorem leaves_some {file : File UInt8} {result : Option Bytes} (leaves : Leaves (some file) result) :
    ∃ bytes, result = some bytes ∧ file.Survives bytes := by
  cases result with
  | none => exact leaves.elim
  | some bytes => exact ⟨bytes, rfl, leaves⟩

variable {log : Bytes} {tree base : Namespace}

/-- The slots of a ready journal hold its namespace whatever a crash does. -/
theorem Ready.sound (ready : Ready tree base log journal directory) :
    Sound (Holds vacant tree) directory.slots where
  images := by
    intro image crashes
    have inActive := crashes journal.active
    have inOther := crashes journal.active.other
    rw [ready.active] at inActive
    rw [ready.retired] at inOther
    obtain ⟨left, here, survives⟩ := leaves_some inActive
    obtain ⟨other, there, survives'⟩ := leaves_some inOther
    rw [File.survives_ofBytes.mp survives] at here
    rw [File.survives_ofBytes.mp survives'] at there
    exact .live ready.kept ready.same (.inl rfl) here ready.short there (stale_marker _)
  blank := by
    intro slot file found empty left survives
    rcases journal.active.eq_or_other slot with rfl | rfl
    · rw [← Option.some.inj (ready.active.symm.trans found)] at empty survives
      exact (File.survives_ofBytes.mp survives).trans empty
    · rw [← Option.some.inj (ready.retired.symm.trans found)] at empty survives
      exact (File.survives_ofBytes.mp survives).trans empty

theorem Ready.turning (ready : Ready tree base log journal directory) :
    Turning vacant tree journal directory (.ofBytes (slotBytes base journal.generation log []))
      (.ofBytes marker) where
  same := ready.same
  isTree := ready.kept.tree_ns
  names := ready.kept.names_ns
  active := ready.active
  target := ready.retired
  older := by
    intro bytes survives
    rw [File.survives_ofBytes.mp survives]
    exact ready.kept.stale ready.short (Nat.lt_succ_self _)
  holds := by
    intro bytes survives image other here there stale
    rw [File.survives_ofBytes.mp survives] at here
    exact .live ready.kept ready.same (.inl rfl) here ready.short there stale
  stale := stale_marker _

theorem slotBytes_nil (base : Namespace) (generation : Nat) :
    slotBytes base generation [] [] = Checkpoint.sealed base generation := by
  simp [slotBytes]

theorem checkpoint_yields {old new : File UInt8}
    (here : At allowed objects broken journal directory session)
    (weaker : ∀ image, Holds vacant tree image → allowed image)
    (turning : Turning vacant tree journal directory old new) :
    Yields Journal.checkpoint session
      (fun _ after => ∃ journal' directory', At allowed objects broken journal' directory' after ∧
        Ready tree journal.ns [] journal' directory' ∧
        journal'.ns = journal.ns.setSequence 0)
      (fun _ after => (after = session ∧ 0xffffffff ≤ journal.generation) ∨
        Failed allowed objects broken journal.ns after) := by
  apply Yields.get_bind
  rw [here.journal]
  by_cases exhausted : 0xffffffff ≤ journal.generation
  · have refused : Checkpoint.snapshot journal.ns (journal.generation + 1) =
        .error (.error "Namespace checkpoint generation exhausted") := by
      rw [Checkpoint.snapshot, if_pos (by omega)]
    simp only [refused]
    exact .inl ⟨rfl, exhausted⟩
  have small : journal.generation + 1 ≤ 0xffffffff := by omega
  have positive : 1 ≤ journal.generation + 1 := Nat.le_add_left 1 journal.generation
  have written := Checkpoint.snapshot_eq turning.isTree positive small
  have kept : Kept journal.ns (journal.generation + 1) [] (journal.ns.setSequence 0) :=
    ⟨turning.isTree, turning.names, positive, small, .nil⟩
  have size := Checkpoint.snapshotSize_le turning.isTree
  have length := Checkpoint.sealed_length journal.ns (journal.generation + 1)
  have back := journal.active.other_other
  -- With the snapshot complete, the target holds the namespace.
  have published : ∀ image bytes, image journal.active.other =
      some (Checkpoint.sealed journal.ns (journal.generation + 1)) →
      image journal.active = some bytes → Stale (journal.generation + 1) bytes →
      allowed image := by
    intro image bytes inTarget inActive stale
    refine weaker image (.live kept turning.same (.inl rfl) ?_ ?_ (back.symm ▸ inActive) stale)
    · rw [slotBytes_nil, inTarget]
    · rw [slotBytes_nil, length]
      exact size
  refine ofExcept_bind written ?_
  refine Yields.seq (retire_yields here turning.target turning.stale ?_)
    (fun _ _ => .inr) ?_
  · intro image bytes inTarget stale inActive
    rw [back, turning.active] at inActive
    obtain ⟨left, inActive, survives⟩ := leaves_some inActive
    exact weaker image (turning.holds left survives image bytes inActive inTarget stale)
  intro _ after there
  have covered : splice marker 0 (Checkpoint.sealed journal.ns (journal.generation + 1)) =
      Checkpoint.sealed journal.ns (journal.generation + 1) := by
    apply splice_cover
    rw [marker_length, length]
    exact (snapshotSize_gt turning.isTree).le
  refine Yields.seq (write_yields there (fun _ => id) Directory.setSlot_slots (Nat.zero_le _)
    ?_ ?_ ?_) (fun _ _ => .inr) ?_
  · exact List.ne_nil_of_length_pos (by rw [length]; exact (snapshotSize_gt turning.isTree).pos)
  · intro image count torn inTarget inActive
    rw [Directory.setSlot_other, back, turning.active] at inActive
    obtain ⟨left, inActive, survives⟩ := leaves_some inActive
    rw [length] at torn
    exact weaker image (turning.holds left survives image _ inActive inTarget
      (stale_incomplete turning.isTree _ torn _))
  · intro image inTarget inActive
    rw [Directory.setSlot_other, back, turning.active] at inActive
    obtain ⟨left, inActive, survives⟩ := leaves_some inActive
    rw [File.content_ofBytes, covered] at inTarget
    exact published image left inTarget inActive (turning.older left survives)
  rintro _ after ⟨next, filled, there⟩
  have content : next.content = Checkpoint.sealed journal.ns (journal.generation + 1) := by
    rw [filled, File.content_ofBytes, covered]
  refine Yields.seq (handleFlush_yields there Directory.setSlot_slots)
    (fun _ _ failed => .inr failed.1) ?_
  intro _ after there
  rw [Directory.setSlot_setSlot, Directory.setSlot_setSlot, File.flush, content] at there
  have inActive : (directory.setSlot journal.active.other (.ofBytes
      (Checkpoint.sealed journal.ns (journal.generation + 1)))).slots journal.active = some old := by
    rw [Directory.setSlot_ne journal.active.other_ne.symm, turning.active]
  refine Yields.seq (retire_yields there inActive (turning.older _ old.survives_content) ?_)
    (fun _ _ => .inr) ?_
  · intro image bytes inActive stale inTarget
    rw [Directory.setSlot_slots] at inTarget
    obtain ⟨left, inTarget, survives⟩ := leaves_some inTarget
    rw [File.survives_ofBytes.mp survives] at inTarget
    exact published image bytes inTarget inActive stale
  intro _ after there
  rw [Journal.withSize_withSize, Journal.withSize_sizes, length, Nat.zero_add,
    Nat.max_eq_right (snapshotSize_gt turning.isTree).le] at there
  have assigned : (Journal.publish after journal.active.other).journal =
      { (journal.withSize journal.active.other (Checkpoint.snapshotSize journal.ns)).withSize
          journal.active 32 with
        active := journal.active.other, generation := journal.generation + 1,
        ns := journal.ns.setSequence 0 } := by
    simp only [Journal.publish, Session.setJournal, there.journal]
    rfl
  refine ⟨_, _, ⟨assigned, there.directory, there.safe⟩, ⟨kept, turning.same, ?_, ?_, ?_, ?_⟩, rfl⟩
  · rw [slotBytes_nil]
    exact Directory.setSlot_other.trans Directory.setSlot_slots
  · simp only [back]
    exact Directory.setSlot_slots
  · simp only [slotBytes_nil, length]
    rw [Journal.withSize_ne _ journal.active.other_ne, Journal.withSize_sizes]
  · simp only [slotBytes_nil, length]
    exact size

/-- What a crash during an append may leave. -/
def Between (vacant : Prop) (change : Change) (tree : Namespace) (image : Image) : Prop :=
  Holds vacant tree image ∨ Completed change tree image

/-- An append has stopped before its record was complete. -/
structure Stopped (vacant : Prop) (tree : Namespace) (objects : List (Nat × File β))
    (broken : Prop) (session : Session β) : Prop where
  /-- The namespace is the expected one. -/
  same : session.journal.ns.setSequence 0 = tree
  /-- The slots hold it all the way. -/
  safe : Safe (Holds vacant tree) objects broken session.world
  /-- Unless a call has failed, the journal is still ready. -/
  ready : broken ∨ ∃ base log, Ready tree base log session.journal session.world.directory

theorem Failed.stopped {tree ns : Namespace} (same : ns.setSequence 0 = tree)
    (failed : Failed (Holds vacant tree) objects broken ns session) :
    Stopped vacant tree objects broken session :=
  ⟨by rw [failed.ns, same], failed.safe, .inl failed.cause⟩

theorem Ready.stopped (ready : Ready tree base log journal directory)
    (here : At (Holds vacant tree) objects broken journal directory session) :
    Stopped vacant tree objects broken session := by
  refine ⟨by rw [here.journal, ready.same], here.safe, .inr ⟨base, log, ?_⟩⟩
  rw [here.journal, here.directory]
  exact ready

theorem nextRecord_yields (change : Change)
    (here : At (Holds vacant tree) objects broken journal directory session)
    (ready : Ready tree base log journal directory) :
    Yields (Journal.nextRecord change) session
      (fun record after => encode change (journal.ns.sequence + 1) = .ok record ∧
        At (Holds vacant tree) objects broken journal directory after)
      (fun _ => Stopped vacant tree objects broken) := by
  apply Yields.get_bind
  rw [here.journal]
  cases encoded : encode change (journal.ns.sequence + 1) with
  | error thrown => exact ready.stopped here
  | ok record => exact ⟨rfl, here⟩

theorem prepare_yields (change : Change)
    (here : At (Holds vacant tree) objects broken journal directory session)
    (ready : Ready tree base log journal directory) :
    Yields (Journal.prepare change) session
      (fun record after => ∃ base log journal directory,
        encode change (journal.ns.sequence + 1) = .ok record ∧
        At (Holds vacant tree) objects broken journal directory after ∧
        Ready tree base log journal directory)
      (fun _ => Stopped vacant tree objects broken) := by
  refine Yields.bind (nextRecord_yields change here ready) ?_
  rintro record after ⟨encoded, there⟩
  apply Yields.get_bind
  rw [there.journal]
  dsimp only
  split_ifs
  · refine Yields.seq (checkpoint_yields there (fun _ => id) ready.turning) ?_ ?_
    · rintro thrown final (⟨rfl, -⟩ | failed)
      · exact ready.stopped there
      · exact failed.stopped ready.same
    · rintro _ final ⟨journal', directory', turned, ready', -⟩
      refine (nextRecord_yields change turned ready').weaken ?_ (fun _ _ => id)
      rintro record last ⟨encoded, reached⟩
      exact ⟨_, _, journal', directory', encoded, reached, ready'⟩
  · exact ⟨base, log, journal, directory, encoded, there, ready⟩

theorem nextRecord_eq (change : Change) (session : Session β) :
    Journal.nextRecord change session =
      match encode change (session.journal.ns.sequence + 1) with
      | .ok record => .ok record session
      | .error thrown => .error thrown session := by
  have unfolded : Journal.nextRecord change session =
      Journal.ofExcept (encode change (session.journal.ns.sequence + 1)) session := rfl
  rw [unfolded]
  cases encode change (session.journal.ns.sequence + 1) <;> rfl

theorem snapshot_length {ns : Namespace} {generation : Nat} {bytes : Bytes}
    (taken : Checkpoint.snapshot ns generation = .ok bytes) :
    bytes.length = Checkpoint.snapshotSize ns := by
  rw [Checkpoint.snapshot] at taken
  split_ifs at taken
  rw [← Except.ok.inj taken, Checkpoint.setUint32_frame]
  exact Checkpoint.sealed_length ns generation

theorem prepare_consumes (change : Change)
    (here : At (Holds vacant tree) objects broken journal directory session)
    (ready : Ready tree base log journal directory) :
    Yields (Journal.prepare change) session
      (fun record after => recordRest change journal session.world.script =
        if slotLimit < after.journal.sizes after.journal.active + record.length then none
        else writeRest after.world.script record.length)
      (fun _ _ => recordRest change journal session.world.script = none) := by
  unfold recordRest
  have next := nextRecord_eq change session
  rw [here.journal] at next
  cases encoded : encode change (journal.ns.sequence + 1) with
  | error thrown =>
      rw [encoded] at next
      exact Yields.bind_of_error next rfl
  | ok record =>
      rw [encoded] at next
      refine Yields.bind_of_ok next (Yields.get_bind ?_)
      rw [here.journal]
      dsimp only
      simp only [Except.toOption, Option.bind_eq_bind, Option.bind_some]
      split_ifs with due
      · cases taken : Checkpoint.snapshot journal.ns (journal.generation + 1) with
        | error thrown =>
            have refused : Yields Journal.checkpoint session (fun _ _ => False)
                (fun _ _ => True) := by
              apply Yields.get_bind
              rw [here.journal]
              simp only [taken]
              exact trivial
            exact Yields.seq refused (fun _ _ _ => rfl) fun _ _ => False.elim
        | ok bytes =>
            have same : Checkpoint.snapshot session.journal.ns (session.journal.generation + 1) =
                .ok bytes := by rw [here.journal, taken]
            refine Yields.seq ((checkpoint_yields here (fun _ => id) ready.turning).and
              (checkpoint_consumes same)) ?_ ?_
            · rintro _ after ⟨-, stopped⟩
              simp only [Option.bind_some, stopped, Option.bind_none]
            rintro _ after ⟨⟨journal', directory', there, ready', sequence⟩, reached⟩
            have size : after.journal.sizes after.journal.active = bytes.length := by
              rw [there.journal, ready'.size, slotBytes_nil, Checkpoint.sealed_length,
                snapshot_length taken]
            have first : after.journal.ns.sequence + 1 = 1 := by
              rw [there.journal, sequence]
              rfl
            have next := nextRecord_eq change after
            rw [first] at next
            simp only [Option.bind_some, reached]
            cases encoded' : encode change 1 with
            | error thrown =>
                rw [encoded'] at next
                rw [← bind_pure (Journal.nextRecord change)]
                exact Yields.bind_of_error next rfl
            | ok record' =>
                rw [encoded'] at next
                rw [← bind_pure (Journal.nextRecord change)]
                refine Yields.bind_of_ok next ?_
                show _ = if slotLimit < after.journal.sizes after.journal.active + record'.length
                  then none else writeRest after.world.script record'.length
                rw [size]
                rfl
      · show writeRest session.world.script record.length =
          if slotLimit < session.journal.sizes session.journal.active + record.length then none
          else writeRest session.world.script record.length
        rw [here.journal, if_neg (not_or.mp due).2]

/-- The record is complete behind the log. -/
structure Recorded (change : Change) (tree base : Namespace) (log record : Bytes)
    (journal : Journal) (directory : Directory β) (file : File UInt8) : Prop where
  /-- The slot leads to the namespace in memory up to the record. -/
  kept : Kept base journal.generation log journal.ns
  /-- The namespace is the expected one. -/
  same : journal.ns.setSequence 0 = tree
  /-- The record is that of the change. -/
  encoded : encode change (journal.ns.sequence + 1) = .ok record
  active : directory.slots journal.active = some file
  /-- The record ends the active slot. -/
  content : file.content = slotBytes base journal.generation log record
  /-- The other slot is retired. -/
  retired : directory.slots journal.active.other = some (.ofBytes marker)
  /-- The size of the active slot is known. -/
  size : journal.sizes journal.active = (slotBytes base journal.generation log record).length
  /-- The active slot is within its limit. -/
  short : (slotBytes base journal.generation log record).length ≤ slotLimit

theorem record_yields (change : Change)
    (here : At (Holds vacant tree) objects broken journal directory session)
    (ready : Ready tree base log journal directory) :
    Yields (Journal.record change) session
      (fun _ after => ∃ base log record journal directory file,
        At (Between vacant change tree) objects broken journal directory after ∧
        Recorded change tree base log record journal directory file)
      (fun _ => Stopped vacant tree objects broken) := by
  refine Yields.bind (prepare_yields change here ready) ?_
  rintro record after ⟨base, log, journal, directory, encoded, there, ready⟩
  apply Yields.get_bind
  rw [there.journal]
  dsimp only
  split_ifs with full
  · exact ready.stopped there
  rw [ready.size] at full ⊢
  have positive := encode_length_pos encoded
  have grown (rest : Bytes) : splice (slotBytes base journal.generation log [])
      (slotBytes base journal.generation log []).length rest =
        slotBytes base journal.generation log rest := by
    rw [splice_end rfl]
    simp [slotBytes]
  have lengths (rest : Bytes) : (slotBytes base journal.generation log rest).length =
      (slotBytes base journal.generation log []).length + rest.length := by
    simp [slotBytes]
    omega
  have away : ∀ image : Image, Leaves (directory.slots journal.active.other)
      (image journal.active.other) → image journal.active.other = some marker := by
    intro image inTarget
    rw [ready.retired] at inTarget
    obtain ⟨left, inTarget, survives⟩ := leaves_some inTarget
    rwa [File.survives_ofBytes.mp survives] at inTarget
  have weaker : ∀ image, Holds vacant tree image → Between vacant change tree image :=
    fun _ => .inl
  refine (write_yields there weaker ready.active le_rfl
    (List.ne_nil_of_length_pos (by omega)) ?_ ?_).weaken ?_ ?_
  · intro image count less inActive inTarget
    rw [File.content_ofBytes, grown] at inActive
    refine .live ready.kept ready.same (.inr ⟨change, _, record, count, encoded, less, rfl⟩)
      inActive ?_ (away image inTarget) (stale_marker _)
    rw [lengths, List.length_take]
    omega
  · intro image inActive inTarget
    rw [File.content_ofBytes, grown] at inActive
    exact .inr ⟨journal.active, base, journal.ns, journal.generation, log, record, marker,
      ready.kept, ready.same, encoded, inActive, by rw [lengths]; omega, away image inTarget,
      stale_marker _⟩
  · rintro _ final ⟨next, written, reached⟩
    refine ⟨base, log, record, _, _, next, reached, ready.kept, ready.same, encoded,
      Directory.setSlot_slots, ?_, ?_, ?_, ?_⟩
    · rw [written, File.content_ofBytes, grown]
      rfl
    · exact Directory.setSlot_other.trans ready.retired
    · show (journal.withSize journal.active _).sizes journal.active = _
      rw [Journal.withSize_sizes, ready.size]
      exact (Nat.max_eq_right (Nat.le_add_right _ _)).trans (lengths record).symm
    · show (slotBytes base journal.generation log record).length ≤ slotLimit
      rw [lengths]
      omega
  · exact fun _ final failed => failed.stopped ready.same

theorem record_consumes (change : Change)
    (here : At (Holds vacant tree) objects broken journal directory session)
    (ready : Ready tree base log journal directory) :
    Yields (Journal.record change) session
      (fun _ after => recordRest change journal session.world.script = some after.world.script)
      (fun _ _ => recordRest change journal session.world.script = none) := by
  refine Yields.bind (prepare_consumes change here ready) ?_
  intro record after prepared
  rw [prepared]
  apply Yields.get_bind
  dsimp only
  split_ifs with full
  · exact rfl
  · have written := write_consumes after.journal.active record
      (after.journal.sizes after.journal.active) after
    rw [Consumes, callsRest_single] at written
    exact written

/-- An append has been refused behind its complete record. -/
structure Late (vacant : Prop) (change : Change) (tree : Namespace) (objects : List (Nat × File β))
    (broken : Prop) (session : Session β) : Prop where
  /-- The namespace is the expected one. -/
  same : session.journal.ns.setSequence 0 = tree
  completed : Completed change tree session.world.directory.contents
  safe : Safe (Between vacant change tree) objects broken session.world

theorem Recorded.completed {change : Change} {log record : Bytes}
    {file : File UInt8} (recorded : Recorded change tree base log record journal directory file) :
    Completed change tree directory.contents := by
  refine ⟨journal.active, base, journal.ns, journal.generation, log, record, marker,
    recorded.kept, recorded.same, recorded.encoded, ?_, recorded.short, ?_, stale_marker _⟩
  · rw [Directory.contents, recorded.active, Option.map_some, recorded.content]
  · rw [Directory.contents, recorded.retired]
    rfl

theorem conclude_yields {change : Change} {log record : Bytes}
    {file : File UInt8} (here : At (Between vacant change tree) objects broken journal directory session)
    (recorded : Recorded change tree base log record journal directory file) :
    Yields (Journal.conclude change) session
      (fun _ after => ∃ tree' journal' directory',
        Namespace.apply change.value tree = .ok () tree' ∧
        At (Between vacant change tree) objects broken journal' directory' after ∧
        (change.Lossless → Ready tree' base (log ++ record) journal' directory'))
      (fun _ after => Late vacant change tree objects broken after ∧
        (FileCall.rest .single session.world.script = none ∨
          ∃ thrown, Namespace.apply change.value tree = .error thrown tree)) := by
  have taken := flush_consumes session
  rw [Consumes, callsRest_single] at taken
  refine Yields.seq ((flush_yields here recorded.active).and taken) ?_ ?_
  · rintro _ after ⟨⟨failed, unchanged⟩, stopped⟩
    exact ⟨⟨by rw [failed.ns, recorded.same], unchanged ▸ recorded.completed, failed.safe⟩,
      .inl stopped⟩
  rintro _ after ⟨there, -⟩
  have sequence : tree.setSequence journal.ns.sequence = journal.ns := by
    rw [← recorded.same]
    rfl
  cases outcome : Namespace.apply change.value tree with
  | error thrown ns =>
      obtain rfl := Namespace.eq_of_apply_error outcome
      have inner := Namespace.apply_commutes journal.ns.sequence change.value ns
      rw [outcome] at inner
      simp only [sequence, mapState] at inner
      have run : Journal.applyChange change.value after =
          .error thrown (after.setNs journal.ns) := by
        rw [Journal.applyChange, there.journal, inner]
      refine Yields.bind_of_error run ⟨⟨recorded.same, ?_, there.safe⟩, .inr ⟨thrown, rfl⟩⟩
      show Completed change ns after.world.directory.contents
      rw [there.directory, contents_flush recorded.active]
      exact recorded.completed
  | ok _ ns =>
      rw [← recorded.same] at outcome
      obtain ⟨inner, zero⟩ := apply_of_tree outcome
      have run : Journal.applyChange change.value after =
          .ok () (after.setNs (ns.setSequence journal.ns.sequence)) := by
        rw [Journal.applyChange, there.journal, inner]
      refine Yields.bind_of_ok run ⟨ns, { journal with ns :=
        (ns.setSequence journal.ns.sequence).setSequence (journal.ns.sequence + 1) }, _,
        rfl, ⟨?_, there.directory, there.safe⟩, ?_⟩
      · simp only [Session.setNs, Session.setJournal, there.journal]
        rfl
      · intro lossless
        have grown := slotBytes_append base journal.generation log record []
        rw [List.append_nil] at grown
        refine ⟨recorded.kept.snoc lossless recorded.encoded inner, ?_, ?_, ?_, ?_, ?_⟩
        · show ns.setSequence 0 = ns
          rw [← zero]
          rfl
        · rw [grown, ← recorded.content]
          exact Directory.setSlot_slots
        · exact Directory.setSlot_other.trans recorded.retired
        · rw [grown]
          exact recorded.size
        · rw [grown]
          exact recorded.short

/-- An append stops before its record is complete, is refused behind it, or applies the change. -/
theorem append_yields (change : Change)
    (here : At (Holds vacant tree) objects broken journal directory session)
    (ready : Ready tree base log journal directory) :
    Yields (Journal.append change) session
      (fun _ after => ∃ rest tree' base' log' journal' directory',
        recordRest change journal session.world.script = some rest ∧
        Namespace.apply change.value tree = .ok () tree' ∧
        At (Between vacant change tree) objects broken journal' directory' after ∧
        (change.Lossless → Ready tree' base' log' journal' directory'))
      (fun _ after =>
        (recordRest change journal session.world.script = none ∧
          Stopped vacant tree objects broken after) ∨
        ∃ rest, recordRest change journal session.world.script = some rest ∧
          Late vacant change tree objects broken after ∧
          (FileCall.rest .single rest = none ∨
            ∃ thrown, Namespace.apply change.value tree = .error thrown tree)) := by
  refine Yields.seq ((record_yields change here ready).and (record_consumes change here ready)) ?_ ?_
  · exact fun _ after stopped => .inl stopped.symm
  rintro _ after ⟨⟨base', log', record, journal', directory', file, there, recorded⟩, taken⟩
  refine (conclude_yields there recorded).weaken ?_ ?_
  · rintro _ final ⟨tree', journal'', directory'', accepted, reached, ready'⟩
    exact ⟨_, tree', base', _, journal'', directory'', taken, accepted, reached, ready'⟩
  · exact fun _ final late => .inr ⟨_, taken, late⟩

end Storage
end Postgamma
