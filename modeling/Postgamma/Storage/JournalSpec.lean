import Postgamma.Storage.JournalCalls
import Postgamma.Storage.Slots

/-!
# What the journal's operations do to the slots

One lemma for each operation: from a safe world it returns in the state that it is meant to
reach or throws, and every directory on the way survives a crash as a pair of slots that the
condition allows. Where no call fails, an operation throws only for reasons of its own.
-/

namespace Postgamma
namespace Storage

open Text Json LittleEndian CrashFile

variable {β : Type}

/-- An outcome that lets the call make progress. -/
def Outcome.Clean : Outcome → Prop
  | .full => True
  | .short count => 0 < count
  | .fail _ => False

theorem single_of_clean {script : List Outcome} (clean : ∀ outcome ∈ script, outcome.Clean) :
    FileCall.rest .single script ≠ none := by
  cases script with
  | nil => simp [FileCall.rest]
  | cons outcome script =>
      cases outcome with
      | full | short count => simp [FileCall.rest]
      | fail count => exact (clean _ List.mem_cons_self).elim

/-- Every directory of the past is sound, and no call of the future fails unless `broken`. -/
structure Safe (allowed : Image → Prop) (objects : List (Nat × File β)) (broken : Prop)
    (world : World β) : Prop where
  /-- The present is part of the past. -/
  current : world.directory ∈ world.past
  /-- The data objects are left alone. -/
  objects : ∀ directory ∈ world.past, directory.objects = objects
  /-- The slots survive every crash. -/
  sound : ∀ directory ∈ world.past, Sound allowed directory.slots
  /-- The calls to come do not fail. -/
  clean : broken ∨ ∀ outcome ∈ world.script, outcome.Clean

theorem Sound.mono {allowed allowed' : Image → Prop} {slots : Slot → Option (File UInt8)}
    (sound : Sound allowed slots) (weaker : ∀ image, allowed image → allowed' image) :
    Sound allowed' slots :=
  ⟨fun image crashes => weaker image (sound.images image crashes), sound.blank⟩

theorem Safe.mono {allowed allowed' : Image → Prop} {objects : List (Nat × File β)} {broken : Prop}
    {world : World β} (safe : Safe allowed objects broken world)
    (weaker : ∀ image, allowed image → allowed' image) : Safe allowed' objects broken world :=
  ⟨safe.current, safe.objects, fun directory member => (safe.sound directory member).mono weaker,
    safe.clean⟩

theorem Slot.other_ne (slot : Slot) : slot.other ≠ slot := by cases slot <;> decide

theorem Slot.other_other (slot : Slot) : slot.other.other = slot := by cases slot <;> rfl

theorem Slot.eq_or_other (slot other : Slot) : other = slot ∨ other = slot.other := by
  cases slot <;> cases other <;> decide

namespace Directory

variable {directory : Directory β} {slot : Slot} {file : File UInt8}

@[simp]
theorem setSlot_slots : (directory.setSlot slot file).slots slot = some file := by
  simp [setSlot]

@[simp]
theorem setSlot_other :
    (directory.setSlot slot file).slots slot.other = directory.slots slot.other := by
  simp [setSlot, slot.other_ne]

theorem setSlot_ne {other : Slot} (different : other ≠ slot) :
    (directory.setSlot slot file).slots other = directory.slots other := by
  simp [setSlot, different]

@[simp]
theorem setSlot_setSlot (first second : File UInt8) :
    (directory.setSlot slot first).setSlot slot second = directory.setSlot slot second := by
  simp [setSlot]

theorem setSlot_self (found : directory.slots slot = some file) :
    directory.setSlot slot file = directory := by
  simp [setSlot, ← found]

end Directory

section Sound

variable {allowed : Image → Prop} {directory : Directory β} {slot : Slot} {file next : File UInt8}

/-- A slot is replaced by a file of which a crash leaves nothing new but what is allowed. -/
theorem Sound.setSlot (sound : Sound allowed directory.slots)
    (found : directory.slots slot = some file) (fresh : List UInt8 → Prop)
    (survivors : ∀ left, next.Survives left → file.Survives left ∨ fresh left)
    (images : ∀ image left, fresh left → image slot = some left →
      Leaves (directory.slots slot.other) (image slot.other) → allowed image)
    (blank : next.content = [] → ∀ left, next.Survives left → left = []) :
    Sound allowed (directory.setSlot slot next).slots where
  images := by
    intro image crashes
    have here := crashes slot
    have there := crashes slot.other
    rw [Directory.setSlot_slots] at here
    rw [Directory.setSlot_other] at there
    cases inSlot : image slot with
    | none =>
        rw [inSlot] at here
        exact here.elim
    | some left =>
        rw [inSlot] at here
        rcases survivors left here with old | new
        · refine sound.images image fun other => ?_
          rcases slot.eq_or_other other with rfl | rfl
          · rw [found, inSlot]
            exact old
          · exact there
        · exact images image left new inSlot there
  blank := by
    intro other otherFile otherFound
    rcases slot.eq_or_other other with rfl | rfl
    · rw [Directory.setSlot_slots] at otherFound
      rw [← Option.some.inj otherFound]
      exact blank
    · rw [Directory.setSlot_other] at otherFound
      exact sound.blank _ otherFile otherFound

theorem Sound.flush (sound : Sound allowed directory.slots)
    (found : directory.slots slot = some file) :
    Sound allowed (directory.setSlot slot file.flush).slots := by
  refine sound.setSlot found (fun _ => False) ?_ (fun _ _ => False.elim) ?_
  · intro left survives
    rw [File.survives_flush.mp survives]
    exact .inl file.survives_content
  · intro empty left survives
    rw [File.survives_flush.mp survives]
    exact empty

theorem Sound.truncate (sound : Sound allowed directory.slots)
    (found : directory.slots slot = some file) {size : Nat} (positive : 0 < size)
    (images : ∀ image, image slot = some (resize file.content size) →
      Leaves (directory.slots slot.other) (image slot.other) → allowed image) :
    Sound allowed (directory.setSlot slot (file.edit (.truncate size))).slots := by
  refine sound.setSlot found (· = resize file.content size)
    (fun left => File.survives_truncate) ?_ ?_
  · rintro image _ rfl
    exact images image
  · intro empty
    rw [File.content_edit] at empty
    have length := resize_length file.content size
    rw [show resize file.content size = [] from empty] at length
    simp only [List.length_nil] at length
    omega

theorem Sound.write (sound : Sound allowed directory.slots)
    (found : directory.slots slot = some file) {offset : Nat} {data : Bytes}
    (images : ∀ image count, image slot = some (splice file.content offset (data.take count)) →
      Leaves (directory.slots slot.other) (image slot.other) → allowed image) :
    Sound allowed (directory.setSlot slot (file.edit (.write offset data))).slots := by
  refine sound.setSlot found
    (fun left => ∃ count, left = splice file.content offset (data.take count))
    (fun left => File.survives_write) ?_ ?_
  · rintro image _ ⟨count, rfl⟩
    exact images image count
  · intro empty left survives
    rw [File.content_edit] at empty
    have length := splice_length file.content offset data
    rw [show splice file.content offset data = [] from empty] at length
    simp only [List.length_nil] at length
    have noContent : file.content = [] := List.length_eq_zero_iff.mp (by omega)
    have noData : data = [] := List.length_eq_zero_iff.mp (by omega)
    have start : offset = 0 := by omega
    rcases File.survives_write survives with old | ⟨count, rfl⟩
    · exact sound.blank slot file found noContent left old
    · rw [noContent, noData, start]
      simp [splice]

end Sound

/-- The bytes of the slots as a reader sees them. -/
def Directory.contents (directory : Directory β) : Image :=
  fun slot => (directory.slots slot).map File.content

theorem crashes_contents (directory : Directory β) :
    Crashes directory.slots directory.contents := by
  intro slot
  unfold Directory.contents
  cases directory.slots slot with
  | none => trivial
  | some file => exact file.survives_content

theorem contents_flush {directory : Directory β} {slot : Slot} {file : File UInt8}
    (found : directory.slots slot = some file) :
    (directory.setSlot slot file.flush).contents = directory.contents := by
  funext other
  rcases slot.eq_or_other other with rfl | rfl
  · simp [Directory.contents, found]
  · simp [Directory.contents]

/-- A safe session with the given journal object and directory. -/
structure At (allowed : Image → Prop) (objects : List (Nat × File β)) (broken : Prop)
    (journal : Journal) (directory : Directory β) (session : Session β) : Prop where
  journal : session.journal = journal
  directory : session.world.directory = directory
  safe : Safe allowed objects broken session.world

/-- An operation has failed with a call, in a safe world and without a change of the namespace. -/
structure Failed (allowed : Image → Prop) (objects : List (Nat × File β)) (broken : Prop)
    (ns : Namespace) (session : Session β) : Prop where
  /-- A call may fail. -/
  cause : broken
  /-- The namespace is as it was. -/
  ns : session.journal.ns = ns
  safe : Safe allowed objects broken session.world

section Calls

variable {allowed : Image → Prop} {objects : List (Nat × File β)} {broken : Prop}
  {session : Session β} {journal : Journal} {directory : Directory β} {slot : Slot}
  {file : File UInt8}

theorem At.sound (here : At allowed objects broken journal directory session) :
    Sound allowed directory.slots :=
  here.directory ▸ here.safe.sound _ here.safe.current

theorem At.objects_eq (here : At allowed objects broken journal directory session) :
    directory.objects = objects :=
  here.directory ▸ here.safe.objects _ here.safe.current

theorem At.failed (here : At allowed objects broken journal directory session) (isBroken : broken) :
    Failed allowed objects broken journal.ns session :=
  ⟨isBroken, by rw [here.journal], here.safe⟩

theorem At.file_eq (here : At allowed objects broken journal directory session)
    (found : directory.slots slot = some file) : session.file slot = file := by
  rw [Session.file, here.directory, found]
  rfl

theorem At.setJournal (here : At allowed objects broken journal directory session)
    (next : Journal) : At allowed objects broken next directory (session.setJournal next) :=
  ⟨rfl, here.directory, here.safe⟩

theorem At.setSlot (here : At allowed objects broken journal directory session)
    (sound : Sound allowed (directory.setSlot slot file).slots) :
    At allowed objects broken journal (directory.setSlot slot file) (session.setSlot slot file) where
  journal := here.journal
  directory := by rw [← here.directory]; rfl
  safe := by
    have place : (session.setSlot slot file).world.directory = directory.setSlot slot file := by
      rw [← here.directory]
      rfl
    have past : ∀ past ∈ (session.setSlot slot file).world.past,
        past = directory.setSlot slot file ∨ past ∈ session.world.past := by
      intro past member
      rw [← place]
      exact List.mem_cons.mp member
    refine ⟨?_, ?_, ?_, here.safe.clean⟩
    · exact List.mem_cons_self
    · intro past' member
      rcases past past' member with rfl | old
      · exact here.objects_eq
      · exact here.safe.objects past' old
    · intro past' member
      rcases past past' member with rfl | old
      · exact sound
      · exact here.safe.sound past' old

theorem outcome_yields (here : At allowed objects broken journal directory session) :
    Yields outcome session
      (fun result after => (broken ∨ result.Clean) ∧
        At allowed objects broken journal directory after)
      (fun _ _ => False) := by
  unfold Yields outcome
  cases script : session.world.script with
  | nil => exact ⟨.inr trivial, here⟩
  | cons next rest =>
      have clean := here.safe.clean
      rw [script] at clean
      refine ⟨clean.imp_right fun all => all next List.mem_cons_self, here.journal, here.directory,
        here.safe.current, here.safe.objects, here.safe.sound, ?_⟩
      exact clean.imp_right fun all outcome member => all outcome (List.mem_cons_of_mem next member)

theorem handleFlush_yields (here : At allowed objects broken journal directory session)
    (found : directory.slots slot = some file) :
    Yields (AccessHandle.flush slot) session
      (fun _ => At allowed objects broken journal (directory.setSlot slot file.flush))
      (fun _ after => Failed allowed objects broken journal.ns after ∧
        after.world.directory.contents = directory.contents) := by
  refine Yields.seq (outcome_yields here) (fun _ _ => False.elim) ?_
  rintro result after ⟨clean, there⟩
  have flushed : At allowed objects broken journal (directory.setSlot slot file.flush)
      (after.setSlot slot (after.file slot).flush) := by
    rw [there.file_eq found]
    exact there.setSlot (there.sound.flush found)
  cases result with
  | full => exact flushed
  | short count => exact flushed
  | fail count =>
      have isBroken : broken := clean.resolve_right id
      cases count with
      | zero => exact ⟨there.failed isBroken, congrArg Directory.contents there.directory⟩
      | succ count =>
          exact ⟨flushed.failed isBroken,
            (congrArg Directory.contents flushed.directory).trans (contents_flush found)⟩

theorem handleTruncate_yields (here : At allowed objects broken journal directory session)
    (found : directory.slots slot = some file) {size : Nat} (positive : 0 < size)
    (images : ∀ image, image slot = some (resize file.content size) →
      Leaves (directory.slots slot.other) (image slot.other) → allowed image) :
    Yields (AccessHandle.truncate slot size) session
      (fun _ => At allowed objects broken journal
        (directory.setSlot slot (file.edit (.truncate size))))
      (fun _ => Failed allowed objects broken journal.ns) := by
  refine Yields.seq (outcome_yields here) (fun _ _ => False.elim) ?_
  rintro result after ⟨clean, there⟩
  have cut : At allowed objects broken journal (directory.setSlot slot (file.edit (.truncate size)))
      (after.setSlot slot ((after.file slot).edit (.truncate size))) := by
    rw [there.file_eq found]
    exact there.setSlot (there.sound.truncate found positive images)
  cases result with
  | full => exact cut
  | short count => exact cut
  | fail count =>
      have isBroken : broken := clean.resolve_right id
      cases count with
      | zero => exact there.failed isBroken
      | succ count => exact cut.failed isBroken

theorem At.mono {allowed' : Image → Prop} (here : At allowed objects broken journal directory session)
    (weaker : ∀ image, allowed image → allowed' image) :
    At allowed' objects broken journal directory session :=
  ⟨here.journal, here.directory, here.safe.mono weaker⟩

/-- A crash during the call leaves a part of the data, and all of it only if the call returns. -/
theorem handleWrite_yields {torn : Image → Prop}
    (here : At torn objects broken journal directory session)
    (weaker : ∀ image, torn image → allowed image)
    (found : directory.slots slot = some file) {offset : Nat} {data : Bytes} (nonempty : data ≠ [])
    (images : ∀ image count, count < data.length →
      image slot = some (splice file.content offset (data.take count)) →
      Leaves (directory.slots slot.other) (image slot.other) → torn image)
    (whole : ∀ image, image slot = some (splice file.content offset data) →
      Leaves (directory.slots slot.other) (image slot.other) → allowed image) :
    Yields (AccessHandle.write slot data offset) session
      (fun count after => count ≤ data.length ∧ (broken ∨ 0 < count) ∧
        At (if count < data.length then torn else allowed) objects broken journal
          (directory.setSlot slot (file.edit (.write offset (data.take count)))) after)
      (fun _ => Failed torn objects broken journal.ns) := by
  refine Yields.seq (outcome_yields here) (fun _ _ => False.elim) ?_
  rintro result after ⟨clean, there⟩
  have positive := List.length_pos_iff.mpr nonempty
  have part {count : Nat} (short : count < data.length) : At torn objects broken journal
      (directory.setSlot slot (file.edit (.write offset (data.take count))))
      (after.setSlot slot ((after.file slot).edit (.write offset (data.take count)))) := by
    rw [there.file_eq found]
    refine there.setSlot (there.sound.write found ?_)
    intro image less inSlot
    rw [List.take_take] at inSlot
    exact images image _ (by omega) inSlot
  have full : At allowed objects broken journal
      (directory.setSlot slot (file.edit (.write offset data)))
      (after.setSlot slot ((after.file slot).edit (.write offset data))) := by
    rw [there.file_eq found]
    refine (there.mono weaker).setSlot ((there.mono weaker).sound.write found ?_)
    intro image less inSlot inOther
    by_cases short : less < data.length
    · exact weaker image (images image less short inSlot inOther)
    · rw [List.take_of_length_le (by omega)] at inSlot
      exact whole image inSlot inOther
  cases result with
  | full =>
      refine ⟨le_rfl, .inr positive, ?_⟩
      rw [if_neg (lt_irrefl _), List.take_length]
      exact full
  | short count =>
      refine ⟨List.length_take_le' _ _, ?_, ?_⟩
      · rw [List.length_take]
        refine clean.imp_right fun progress => ?_
        have progress : 0 < count := progress
        omega
      · rw [List.length_take, ← List.take_take, List.take_length]
        by_cases short : count < data.length
        · rw [Nat.min_eq_left short.le, if_pos short]
          exact part short
        · rw [List.take_of_length_le (by omega), if_neg (by omega)]
          exact full
  | fail count =>
      have isBroken : broken := clean.resolve_right id
      have cut : data.dropLast.take count = data.take (min count (data.length - 1)) := by
        rw [List.dropLast_eq_take, List.take_take]
      have failed : At torn objects broken journal _ _ :=
        part (show min count (data.length - 1) < data.length by omega)
      rw [← cut] at failed
      exact failed.failed isBroken

def Journal.withSize (journal : Journal) (slot : Slot) (size : Nat) : Journal :=
  { journal with sizes := Function.update journal.sizes slot size }

@[simp]
theorem Journal.withSize_withSize (journal : Journal) (slot : Slot) (first second : Nat) :
    (journal.withSize slot first).withSize slot second = journal.withSize slot second := by
  simp [withSize]

@[simp]
theorem Journal.withSize_sizes (journal : Journal) (slot : Slot) (size : Nat) :
    (journal.withSize slot size).sizes slot = size := by
  simp [withSize]

theorem Journal.withSize_ne (journal : Journal) {slot other : Slot} (different : other ≠ slot)
    (size : Nat) : (journal.withSize slot size).sizes other = journal.sizes other := by
  simp [withSize, different]

theorem At.setSize (here : At allowed objects broken journal directory session) (slot : Slot)
    (size : Nat) :
    At allowed objects broken (journal.withSize slot size) directory (session.setSize slot size) := by
  have resized : session.setSize slot size = session.setJournal (journal.withSize slot size) := by
    rw [← here.journal]
    rfl
  rw [resized]
  exact here.setJournal _

/-- Writing on behind a first part is writing a longer part. -/
theorem splice_part {bytes data : Bytes} {offset count : Nat} (inside : offset ≤ bytes.length)
    (bound : count ≤ data.length) (more : Nat) :
    splice (splice bytes offset (data.take count)) (offset + count) ((data.drop count).take more) =
      splice bytes offset (data.take (count + more)) := by
  have length : (data.take count).length = count := by
    rw [List.length_take, Nat.min_eq_left bound]
  have joined := splice_splice inside (data.take count) ((data.drop count).take more)
  rwa [length, ← List.take_add] at joined

/-- The loop returns with all bytes written, and a crash leaves all of them only if it does. -/
theorem write_yields {torn : Image → Prop} {bytes : Bytes} {offset : Nat}
    (here : At torn objects broken journal directory session)
    (weaker : ∀ image, torn image → allowed image)
    (found : directory.slots slot = some file) (inside : offset ≤ file.content.length)
    (nonempty : bytes ≠ [])
    (images : ∀ image count, count < bytes.length →
      image slot = some (splice file.content offset (bytes.take count)) →
      Leaves (directory.slots slot.other) (image slot.other) → torn image)
    (whole : ∀ image, image slot = some (splice file.content offset bytes) →
      Leaves (directory.slots slot.other) (image slot.other) → allowed image) :
    Yields (Journal.write slot bytes offset) session
      (fun _ after => ∃ next, next.content = splice file.content offset bytes ∧
        At allowed objects broken
          (journal.withSize slot (max (journal.sizes slot) (offset + bytes.length)))
          (directory.setSlot slot next) after)
      (fun _ => Failed torn objects broken journal.ns) := by
  -- Induction on the bytes that are left, with the file as the writes before have left it.
  induction length : bytes.length using Nat.strong_induction_on generalizing bytes offset session
    journal directory file with
  | _ size induction =>
      subst length
      rw [Journal.write, if_neg nonempty]
      refine Yields.bind (handleWrite_yields here weaker found nonempty images whole) ?_
      rintro count after ⟨bound, progress, there⟩
      have positive := List.length_pos_iff.mpr nonempty
      split_ifs with stuck
      · rw [if_pos (by omega)] at there
        exact there.failed (progress.resolve_right (by omega))
      have sized (allowed' : Image → Prop) (before : At allowed' objects broken journal
          (directory.setSlot slot (file.edit (.write offset (bytes.take count)))) after) :
          At allowed' objects broken
            (journal.withSize slot (max (journal.sizes slot) (offset + count)))
            (directory.setSlot slot (file.edit (.write offset (bytes.take count))))
            (after.setSize slot (max (after.journal.sizes slot) (offset + count))) := by
        rw [before.journal]
        exact before.setSize slot _
      have content : (file.edit (.write offset (bytes.take count))).content =
          splice file.content offset (bytes.take count) := File.content_edit file _
      apply Yields.modify_bind
      rcases bound.lt_or_eq with short | rfl
      · rw [if_pos short] at there
        have rest : bytes.drop count ≠ [] := by
          apply List.ne_nil_of_length_pos
          rw [List.length_drop]
          omega
        have reached : offset + count ≤
            (file.edit (.write offset (bytes.take count))).content.length := by
          rw [content, splice_length, List.length_take]
          omega
        have all : splice (splice file.content offset (bytes.take count)) (offset + count)
            (bytes.drop count) = splice file.content offset bytes := by
          have joined := splice_part inside bound (bytes.drop count).length
          rwa [List.take_length, List.length_drop, Nat.add_sub_cancel' bound,
            List.take_length] at joined
        refine (induction (bytes.drop count).length (by rw [List.length_drop]; omega)
          (sized torn there) Directory.setSlot_slots reached rest ?_ ?_ rfl).weaken ?_ (fun _ _ => id)
        · intro image less few inSlot inOther
          rw [Directory.setSlot_other] at inOther
          rw [content, splice_part inside bound] at inSlot
          rw [List.length_drop] at few
          exact images image (count + less) (by omega) inSlot inOther
        · intro image inSlot inOther
          rw [Directory.setSlot_other] at inOther
          rw [content, all] at inSlot
          exact whole image inSlot inOther
        · rintro _ final ⟨last, written, reached⟩
          refine ⟨last, by rw [written, content, all], ?_⟩
          rw [Directory.setSlot_setSlot, Journal.withSize_withSize, Journal.withSize_sizes,
            List.length_drop] at reached
          have total : max (max (journal.sizes slot) (offset + count))
              (offset + count + (bytes.length - count)) =
                max (journal.sizes slot) (offset + bytes.length) := by omega
          rwa [total] at reached
      · rw [if_neg (lt_irrefl _)] at there
        rw [List.drop_length, Journal.write, if_pos rfl]
        exact ⟨_, by rw [content, List.take_length], sized allowed there⟩

theorem truncate_yields (here : At allowed objects broken journal directory session)
    (found : directory.slots slot = some file) {size : Nat} (positive : 0 < size)
    (images : ∀ image, image slot = some (resize file.content size) →
      Leaves (directory.slots slot.other) (image slot.other) → allowed image) :
    Yields (Journal.truncate slot size) session
      (fun _ => At allowed objects broken (journal.withSize slot size)
        (directory.setSlot slot (file.edit (.truncate size))))
      (fun _ => Failed allowed objects broken journal.ns) := by
  refine Yields.bind (handleTruncate_yields here found positive images) ?_
  intro _ after there
  exact there.setSize slot size

theorem flush_yields (here : At allowed objects broken journal directory session)
    (found : directory.slots journal.active = some file) :
    Yields Journal.flush session
      (fun _ => At allowed objects broken journal (directory.setSlot journal.active file.flush))
      (fun _ after => Failed allowed objects broken journal.ns after ∧
        after.world.directory.contents = directory.contents) := by
  apply Yields.get_bind
  rw [here.journal]
  exact handleFlush_yields here found

/-- Retiring a stale slot leaves the marker in it, and the slot is stale all the way. -/
theorem retire_yields {generation : Nat}
    (here : At allowed objects broken journal directory session)
    (found : directory.slots slot = some file) (stale : Stale generation file.content)
    (images : ∀ image bytes, image slot = some bytes → Stale generation bytes →
      Leaves (directory.slots slot.other) (image slot.other) → allowed image) :
    Yields (Journal.retire slot) session
      (fun _ => At allowed objects broken (journal.withSize slot 32)
        (directory.setSlot slot (.ofBytes marker)))
      (fun _ => Failed allowed objects broken journal.ns) := by
  refine Yields.bind (write_yields here (fun _ => id) found (Nat.zero_le _) (by decide) ?_ ?_) ?_
  · intro image count _ inSlot
    exact images image _ inSlot (stale.splice_marker count)
  · intro image inSlot
    exact images image _ inSlot (stale.splice_marker 32)
  rintro _ after ⟨next, written, there⟩
  refine Yields.seq (handleFlush_yields there Directory.setSlot_slots) (fun _ _ => And.left) ?_
  intro _ after there
  rw [Directory.setSlot_setSlot] at there
  have content : next.flush.content = splice file.content 0 marker := by
    rw [File.content_flush, written]
  have cut : resize next.flush.content marker.length = marker := by
    rw [content, resize_of_le (by rw [splice_length]; omega), splice_eq (Nat.zero_le _),
      List.take_zero, List.nil_append, List.take_left]
  refine Yields.seq (truncate_yields there Directory.setSlot_slots (by decide) ?_)
    (fun _ _ => id) ?_
  · intro image inSlot
    rw [cut] at inSlot
    rw [Directory.setSlot_other]
    exact images image _ inSlot (stale_marker generation)
  intro _ after there
  rw [Directory.setSlot_setSlot, Journal.withSize_withSize] at there
  refine (handleFlush_yields there Directory.setSlot_slots).weaken ?_ (fun _ _ => And.left)
  intro _ final last
  rwa [Directory.setSlot_setSlot, File.flush, File.content_edit,
    show (Edit.truncate marker.length).apply next.flush.content = marker from cut] at last

end Calls

end Storage
end Postgamma
