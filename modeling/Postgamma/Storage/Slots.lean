import Postgamma.Storage.Journal
import Postgamma.Storage.Record

/-!
# What the slots hold

The bytes of a slot are live, a snapshot with records and perhaps a torn one behind it, or stale,
without a snapshot of the current generation. Overwriting a stale slot with any part of the
retirement marker leaves it stale, and a snapshot over the marker has no authority until its last
byte is there. `Holds` says which namespace a pair of slots stands for.
-/

namespace Postgamma
namespace Storage

open Text Json LittleEndian CrashFile

/-- The three bytes that every first word begins with. -/
def mark : Bytes := [0x50, 0x47, 0x4E]

/-- Bytes without a snapshot of the given generation or a later one. -/
structure Stale (generation : Nat) (bytes : Bytes) : Prop where
  /-- The slot is not too long to be read. -/
  short : bytes.length ≤ slotLimit
  /-- The first bytes are those that a marker also begins with. -/
  marked : bytes.take 3 <+: mark
  /-- It is no journal of the old format. -/
  notLegacy : ¬Journal.Legacy bytes
  older : ∀ state, Checkpoint.restore bytes = .ok state → state.generation < generation

/-- Headers that `restore` refuses. -/
theorem restore_ne_ok {bytes : Bytes}
    (refused : bytes.length < headerBytes ∨ getUint32 bytes 0 ≠ checkpointMagic ∨
      bytes.length < getUint32 bytes 4 ∨ getUint32 bytes 16 = 0) (state : Checkpoint.Restored) :
    Checkpoint.restore bytes ≠ .ok state := by
  rw [Checkpoint.restore]
  by_cases incomplete : bytes.length < headerBytes
  · rw [if_pos incomplete]
    simp
  · rw [if_neg incomplete]
    dsimp only
    rw [if_pos (by tauto)]
    simp

theorem stale_tiny {bytes : Bytes} (tiny : bytes.length ≤ 3) (marked : bytes <+: mark)
    (generation : Nat) : Stale generation bytes where
  short := tiny.trans (by decide)
  marked := by rwa [List.take_of_length_le tiny]
  notLegacy legacy := by
    have := legacy.1
    omega
  older state restored := by
    refine (restore_ne_ok (.inl ?_) state restored).elim
    simp only [headerBytes]
    omega

theorem stale_nil (generation : Nat) : Stale generation [] :=
  stale_tiny (by simp) (List.nil_prefix) generation

theorem marker_length : marker.length = 32 := rfl

theorem marker_take_mark {count : Nat} (few : count ≤ 3) : marker.take count <+: mark := by
  interval_cases count <;> decide

/-- Bytes that begin with the marker's first word are stale. -/
theorem stale_retired {count : Nat} (enough : 4 ≤ count) {rest : Bytes}
    (short : (marker.take count ++ rest).length ≤ slotLimit) (generation : Nat) :
    Stale generation (marker.take count ++ rest) := by
  have word : getUint32 (marker.take count ++ rest) 0 = retiredMagic :=
    getUint32_cut enough (by decide)
  have front : (marker.take count ++ rest).take 3 = mark := by
    rw [List.take_append_of_le_length (by rw [List.length_take, marker_length]; omega),
      List.take_take, Nat.min_eq_left (by omega)]
    rfl
  refine ⟨short, by rw [front], ?_, ?_⟩
  · rintro ⟨-, legacy⟩
    rw [word] at legacy
    exact absurd legacy (by decide)
  · intro state restored
    exact (restore_ne_ok (.inr (.inl (by rw [word]; decide))) state restored).elim

theorem stale_marker (generation : Nat) : Stale generation marker := by
  have whole : marker = marker.take 32 ++ [] := rfl
  rw [whole]
  exact stale_retired (by norm_num) (by decide) generation

theorem Stale.splice_marker {generation : Nat} {bytes : Bytes} (stale : Stale generation bytes)
    (count : Nat) : Stale generation (splice bytes 0 (marker.take count)) := by
  by_cases few : count ≤ 3
  · have markerTake := marker_take_mark few
    have length : (marker.take count).length = count := by
      rw [List.length_take, marker_length]
      omega
    by_cases long : count ≤ bytes.length
    · -- The bytes written are those that are there.
      have same : bytes.take count = marker.take count := by
        have kept : bytes.take count <+: mark := by
          refine List.IsPrefix.trans ?_ stale.marked
          rw [show bytes.take count = (bytes.take 3).take count by
            rw [List.take_take, Nat.min_eq_left few]]
          exact List.take_prefix _ _
        refine (List.prefix_of_prefix_length_le kept markerTake ?_).eq_of_length ?_ <;>
          rw [length, List.length_take] <;> omega
      rw [splice_eq (Nat.zero_le _), length, ← same, List.take_zero, List.nil_append,
        Nat.zero_add, List.take_append_drop]
      exact stale
    · rw [splice_cover (by omega)]
      exact stale_tiny (by omega) markerTake generation
  · have short := splice_length bytes 0 (marker.take count)
    rw [splice_eq (Nat.zero_le _), List.take_zero, List.nil_append] at short ⊢
    refine stale_retired (by omega) ?_ generation
    rw [short, List.length_take, marker_length]
    have limit : 32 ≤ slotLimit := by decide
    have room := stale.short
    omega

theorem sealed_words {ns : Namespace} (tree : ns.Tree) (generation : Nat) :
    getUint32 (Checkpoint.sealed ns generation) 0 = checkpointMagic ∧
      getUint32 (Checkpoint.sealed ns generation) 4 = Checkpoint.snapshotSize ns ∧
      (Checkpoint.sealed ns generation).take 3 = mark := by
  have size := Checkpoint.snapshotSize_le tree
  simp only [slotLimit, journalLimit] at size
  have small : Checkpoint.snapshotSize ns < 2 ^ 32 := by omega
  have position : (u32 checkpointMagic).length = 4 := rfl
  exact ⟨getUint32_u32 (by decide) _, getUint32_at small position, rfl⟩

theorem snapshotSize_gt {ns : Namespace} (tree : ns.Tree) : 32 < Checkpoint.snapshotSize ns := by
  obtain ⟨root, member, -⟩ := tree.root
  have part : 20 + (Text.encode root.name).length ≤
      (ns.nodes.map fun node => 20 + (Text.encode node.name).length).sum :=
    List.single_le_sum (by simp) _ (List.mem_map_of_mem member)
  simp only [Checkpoint.snapshotSize, headerBytes]
  omega

/-- A part of a snapshot over the marker has no authority. -/
theorem stale_incomplete {ns : Namespace} (tree : ns.Tree) (written : Nat) {count : Nat}
    (torn : count < Checkpoint.snapshotSize ns) (generation : Nat) :
    Stale generation (splice marker 0 ((Checkpoint.sealed ns written).take count)) := by
  obtain ⟨magic, size, front⟩ := sealed_words tree written
  have large := snapshotSize_gt tree
  have limit := Checkpoint.snapshotSize_le tree
  have sealedLength := Checkpoint.sealed_length ns written
  have cutLength : ((Checkpoint.sealed ns written).take count).length = count := by
    rw [List.length_take]
    omega
  have length : (splice marker 0 ((Checkpoint.sealed ns written).take count)).length =
      max 32 count := by
    rw [splice_length, marker_length, cutLength, Nat.zero_add]
  by_cases few : count ≤ 3
  · -- Nothing has changed yet.
    have same : (Checkpoint.sealed ns written).take count = marker.take count := by
      have first : (Checkpoint.sealed ns written).take count = mark.take count := by
        rw [← front, List.take_take, Nat.min_eq_left few]
      have second : marker.take count = mark.take count := by
        rw [show mark = marker.take 3 from rfl, List.take_take, Nat.min_eq_left few]
      rw [first, second]
    rw [same]
    exact (stale_marker generation).splice_marker count
  · rw [splice_eq (Nat.zero_le _), List.take_zero, List.nil_append, Nat.zero_add,
      cutLength] at length ⊢
    have first : getUint32 ((Checkpoint.sealed ns written).take count ++ marker.drop count) 0 =
        checkpointMagic := by rw [getUint32_cut (by omega) (by omega), magic]
    refine ⟨by rw [length]; omega, ?_, ?_, ?_⟩
    · rw [List.take_append_of_le_length (by omega), List.take_take, Nat.min_eq_left (by omega),
        front]
    · rintro ⟨-, legacy⟩
      rw [first] at legacy
      exact absurd legacy (by decide)
    · intro state restored
      refine (restore_ne_ok (.inr (.inr ?_)) state restored).elim
      -- Either the count is still that of the marker, or the size is there and asks for more.
      by_cases header : count ≤ 16
      · refine .inr ?_
        have zero : getUint32 marker 16 = 0 := by decide
        rw [← zero]
        apply getUint32_congr
        rw [List.drop_append, List.drop_eq_nil_of_le (by omega), List.nil_append, cutLength,
          List.drop_drop, Nat.add_sub_cancel' header]
      · refine .inl ?_
        rw [getUint32_cut (by omega) (by omega), size, length]
        omega

/-- The rest that an interrupted append may leave. -/
def Torn (torn : Bytes) : Prop :=
  torn = [] ∨ ∃ change sequence record count, encode change sequence = .ok record ∧
    count < record.length ∧ torn = record.take count

theorem Torn.replayFrom {torn : Bytes} (isTorn : Torn torn) (ns : Namespace) (offset : Nat) :
    ns.replayFrom offset torn = (ns, .ok ⟨offset, torn.length⟩) := by
  rcases isTorn with rfl | ⟨change, sequence, record, count, encoded, short, rfl⟩
  · rw [Namespace.replayFrom]
    rfl
  · rw [Namespace.replayFrom_torn encoded short, List.length_take, Nat.min_eq_left short.le]

/-- A snapshot of one generation and the records behind it lead to a namespace. -/
structure Kept (base : Namespace) (generation : Nat) (log : Bytes) (ns : Namespace) : Prop where
  tree : base.Tree
  /-- Its names come back. -/
  names : base.NamesLossless
  /-- The generation is not zero. -/
  positive : 1 ≤ generation
  /-- The generation fits its word. -/
  small : generation ≤ 0xffffffff
  /-- The records are those of changes up to the namespace. -/
  logged : (base.setSequence 0).Logged log ns

/-- The bytes of a slot with its snapshot, its records and a rest. -/
def slotBytes (base : Namespace) (generation : Nat) (log rest : Bytes) : Bytes :=
  Checkpoint.sealed base generation ++ (log ++ rest)

/-- What `restore` makes of a snapshot with lossless names. -/
def snapshotState (base : Namespace) (generation : Nat) : Checkpoint.Restored :=
  { ns := base.setSequence 0, generation, size := Checkpoint.snapshotSize base }

section Kept

variable {base ns : Namespace} {generation : Nat} {log : Bytes}

theorem Kept.restore (kept : Kept base generation log ns) (rest : Bytes) :
    Checkpoint.restore (slotBytes base generation log rest) =
      .ok (snapshotState base generation) :=
  Checkpoint.restore_sealed_of_lossless kept.tree kept.names kept.positive kept.small _

theorem drop_slotBytes (rest : Bytes) :
    (slotBytes base generation log rest).drop (Checkpoint.snapshotSize base) = log ++ rest :=
  List.drop_left' (Checkpoint.sealed_length base generation)

theorem Kept.replayFrom (kept : Kept base generation log ns) (rest : Bytes) :
    (base.setSequence 0).replayFrom 0 (log ++ rest) = ns.replayFrom log.length rest := by
  rw [kept.logged.replayFrom, Nat.zero_add]

theorem Kept.tree_ns (kept : Kept base generation log ns) : ns.Tree :=
  kept.logged.tree (kept.tree.setSequence 0)

theorem Kept.names_ns (kept : Kept base generation log ns) : ns.NamesLossless :=
  kept.logged.names kept.names

theorem slotBytes_mark (kept : Kept base generation log ns) (rest : Bytes) :
    (slotBytes base generation log rest).take 3 <+: mark ∧
      ¬Journal.Legacy (slotBytes base generation log rest) := by
  obtain ⟨magic, -, front⟩ := sealed_words kept.tree generation
  have long := snapshotSize_gt kept.tree
  have length := Checkpoint.sealed_length base generation
  have word : getUint32 (slotBytes base generation log rest) 0 = checkpointMagic := by
    rw [slotBytes, ← List.take_length (l := Checkpoint.sealed base generation),
      getUint32_cut (by omega) (by omega), magic]
  refine ⟨?_, ?_⟩
  · rw [slotBytes, List.take_append_of_le_length (by omega), front]
  · rintro ⟨-, legacy⟩
    rw [word] at legacy
    exact absurd legacy (by decide)

/-- A live slot is stale for every later generation. -/
theorem Kept.stale (kept : Kept base generation log ns) {rest : Bytes}
    (short : (slotBytes base generation log rest).length ≤ slotLimit) {later : Nat}
    (newer : generation < later) : Stale later (slotBytes base generation log rest) := by
  obtain ⟨marked, notLegacy⟩ := slotBytes_mark kept rest
  refine ⟨short, marked, notLegacy, ?_⟩
  intro state restored
  rw [kept.restore rest] at restored
  rw [← Except.ok.inj restored]
  exact newer

end Kept

/-- The bytes of the slots after a crash. -/
abbrev Image := Slot → Option Bytes

/-- What a crash may make of a journal file. -/
def Leaves : Option (File UInt8) → Option Bytes → Prop
  | none, none => True
  | some file, some bytes => file.Survives bytes
  | _, _ => False

/-- What a crash may make of the journal files, each on its own. -/
def Crashes (slots : Slot → Option (File UInt8)) (image : Image) : Prop :=
  ∀ slot, Leaves (slots slot) (image slot)

/-- Every crash leaves a pair of slots that the condition allows, and a slot that reads as empty
is empty after every crash. -/
structure Sound (allowed : Image → Prop) (slots : Slot → Option (File UInt8)) : Prop where
  /-- The condition holds after every crash. -/
  images : ∀ image, Crashes slots image → allowed image
  /-- Nothing comes back in an empty slot. -/
  blank : ∀ slot file, slots slot = some file → file.content = [] →
    ∀ left, file.Survives left → left = []

/-- Opening the slots yields the namespace, whose sequence is left at zero here. Only in a vacant
directory they may be without a snapshot. -/
inductive Holds (vacant : Prop) (tree : Namespace) (image : Image) : Prop where
  | fresh (isVacant : vacant) (isInitial : tree = .initial) (first : image .first = none ∨ image .first = some [])
      (second : ∀ bytes, image .second = some bytes → Stale 0 bytes)
      (order : image .first = none → image .second = none)
  | live {slot : Slot} {base ns : Namespace} {generation : Nat} {log torn other : Bytes}
      (kept : Kept base generation log ns) (same : ns.setSequence 0 = tree) (isTorn : Torn torn)
      (here : image slot = some (slotBytes base generation log torn))
      (short : (slotBytes base generation log torn).length ≤ slotLimit)
      (there : image slot.other = some other) (stale : Stale generation other)

/-- The slots hold a namespace and the complete record of one more change. -/
def Completed (change : Change) (tree : Namespace) (image : Image) : Prop :=
  ∃ slot base ns generation log record other, Kept base generation log ns ∧
    ns.setSequence 0 = tree ∧ encode change (ns.sequence + 1) = .ok record ∧
    image slot = some (slotBytes base generation log record) ∧
    (slotBytes base generation log record).length ≤ slotLimit ∧
    image slot.other = some other ∧ Stale generation other

/-- A change acts alike on a namespace and on the tree that it stands for. -/
theorem apply_of_tree {change : Value} {ns after : Namespace}
    (accepted : Namespace.apply change (ns.setSequence 0) = .ok () after) :
    Namespace.apply change ns = .ok () (after.setSequence ns.sequence) ∧ after.sequence = 0 := by
  have commute := Namespace.apply_commutes ns.sequence change (ns.setSequence 0)
  rw [accepted] at commute
  obtain ⟨name, -, step⟩ := Namespace.applied_of_apply accepted
  exact ⟨commute, step.sequence_eq⟩

/-- One more record of an accepted change. -/
theorem Kept.snoc {base ns after : Namespace} {generation : Nat} {log record : Bytes}
    {change : Change} (kept : Kept base generation log ns) (lossless : change.Lossless)
    (encoded : encode change (ns.sequence + 1) = .ok record)
    (accepted : Namespace.apply change.value ns = .ok () after) :
    Kept base generation (log ++ record) (after.setSequence (after.sequence + 1)) :=
  ⟨kept.tree, kept.names, kept.positive, kept.small, .snoc kept.logged lossless encoded accepted⟩

theorem slotBytes_append (base : Namespace) (generation : Nat) (log record rest : Bytes) :
    slotBytes base generation (log ++ record) rest =
      slotBytes base generation log (record ++ rest) := by
  simp only [slotBytes, List.append_assoc]

/-- With an accepted change the completed record is part of the log. -/
theorem Completed.holds {vacant : Prop} {change : Change} {tree after : Namespace} {image : Image}
    (completed : Completed change tree image) (lossless : change.Lossless)
    (accepted : Namespace.apply change.value tree = .ok () after) : Holds vacant after image := by
  obtain ⟨slot, base, ns, generation, log, record, other, kept, rfl, encoded, here, short, there,
    stale⟩ := completed
  obtain ⟨inner, zero⟩ := apply_of_tree accepted
  have grown := slotBytes_append base generation log record []
  rw [List.append_nil] at grown
  refine .live (kept.snoc lossless encoded inner) ?_ (.inl rfl) (grown ▸ here) (grown ▸ short)
    there stale
  rw [← zero]
  rfl

end Storage
end Postgamma
