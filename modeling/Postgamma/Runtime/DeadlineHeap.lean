import Mathlib
import Postgamma.Library.Heap

/-!
# The deadline heap

The intrusive timer queue of `deadline_heap.h`.  An entry is named by its owner, and its `at` and
`position` are kept beside the array of entries.
-/

namespace Postgamma.Runtime

/-- `UINT64_MAX`, which is also `SIZE_MAX`. -/
def uint64Max : ℕ := 2 ^ 64 - 1

/-- `PostgammaDeadlineHeap` with the `PostgammaDeadline` of every owner. -/
structure DeadlineHeap (ι : Type) where
  entries : ℕ → ι
  count : ℕ
  capacity : ℕ
  /-- `at`; zero is not armed. -/
  dueAt : ι → ℕ
  position : ι → ℕ

namespace DeadlineHeap

variable {ι : Type}

/-- `heap->entries[place]->at`. -/
def key (heap : DeadlineHeap ι) (place : ℕ) : ℕ := heap.dueAt (heap.entries place)

/-- The child that the second loop of `postgamma_deadline_repair` compares with. -/
def smallerChild (heap : DeadlineHeap ι) (position : ℕ) : ℕ :=
  let child := position * 2 + 1
  if child + 1 < heap.count ∧ heap.key (child + 1) < heap.key child then child + 1 else child

theorem smallerChild_parent (heap : DeadlineHeap ι) (position : ℕ) :
    0 < heap.smallerChild position ∧ parent (heap.smallerChild position) = position := by
  rw [smallerChild]
  split_ifs
  · exact ⟨by omega, (parent_eq (by omega)).2 (by omega)⟩
  · exact ⟨by omega, (parent_eq (by omega)).2 (by omega)⟩

theorem smallerChild_lt (heap : DeadlineHeap ι) {position : ℕ}
    (inner : position < heap.count / 2) : heap.smallerChild position < heap.count := by
  rw [smallerChild]
  split_ifs with second
  · exact second.1
  · omega

theorem smallerChild_le (heap : DeadlineHeap ι) {position place : ℕ} (positive : 0 < place)
    (inside : place < heap.count) (child : parent place = position) :
    heap.key (heap.smallerChild position) ≤ heap.key place := by
  rw [smallerChild]
  obtain rfl | rfl := (parent_eq positive).1 child
  · split_ifs with second
    · rw [Nat.mul_comm 2 position]
      exact second.2.le
    · rw [Nat.mul_comm 2 position]
  · rw [Nat.mul_comm 2 position] at inside ⊢
    split_ifs with second
    · exact le_rfl
    · exact Nat.le_of_not_lt fun less => second ⟨inside, less⟩

/-- The entry is in the heap. -/
def Holds (heap : DeadlineHeap ι) (entry : ι) : Prop :=
  ∃ place < heap.count, heap.entries place = entry

/-- Every entry knows its place. -/
def Placed (heap : DeadlineHeap ι) : Prop :=
  ∀ place < heap.count, heap.position (heap.entries place) = place

variable {heap : DeadlineHeap ι} {members : ι → Prop}

theorem Placed.injective (placed : heap.Placed) {first second : ℕ}
    (one : first < heap.count) (two : second < heap.count)
    (same : heap.entries first = heap.entries second) : first = second := by
  rw [← placed first one, same, placed second two]

/-- The same entries in other places. -/
structure Rearranged (before after : DeadlineHeap ι) : Prop where
  count : after.count = before.count
  capacity : after.capacity = before.capacity
  dueAt : after.dueAt = before.dueAt
  holds : ∀ entry, after.Holds entry ↔ before.Holds entry
  placed : before.Placed → after.Placed

theorem Rearranged.refl (heap : DeadlineHeap ι) : Rearranged heap heap :=
  ⟨rfl, rfl, rfl, fun _ => Iff.rfl, id⟩

theorem Rearranged.trans {first second third : DeadlineHeap ι} (one : Rearranged first second)
    (two : Rearranged second third) : Rearranged first third where
  count := two.count.trans one.count
  capacity := two.capacity.trans one.capacity
  dueAt := two.dueAt.trans one.dueAt
  holds := fun entry => (two.holds entry).trans (one.holds entry)
  placed := two.placed ∘ one.placed

/-- What `repair` leaves behind. -/
def Repaired (before after : DeadlineHeap ι) : Prop :=
  Rearranged before after ∧ Ordered after.key after.count

/-- An ordered heap of the given entries, each of which knows its place. -/
structure Filed (heap : DeadlineHeap ι) (members : ι → Prop) : Prop where
  placed : heap.Placed
  ordered : Ordered heap.key heap.count
  holds : ∀ entry, heap.Holds entry ↔ members entry

theorem Filed.place (filed : heap.Filed members) {entry : ι} (member : members entry) :
    heap.position entry < heap.count ∧ heap.entries (heap.position entry) = entry := by
  obtain ⟨place, inside, rfl⟩ := (filed.holds entry).2 member
  rw [filed.placed place inside]
  exact ⟨inside, rfl⟩

theorem Repaired.filed {before after : DeadlineHeap ι}
    (repaired : Repaired before after) (placed : before.Placed)
    (holds : ∀ entry, before.Holds entry ↔ members entry) : after.Filed members where
  placed := repaired.1.placed placed
  ordered := repaired.2
  holds := fun entry => (repaired.1.holds entry).trans (holds entry)

/-- A heap of some of the owners is not longer than there are owners left. -/
theorem Filed.count_lt [Fintype ι]
    (filed : heap.Filed members) {entry : ι} (absent : ¬members entry) :
    heap.count < Fintype.card ι := by
  have injective : Function.Injective fun place : Fin heap.count => heap.entries place :=
    fun first second same => Fin.ext (filed.placed.injective first.2 second.2 same)
  have missing : entry ∉ Set.range fun place : Fin heap.count => heap.entries place := by
    rintro ⟨place, same⟩
    exact absent ((filed.holds entry).1 ⟨place, place.2, same⟩)
  simpa using Fintype.card_lt_of_injective_of_notMem _ injective missing

/-- The heap holds exactly the armed entries. -/
def Sound (heap : DeadlineHeap ι) : Prop := heap.Filed fun entry => heap.dueAt entry ≠ 0

/-- The entry at the root is armed, and no armed entry is due before it. -/
theorem Sound.root (sound : heap.Sound) (occupied : heap.count ≠ 0) :
    heap.dueAt (heap.entries 0) ≠ 0 ∧
      ∀ entry, heap.dueAt entry ≠ 0 → heap.dueAt (heap.entries 0) ≤ heap.dueAt entry := by
  refine ⟨(sound.holds _).1 ⟨0, Nat.pos_of_ne_zero occupied, rfl⟩, fun entry armed => ?_⟩
  obtain ⟨place, inside, rfl⟩ := (sound.holds entry).2 armed
  exact sound.ordered.root_le inside

theorem Sound.empty (sound : heap.Sound) (empty : heap.count = 0)
    (entry : ι) : heap.dueAt entry = 0 := by
  by_contra armed
  obtain ⟨place, inside, -⟩ := (sound.holds entry).2 armed
  omega

variable [DecidableEq ι]

/-- `postgamma_deadline_swap`. -/
def swap (heap : DeadlineHeap ι) (a b : ℕ) : DeadlineHeap ι :=
  { heap with
    entries := exchanged heap.entries a b
    position :=
      Function.update (Function.update heap.position (heap.entries b) a) (heap.entries a) b }

/-- The first loop of `postgamma_deadline_repair`. -/
def siftUp : ℕ → DeadlineHeap ι → ℕ → DeadlineHeap ι
  | 0, heap, _ => heap
  | fuel + 1, heap, position =>
      if position = 0 then heap
      else if heap.key (parent position) ≤ heap.key position then heap
      else siftUp fuel (heap.swap (parent position) position) (parent position)

/-- The second loop of `postgamma_deadline_repair`. -/
def siftDown : ℕ → DeadlineHeap ι → ℕ → DeadlineHeap ι
  | 0, heap, _ => heap
  | fuel + 1, heap, position =>
      if position < heap.count / 2 then
        if heap.key position ≤ heap.key (heap.smallerChild position) then heap
        else
          siftDown fuel (heap.swap position (heap.smallerChild position))
            (heap.smallerChild position)
      else heap

/-- `postgamma_deadline_repair`. -/
def repair (heap : DeadlineHeap ι) (position : ℕ) : DeadlineHeap ι :=
  if 0 < position ∧ heap.key position < heap.key (parent position) then
    siftUp position heap position
  else siftDown heap.count heap position

/-- The first half of `postgamma_deadline_set`, for an entry that is armed: `none` is its abort. -/
def unlink (heap : DeadlineHeap ι) (entry : ι) : Option (DeadlineHeap ι) :=
  let position := heap.position entry
  if heap.count ≤ position ∨ heap.entries position ≠ entry then none
  else
    let last := heap.entries (heap.count - 1)
    if position < heap.count - 1 then
      some
        ({ heap with
            count := heap.count - 1
            entries := Function.update heap.entries position last
            position := Function.update heap.position last position }.repair position)
    else some { heap with count := heap.count - 1 }

/-- The second half of `postgamma_deadline_set`, for a deadline that is not zero. -/
def link (heap : DeadlineHeap ι) (entry : ι) : Option (DeadlineHeap ι) :=
  if heap.capacity ≤ heap.count then none
  else
    some
      ({ heap with
          count := heap.count + 1
          entries := Function.update heap.entries heap.count entry
          position := Function.update heap.position entry heap.count }.repair heap.count)

/-- The entry's own fields between the halves of `postgamma_deadline_set`. -/
def stamp (heap : DeadlineHeap ι) (entry : ι) (deadline : ℕ) : DeadlineHeap ι :=
  { heap with
    dueAt := Function.update heap.dueAt entry deadline
    position := Function.update heap.position entry uint64Max }

/-- `postgamma_deadline_set`; `none` is an abort. -/
def set (heap : DeadlineHeap ι) (entry : ι) (deadline : ℕ) : Option (DeadlineHeap ι) :=
  (if heap.dueAt entry ≠ 0 then heap.unlink entry else some heap).bind fun heap =>
    if deadline ≠ 0 then (heap.stamp entry deadline).link entry
    else some (heap.stamp entry deadline)

theorem swap_entries (heap : DeadlineHeap ι) (a b : ℕ) :
    (heap.swap a b).entries = exchanged heap.entries a b := rfl

theorem swap_key (heap : DeadlineHeap ι) (a b : ℕ) :
    (heap.swap a b).key = exchanged heap.key a b := by
  funext place
  by_cases second : place = b
  · subst second
    simp [key, swap, exchanged]
  · by_cases first : place = a
    · subst first
      simp [key, swap, exchanged, second]
    · simp [key, swap, exchanged, first, second]

theorem swap_holds (heap : DeadlineHeap ι) {a b : ℕ} (one : a < heap.count) (two : b < heap.count)
    (entry : ι) : (heap.swap a b).Holds entry ↔ heap.Holds entry := by
  constructor
  · rintro ⟨place, inside, same⟩
    by_cases second : place = b
    · subst second
      rw [swap_entries, exchanged_second] at same
      exact ⟨a, one, same⟩
    · by_cases first : place = a
      · subst first
        rw [swap_entries, exchanged_first _ second] at same
        exact ⟨b, two, same⟩
      · rw [swap_entries, exchanged_other _ first second] at same
        exact ⟨place, inside, same⟩
  · rintro ⟨place, inside, same⟩
    by_cases second : place = b
    · by_cases first : a = b
      · exact ⟨b, two, by rw [swap_entries, exchanged_second, first, ← second]; exact same⟩
      · exact ⟨a, one, by rw [swap_entries, exchanged_first _ first, ← second]; exact same⟩
    · by_cases first : place = a
      · exact ⟨b, two, by rw [swap_entries, exchanged_second, ← first]; exact same⟩
      · exact ⟨place, inside, by rw [swap_entries, exchanged_other _ first second]; exact same⟩

theorem swap_placed (placed : heap.Placed) {a b : ℕ}
    (one : a < heap.count) (two : b < heap.count) (apart : a ≠ b) : (heap.swap a b).Placed := by
  have different : heap.entries b ≠ heap.entries a :=
    fun same => apart (placed.injective one two same.symm)
  intro place inside
  by_cases second : place = b
  · subst second
    simp [swap, exchanged]
  · by_cases first : place = a
    · subst first
      simp [swap, exchanged, second, different]
    · have notA : heap.entries place ≠ heap.entries a :=
        fun same => first (placed.injective inside one same)
      have notB : heap.entries place ≠ heap.entries b :=
        fun same => second (placed.injective inside two same)
      simpa [swap, exchanged, first, second, notA, notB] using placed place inside

theorem swap_rearranged (heap : DeadlineHeap ι) {a b : ℕ} (one : a < heap.count)
    (two : b < heap.count) (apart : a ≠ b) : Rearranged heap (heap.swap a b) where
  count := rfl
  capacity := rfl
  dueAt := rfl
  holds := heap.swap_holds one two
  placed := fun placed => swap_placed placed one two apart

theorem siftUp_repaired {fuel : ℕ} {hole : ℕ} (enough : hole ≤ fuel)
    (inside : hole < heap.count) (but : OrderedBut heap.key heap.count hole)
    (below : FitsBelow heap.key heap.count hole) : Repaired heap (siftUp fuel heap hole) := by
  induction fuel generalizing heap hole with
  | zero =>
      obtain rfl : hole = 0 := by omega
      exact ⟨.refl heap, but.ordered below fun inner => absurd rfl inner⟩
  | succ fuel induction =>
      rw [siftUp]
      split_ifs with root fits
      · exact ⟨.refl heap, but.ordered below fun inner => absurd root inner⟩
      · exact ⟨.refl heap, but.ordered below fun _ => fits⟩
      · have lower := parent_lt (Nat.pos_of_ne_zero root)
        have moved := but.up below root inside (Nat.lt_of_not_le fits)
        have arranged := heap.swap_rearranged (lower.trans inside) inside lower.ne
        rw [← swap_key] at moved
        have rest : Repaired (heap.swap (parent hole) hole)
            (siftUp fuel (heap.swap (parent hole) hole) (parent hole)) :=
          induction (by omega) (lower.trans inside) moved.1 moved.2
        exact ⟨arranged.trans rest.1, rest.2⟩

theorem siftDown_repaired {fuel : ℕ} {hole : ℕ}
    (enough : heap.count ≤ hole + fuel) (inside : hole < heap.count)
    (but : OrderedBut heap.key heap.count hole) (above : FitsAbove heap.key hole) :
    Repaired heap (siftDown fuel heap hole) := by
  induction fuel generalizing heap hole with
  | zero => exact absurd inside (by omega)
  | succ fuel induction =>
      obtain ⟨positive, under⟩ := heap.smallerChild_parent hole
      rw [siftDown]
      split_ifs with inner fits
      · exact ⟨.refl heap, but.ordered
          (fun place positive within child =>
            fits.trans (heap.smallerChild_le positive within child)) above⟩
      · have within := heap.smallerChild_lt inner
        have lower : hole < heap.smallerChild hole := by
          conv_lhs => rw [← under]
          exact parent_lt positive
        have moved := but.down above positive within under
          (fun place => heap.smallerChild_le) (Nat.lt_of_not_le fits)
        have arranged := heap.swap_rearranged inside within lower.ne
        rw [← swap_key] at moved
        have shorter : heap.count ≤ heap.smallerChild hole + fuel := by omega
        have rest : Repaired (heap.swap hole (heap.smallerChild hole))
            (siftDown fuel (heap.swap hole (heap.smallerChild hole)) (heap.smallerChild hole)) :=
          induction shorter within moved.1 moved.2
        exact ⟨arranged.trans rest.1, rest.2⟩
      · refine ⟨.refl heap, but.ordered (fun place positive within child => ?_) above⟩
        obtain rfl | rfl := (parent_eq positive).1 child
        · exact absurd within (by omega)
        · exact absurd within (by omega)

theorem repair_repaired {hole : ℕ} (inside : hole < heap.count)
    (but : OrderedBut heap.key heap.count hole) : Repaired heap (heap.repair hole) := by
  rw [repair]
  split_ifs with small
  · refine siftUp_repaired le_rfl inside but fun place positive within child => ?_
    exact small.2.le.trans (but.around small.1.ne' place positive within child)
  · refine siftDown_repaired (by omega) inside but fun inner => ?_
    exact Nat.le_of_not_lt fun less => small ⟨Nat.pos_of_ne_zero inner, less⟩

/-- Every entry but the one is filed, with the same deadlines. -/
theorem Filed.unlink (filed : heap.Filed members) {entry : ι} (member : members entry) :
    ∃ after, heap.unlink entry = some after ∧
      after.Filed (fun other => members other ∧ other ≠ entry) ∧
      after.capacity = heap.capacity ∧ after.dueAt = heap.dueAt := by
  obtain ⟨inside, here⟩ := filed.place member
  rw [DeadlineHeap.unlink, if_neg (by rintro (outside | other) <;> [omega; exact other here])]
  generalize heap.position entry = hole at inside here ⊢
  split_ifs with inner
  · -- the last entry is moved into the hole
    set moved : DeadlineHeap ι :=
      { heap with
        count := heap.count - 1
        entries := Function.update heap.entries hole (heap.entries (heap.count - 1))
        position := Function.update heap.position (heap.entries (heap.count - 1)) hole } with made
    have keys : moved.key = Function.update heap.key hole (heap.key (heap.count - 1)) := by
      funext place
      by_cases same : place = hole
      · subst same
        simp [key, made]
      · simp [key, made, same]
    have but : OrderedBut moved.key moved.count hole := by
      rw [keys]
      exact filed.ordered.replaced (Nat.sub_le _ _) hole _
    have repaired : Repaired moved (moved.repair hole) := repair_repaired inner but
    refine ⟨_, rfl, repaired.filed ?_ fun other => ?_, repaired.1.capacity, repaired.1.dueAt⟩
    · intro place within
      change place < heap.count - 1 at within
      by_cases same : place = hole
      · subst same
        simp [made]
      · have apart : heap.entries place ≠ heap.entries (heap.count - 1) := fun equal =>
          absurd (filed.placed.injective (by omega) (by omega) equal) (by omega)
        simpa [made, same, apart] using filed.placed place (by omega)
    · constructor
      · rintro ⟨place, within, rfl⟩
        change place < heap.count - 1 at within
        by_cases same : place = hole
        · subst same
          have last : moved.entries place = heap.entries (heap.count - 1) := by simp [made]
          rw [last]
          refine ⟨(filed.holds _).1 ⟨_, by omega, rfl⟩, fun equal => ?_⟩
          exact absurd (filed.placed.injective (by omega) inside (equal.trans here.symm)) (by omega)
        · have kept : moved.entries place = heap.entries place := by simp [made, same]
          rw [kept]
          refine ⟨(filed.holds _).1 ⟨_, by omega, rfl⟩, fun equal => ?_⟩
          exact same (filed.placed.injective (by omega) inside (equal.trans here.symm))
      · rintro ⟨isMember, different⟩
        obtain ⟨place, within, rfl⟩ := (filed.holds other).2 isMember
        have away : place ≠ hole := fun same => different (same ▸ here)
        by_cases last : place = heap.count - 1
        · exact ⟨hole, inner, by simp [made, last]⟩
        · exact ⟨place, by change place < heap.count - 1; omega, by simp [made, away]⟩
  · obtain rfl : hole = heap.count - 1 := by omega
    have shorter : ∀ place < heap.count - 1, place < heap.count := by omega
    refine ⟨_, rfl, ⟨fun place within => filed.placed place (shorter place within),
      fun place positive within => filed.ordered place positive (shorter place within),
      fun other => ⟨?_, ?_⟩⟩, rfl, rfl⟩
    · rintro ⟨place, within, rfl⟩
      change place < heap.count - 1 at within
      refine ⟨(filed.holds _).1 ⟨place, by omega, rfl⟩, fun equal => ?_⟩
      exact absurd (filed.placed.injective (by omega) inside (equal.trans here.symm)) (by omega)
    · rintro ⟨isMember, different⟩
      obtain ⟨place, within, rfl⟩ := (filed.holds other).2 isMember
      refine ⟨place, Nat.lt_of_le_of_ne (Nat.le_sub_one_of_lt within) fun same => ?_, rfl⟩
      exact different (same ▸ here)

theorem Filed.stamp (filed : heap.Filed members)
    {entry : ι} (absent : ¬members entry) (deadline : ℕ) :
    (heap.stamp entry deadline).Filed members := by
  have apart : ∀ place < heap.count, heap.entries place ≠ entry :=
    fun place inside same => absent ((filed.holds entry).1 ⟨place, inside, same⟩)
  have keys : ∀ place < heap.count, (heap.stamp entry deadline).key place = heap.key place :=
    fun place inside => Function.update_of_ne (apart place inside) _ _
  refine ⟨fun place inside => ?_, fun place positive inside => ?_, filed.holds⟩
  · exact (Function.update_of_ne (apart place inside) _ _).trans (filed.placed place inside)
  · rw [keys place inside, keys _ ((parent_lt positive).trans inside)]
    exact filed.ordered place positive inside

/-- One more entry is filed, with the same deadlines. -/
theorem Filed.link (filed : heap.Filed members)
    {entry : ι} (absent : ¬members entry) (room : heap.count < heap.capacity) :
    ∃ after, heap.link entry = some after ∧
      after.Filed (fun other => members other ∨ other = entry) ∧
      after.capacity = heap.capacity ∧ after.dueAt = heap.dueAt := by
  have apart : ∀ place < heap.count, heap.entries place ≠ entry :=
    fun place inside same => absent ((filed.holds entry).1 ⟨place, inside, same⟩)
  rw [DeadlineHeap.link, if_neg (Nat.not_le.2 room)]
  set longer : DeadlineHeap ι :=
    { heap with
      count := heap.count + 1
      entries := Function.update heap.entries heap.count entry
      position := Function.update heap.position entry heap.count } with made
  have keys : longer.key = Function.update heap.key heap.count (heap.dueAt entry) := by
    funext place
    by_cases same : place = heap.count
    · subst same
      simp [key, made]
    · simp [key, made, same]
  have but : OrderedBut longer.key longer.count heap.count := by
    rw [keys]
    exact filed.ordered.extended _
  have repaired : Repaired longer (longer.repair heap.count) :=
    repair_repaired (Nat.lt_succ_self _) but
  refine ⟨_, rfl, repaired.filed ?_ fun other => ⟨?_, ?_⟩, repaired.1.capacity, repaired.1.dueAt⟩
  · intro place within
    change place < heap.count + 1 at within
    by_cases same : place = heap.count
    · subst same
      simp [made]
    · simpa [made, same, apart place (by omega)] using filed.placed place (by omega)
  · rintro ⟨place, within, rfl⟩
    change place < heap.count + 1 at within
    by_cases same : place = heap.count
    · exact .inr (by simp [made, same])
    · have kept : longer.entries place = heap.entries place := by simp [made, same]
      rw [kept]
      exact .inl ((filed.holds _).1 ⟨place, by omega, rfl⟩)
  · rintro (isMember | rfl)
    · obtain ⟨place, within, rfl⟩ := (filed.holds other).2 isMember
      exact ⟨place, Nat.lt_succ_of_lt within, by simp [made, within.ne]⟩
    · exact ⟨heap.count, Nat.lt_succ_self _, by simp [made]⟩

/-- `postgamma_deadline_set` does not abort, and changes the deadline of its entry only. -/
theorem Sound.set [Fintype ι] (sound : heap.Sound)
    (room : Fintype.card ι ≤ heap.capacity) (entry : ι) (deadline : ℕ) :
    ∃ after, heap.set entry deadline = some after ∧ after.Sound ∧
      after.capacity = heap.capacity ∧
      after.dueAt = Function.update heap.dueAt entry deadline := by
  obtain ⟨apart, unlinked, filed, capacity, due⟩ : ∃ apart,
      (if heap.dueAt entry ≠ 0 then heap.unlink entry else some heap) = some apart ∧
      apart.Filed (fun other => heap.dueAt other ≠ 0 ∧ other ≠ entry) ∧
      apart.capacity = heap.capacity ∧ apart.dueAt = heap.dueAt := by
    split_ifs with armed
    · exact Filed.unlink sound armed
    · refine ⟨heap, rfl, ⟨sound.placed, sound.ordered, fun other => ?_⟩, rfl, rfl⟩
      rw [sound.holds other]
      exact ⟨fun isArmed => ⟨isArmed, fun same => armed (same ▸ isArmed)⟩, And.left⟩
  have stamped := filed.stamp (fun member => member.2 rfl) deadline
  have dues : (apart.stamp entry deadline).dueAt = Function.update heap.dueAt entry deadline :=
    by rw [← due]; rfl
  rw [DeadlineHeap.set, unlinked, Option.bind_some]
  split_ifs with arming
  · have fits : (apart.stamp entry deadline).count < (apart.stamp entry deadline).capacity :=
      (stamped.count_lt fun member => member.2 rfl).trans_le (room.trans capacity.ge)
    obtain ⟨after, linked, full, sameCapacity, sameDue⟩ :=
      stamped.link (fun member => member.2 rfl) fits
    refine ⟨after, linked, ⟨full.placed, full.ordered, fun other => ?_⟩,
      sameCapacity.trans capacity, sameDue.trans dues⟩
    rw [full.holds other, sameDue, dues]
    by_cases same : other = entry
    · subst same
      simp [arming]
    · simp [same]
  · obtain rfl : deadline = 0 := not_not.1 arming
    refine ⟨_, rfl, ⟨stamped.placed, stamped.ordered, fun other => ?_⟩, capacity, dues⟩
    rw [stamped.holds other, dues]
    by_cases same : other = entry
    · subst same
      simp
    · simp [same]

/-! ## Sequences of calls -/

/-- Nothing is filed and nothing is armed. -/
structure Fresh (heap : DeadlineHeap ι) : Prop where
  count : heap.count = 0
  dueAt : ∀ entry, heap.dueAt entry = 0

/-- One `postgamma_deadline_set` after the other; `none` is an abort. -/
def setAll (heap : DeadlineHeap ι) : List (ι × ℕ) → Option (DeadlineHeap ι)
  | [] => some heap
  | (entry, deadline) :: calls => (heap.set entry deadline).bind fun after => after.setAll calls

/-- The deadlines after a sequence of calls: of every entry, the last one it was given. -/
def deadlines (before : ι → ℕ) (calls : List (ι × ℕ)) : ι → ℕ :=
  calls.foldl (fun due call => Function.update due call.1 call.2) before

/-- A heap as its owner relies on it. -/
structure Kept (heap : DeadlineHeap ι) : Prop where
  ordered : Ordered heap.key heap.count
  armed : ∀ place < heap.count, heap.dueAt (heap.entries place) ≠ 0
  once : ∀ entry, heap.dueAt entry ≠ 0 →
    ∃! place, place < heap.count ∧ heap.entries place = entry
  placed : ∀ place < heap.count, heap.position (heap.entries place) = place
  least : ∀ place < heap.count, heap.dueAt (heap.entries 0) ≤ heap.dueAt (heap.entries place)

omit [DecidableEq ι] in
theorem Fresh.sound (fresh : heap.Fresh) : heap.Sound where
  placed := fun place inside => by
    rw [fresh.count] at inside
    exact absurd inside (Nat.not_lt_zero place)
  ordered := fun place positive inside => by
    rw [fresh.count] at inside
    exact absurd inside (Nat.not_lt_zero place)
  holds := fun entry => by
    constructor
    · rintro ⟨place, inside, -⟩
      rw [fresh.count] at inside
      exact absurd inside (Nat.not_lt_zero place)
    · exact fun armed => absurd (fresh.dueAt entry) armed

omit [DecidableEq ι] in
theorem Sound.kept (sound : heap.Sound) : heap.Kept where
  ordered := sound.ordered
  armed := fun place inside => (sound.holds _).1 ⟨place, inside, rfl⟩
  once := fun entry armed => by
    obtain ⟨place, inside, found⟩ := (sound.holds entry).2 armed
    refine ⟨place, ⟨inside, found⟩, fun other ⟨within, same⟩ => ?_⟩
    exact sound.placed.injective within inside (same.trans found.symm)
  placed := sound.placed
  least := fun place inside =>
    (sound.root (by omega)).2 _ ((sound.holds _).1 ⟨place, inside, rfl⟩)

theorem Sound.setAll [Fintype ι] (sound : heap.Sound)
    (room : Fintype.card ι ≤ heap.capacity) (calls : List (ι × ℕ)) :
    ∃ after, heap.setAll calls = some after ∧ after.Sound ∧
      after.dueAt = deadlines heap.dueAt calls := by
  induction calls generalizing heap with
  | nil => exact ⟨heap, rfl, sound, rfl⟩
  | cons call calls induction =>
      obtain ⟨middle, called, kept, capacity, due⟩ := sound.set room call.1 call.2
      obtain ⟨after, rest, final, dues⟩ := induction kept (room.trans capacity.ge)
      refine ⟨after, ?_, final, ?_⟩
      · rw [DeadlineHeap.setAll, called, Option.bind_some, rest]
      · rw [dues, due, deadlines, deadlines, List.foldl_cons]

/-- However the entries are armed, moved and cancelled, the heap stays in order and holds the
armed entries, each once and at the place it knows, and no call aborts. -/
theorem deadline_calls [Fintype ι] {heap : DeadlineHeap ι} (fresh : heap.Fresh)
    (room : Fintype.card ι ≤ heap.capacity) (calls : List (ι × ℕ)) :
    ∃ after, heap.setAll calls = some after ∧ after.Kept ∧
      after.dueAt = deadlines heap.dueAt calls := by
  obtain ⟨after, called, sound, due⟩ := fresh.sound.setAll room calls
  exact ⟨after, called, sound.kept, due⟩

theorem deadline_calls_pair : ∃ after : DeadlineHeap Bool,
    DeadlineHeap.setAll ⟨fun _ => true, 0, 2, fun _ => 0, fun _ => uint64Max⟩
        [(true, 5), (false, 5), (true, 3), (false, 0), (true, 7)] = some after ∧ after.Kept ∧
      after.dueAt = deadlines (fun _ => 0)
        [(true, 5), (false, 5), (true, 3), (false, 0), (true, 7)] :=
  deadline_calls
    ⟨rfl, fun _ => rfl⟩ (by decide) _

end DeadlineHeap

end Postgamma.Runtime
