import Mathlib
import Postgamma.Library.BlockStore
import Postgamma.Runtime.MemoryArenaRuns

/-!
# The blocks of a memory arena as a store

Whatever the arena does with its segments and bins, its users see a store of blocks: an allocation
answers a block that nobody holds, a reallocation moves the bytes of the block, and no call changes
the bytes of a block that it does not name.
-/

namespace Postgamma.Runtime

namespace MemoryArena

def bytes (arena : MemoryArena) (block : BlockAddress) : List UInt8 :=
  (List.range (arena.headers block).size).map fun place =>
    arena.memory block.mapping (block.payload + place)

/-- The headers of the live blocks and the memory of the held mappings are as they were. -/
structure Keeps (arena after : MemoryArena) (live : List BlockAddress) : Prop where
  headers : ∀ block ∈ live, after.headers block = arena.headers block
  memory : ∀ mapping ∈ arena.mappings, after.memory mapping = arena.memory mapping

variable {arena after : MemoryArena} {live : List BlockAddress} {hand : Option ℕ}
  {block other : BlockAddress} {size segment : ℕ}

@[simp] theorem bytes_length (arena : MemoryArena) (block : BlockAddress) :
    (arena.bytes block).length = (arena.headers block).size := by
  simp [bytes]

theorem bytes_congr (header : after.headers block = arena.headers block)
    (memory : ∀ place < (arena.headers block).size,
      after.memory block.mapping (block.payload + place) =
        arena.memory block.mapping (block.payload + place)) :
    after.bytes block = arena.bytes block := by
  rw [bytes, bytes, header]
  refine List.map_congr_left fun place member => ?_
  exact memory place (List.mem_range.1 member)

theorem Keeps.bytes (keeps : arena.Keeps after live) (sound : arena.Sound live hand)
    (member : block ∈ live) : after.bytes block = arena.bytes block := by
  refine bytes_congr (keeps.headers block member) fun place _ => ?_
  rw [keeps.memory _ (sound.owned_mapping (.inl member))]

/-- The payloads of two live blocks do not overlap. -/
theorem Sound.payloads_apart (sound : arena.Sound live hand) (member : block ∈ live)
    (other_member : other ∈ live) (apart : block ≠ other)
    (same : block.mapping = other.mapping) :
    block.payload + (arena.headers block).size ≤ other.payload ∨
      other.payload + (arena.headers other).size ≤ block.payload := by
  have held := sound.held block member
  have other_held := sound.held other other_member
  cases own : (arena.headers block).arena with
  | true =>
      obtain ⟨placed, fits⟩ := held.placed own
      have other_placed := other_held.placed_of_listed (same ▸ placed.listed)
      have other_fits := (other_held.placed other_placed.own).2
      have distance := sound.apart block other (.inl member) (.inl other_member) placed
        other_placed apart same
      rw [stride, stride] at distance
      rw [BlockAddress.payload, BlockAddress.payload]
      omega
  | false =>
      obtain ⟨offset, -, unlisted⟩ := held.alone own
      have other_own : (arena.headers other).arena = false := by
        cases owned : (arena.headers other).arena with
        | false => rfl
        | true => exact absurd (same ▸ (other_held.placed owned).1.listed) unlisted
      obtain ⟨other_offset, -⟩ := other_held.alone other_own
      refine absurd ?_ apart
      cases block
      cases other
      simp only at same offset other_offset
      rw [same, offset, other_offset]

theorem Sound.grant_keeps {zero : Bool} (sound : arena.Sound live hand)
    (granted : arena.Granted after block size zero) (fresh : block.mapping ∉ arena.mappings) :
    arena.Keeps after live where
  headers := fun other member =>
    granted.headers other ((sound.grant_fresh fresh).1 other (.inl member))
  memory := fun mapping member => granted.memory mapping fun same => fresh (same ▸ member)

theorem Sound.findSegment_keeps {backing : Backing} {grant : Option Grant} {length : ℕ}
    (sound : arena.Sound live none) (fresh : arena.Fresh grant)
    (found : arena.findSegment backing length grant = some (segment, after)) :
    arena.Keeps after live := by
  rw [MemoryArena.findSegment] at found
  cases current : arena.current.filter
      fun segment => decide (length ≤ arenaBytes - arena.used segment) with
  | some there =>
      rw [current] at found
      obtain ⟨rfl, rfl⟩ := Prod.mk.inj (Option.some.inj found)
      exact ⟨fun _ _ => rfl, fun _ _ => rfl⟩
  | none =>
      rw [current] at found
      cases empty : arena.empty with
      | some idle =>
          simp only [empty] at found
          obtain ⟨rfl, rfl⟩ := Prod.mk.inj (Option.some.inj found)
          exact ⟨fun _ _ => rfl, fun _ _ => rfl⟩
      | none =>
          simp only [empty] at found
          cases allocated : arena.blockAllocateIn backing arena.pool (segmentBytes + arenaBytes)
              false grant with
          | none =>
              rw [allocated] at found
              cases found
          | some pair =>
              obtain ⟨address, mapped⟩ := pair
              rw [allocated] at found
              obtain ⟨rfl, rfl⟩ := Prod.mk.inj (Option.some.inj found)
              obtain ⟨granted, given, rfl, same⟩ := blockAllocateIn_granted allocated
              have unheld : address.mapping ∉ arena.mappings := by
                rw [same]
                exact fresh given rfl
              have keeps := sound.grant_keeps granted unheld
              exact ⟨keeps.headers, keeps.memory⟩

/-- An allocation answers a block of the size, and keeps the others. -/
theorem Sound.allocate_keeps {backing : Backing} {grant : Option Grant}
    (sound : arena.Sound live none) (fresh : arena.Fresh grant)
    (allocated : arena.allocate backing size grant = some (block, after)) :
    arena.Keeps after live ∧ (after.headers block).size = size := by
  have nodup := (sound.allocate fresh allocated).nodup
  have different {other : BlockAddress} (member : other ∈ live) : other ≠ block := by
    rintro rfl
    exact (List.nodup_cons.1 nodup).1 member
  rw [MemoryArena.allocate] at allocated
  split_ifs at allocated with large
  · obtain ⟨granted, given, rfl, same⟩ := blockAllocateIn_granted allocated
    have unheld : block.mapping ∉ arena.mappings := by
      rw [same]
      exact fresh given rfl
    exact ⟨sound.grant_keeps granted unheld, granted.header.2.1⟩
  · simp only at allocated
    cases first : arena.available (findBin size arenaBins 0) with
    | cons head rest =>
        rw [first] at allocated
        obtain ⟨rfl, rfl⟩ := Prod.mk.inj (Option.some.inj allocated)
        exact ⟨⟨fun other member => makeLive_headers _ _ _ _ _ (different member),
          fun _ _ => rfl⟩, by rw [makeLive_header]⟩
    | nil =>
        rw [first] at allocated
        simp only at allocated
        cases found : arena.findSegment backing (stride (findBin size arenaBins 0)) grant with
        | none =>
            rw [found] at allocated
            cases allocated
        | some pair =>
            obtain ⟨segment, there⟩ := pair
            rw [found] at allocated
            obtain ⟨rfl, rfl⟩ := Prod.mk.inj (Option.some.inj allocated)
            have keeps := sound.findSegment_keeps fresh found
            refine ⟨⟨fun other member => ?_, keeps.memory⟩, by rw [makeLive_header]⟩
            rw [makeLive_headers _ _ _ _ _ (different member)]
            exact keeps.headers other member

theorem freeMapping_keeps {address : BlockAddress}
    (freed : arena.freeMapping address = .ok after) :
    (∀ other, other ≠ address → after.headers other = arena.headers other) ∧
      after.memory = arena.memory := by
  rw [freeMapping] at freed
  split_ifs at freed
  obtain rfl := Except.ok.inj freed
  exact ⟨fun other apart => Function.update_of_ne apart .., rfl⟩

theorem detach_keeps {detached : MemoryArena} (detaches : arena.detach segment = .ok detached) :
    detached.headers = arena.headers ∧ detached.memory = arena.memory := by
  rw [detach] at detaches
  split at detaches
  · cases detaches
  · obtain rfl := Except.ok.inj detaches
    exact ⟨rfl, rfl⟩

/-- A free changes the header of its own block, of the live ones, and no payload. -/
theorem Sound.blockFree_keeps (sound : arena.Sound live none) (member : block ∈ live)
    (freed : arena.blockFree block = .ok after) :
    (∀ other ∈ live, other ≠ block → after.headers other = arena.headers other) ∧
      after.memory = arena.memory := by
  have held := sound.held block member
  rw [MemoryArena.blockFree] at freed
  simp only [held.magic, Bool.not_true, Bool.false_eq_true, if_false] at freed
  cases own : (arena.headers block).arena with
  | false =>
      simp only [own, Bool.false_eq_true, if_false] at freed
      obtain ⟨headers, memory⟩ := freeMapping_keeps freed
      exact ⟨fun other _ apart => headers other apart, memory⟩
  | true =>
      have placed := (held.placed own).1
      have put {other : BlockAddress} (apart : other ≠ block) :=
        putAvailable_headers arena block apart
      simp only [own, if_true] at freed
      split_ifs at freed
      · obtain rfl := Except.ok.inj freed
        exact ⟨fun other _ apart => put apart, rfl⟩
      · obtain rfl := Except.ok.inj freed
        exact ⟨fun other _ apart => put apart, rfl⟩
      · rw [placed.segment] at freed
        split at freed
        · cases freed
        · rename_i detached detaches
          obtain ⟨headers, memory⟩ := detach_keeps detaches
          have alone : (detached.headers ⟨block.mapping, 0⟩).arena = false := by
            rw [headers, put (placed.ne_segment _).symm]
            exact (sound.backed _ placed.listed).2.2
          rw [blockFree_alone alone] at freed
          obtain ⟨freed_headers, freed_memory⟩ := freeMapping_keeps freed
          refine ⟨fun other live apart => ?_, freed_memory.trans memory⟩
          have unequal : other ≠ ⟨block.mapping, 0⟩ := by
            rintro rfl
            exact ((sound.held _ live).placed_of_listed placed.listed).ne_segment _ rfl
          rw [freed_headers other unequal, headers, put apart]

/-- The invariant does not speak of the payloads. -/
theorem Sound.withMemory (sound : arena.Sound live hand) (memory : ℕ → ℕ → UInt8) :
    ({ arena with memory } : MemoryArena).Sound live hand :=
  { sound with
    held := fun block member =>
      { magic := (sound.held block member).magic
        placed := fun own => ⟨((sound.held block member).placed own).1.congr rfl id le_rfl,
          ((sound.held block member).placed own).2⟩
        alone := (sound.held block member).alone }
    available := fun bin block member =>
      ⟨(sound.available bin block member).1.congr rfl id le_rfl,
        (sound.available bin block member).2⟩
    apart := fun first second first_owned second_owned first_placed second_placed =>
      sound.apart first second first_owned second_owned (first_placed.congr rfl id le_rfl)
        (second_placed.congr rfl id le_rfl) }

/-- A memory that differs within the payload of one live block. -/
theorem Sound.bytes_outside (sound : arena.Sound live hand) (member : block ∈ live)
    {row : ℕ → UInt8}
    (outside : ∀ place, place < block.payload ∨ block.payload + (arena.headers block).size ≤ place →
      row place = arena.memory block.mapping place)
    (other_member : other ∈ live) (apart : other ≠ block) :
    ({ arena with memory := Function.update arena.memory block.mapping row } :
      MemoryArena).bytes other = arena.bytes other := by
  refine bytes_congr rfl fun place inside => ?_
  change Function.update arena.memory block.mapping row other.mapping _ = _
  obtain same | different := eq_or_ne other.mapping block.mapping
  · rw [same, Function.update_self]
    have distance := sound.payloads_apart member other_member apart.symm same.symm
    refine outside _ ?_
    omega
  · rw [Function.update_of_ne different]

theorem copyPayload_bytes {source : BlockAddress} {length : ℕ}
    (small : length ≤ (arena.headers block).size)
    (source_small : length ≤ (arena.headers source).size) :
    ((arena.copyPayload block source length).bytes block).take length =
      (arena.bytes source).take length := by
  have header : (arena.copyPayload block source length).headers block = arena.headers block := rfl
  rw [bytes, bytes, header, ← List.map_take, ← List.map_take, List.take_range, List.take_range,
    min_eq_left small, min_eq_left source_small]
  refine List.map_congr_left fun place member => ?_
  change Function.update arena.memory block.mapping _ block.mapping _ = _
  rw [Function.update_self]
  exact copyBytes_inside (List.mem_range.1 member)

/-- What the loop over the segments leaves. -/
theorem destroySegments_spec {list : List ℕ} (nodup : list.Nodup)
    (backed : ∀ segment ∈ list, (arena.headers ⟨segment, 0⟩).magic = true ∧
      (arena.headers ⟨segment, 0⟩).arena = false) :
    ∃ after, arena.destroySegments list = .ok after ∧
      after = { arena with
        pool := false, segments := [], current := none, empty := none, segmentCount := 0
        liveBlocks := 0, available := fun _ => [], headers := after.headers
        mappings := arena.mappings.diff list } ∧
      ∀ block, (∀ segment ∈ list, block ≠ ⟨segment, 0⟩) →
        after.headers block = arena.headers block := by
  induction list generalizing arena with
  | nil => exact ⟨_, rfl, rfl, fun _ _ => rfl⟩
  | cons segment rest induction =>
      obtain ⟨absent, nodup⟩ := List.nodup_cons.1 nodup
      set freed : MemoryArena := { arena.setHeader ⟨segment, 0⟩
          { arena.headers ⟨segment, 0⟩ with magic := false } with
        mappings := arena.mappings.erase segment }
      have headers {block : BlockAddress} (apart : block ≠ ⟨segment, 0⟩) :
          freed.headers block = arena.headers block := Function.update_of_ne apart ..
      obtain ⟨after, destroyed, shape, rest_headers⟩ := @induction freed nodup
        fun other member => by
          rw [headers fun same => absent ((BlockAddress.mk.inj same).1 ▸ member)]
          exact backed other (List.mem_cons_of_mem _ member)
      obtain ⟨magic, alone⟩ := backed segment List.mem_cons_self
      refine ⟨after, ?_, ?_, fun block apart => ?_⟩
      · rw [destroySegments, blockFree_alone alone, freeMapping, magic]
        exact destroyed
      · rw [List.diff_cons]
        exact shape
      · rw [rest_headers block fun other member => apart other (List.mem_cons_of_mem _ member),
          headers (apart segment List.mem_cons_self)]

/-- The end of an arena gives its segments back and leaves the blocks with their own mappings. -/
theorem Sound.destroy (sound : arena.Sound live none) :
    ∃ after, arena.destroy = .ok after ∧
      after.Sound (live.filter fun block => !(arena.headers block).arena) none ∧
      (∀ block ∈ live, (arena.headers block).arena = false →
        after.headers block = arena.headers block) ∧ after.memory = arena.memory := by
  obtain ⟨after, destroyed, shape, headers⟩ := destroySegments_spec sound.segments
    fun segment listed => (sound.backed segment listed).2
  have alone {block : BlockAddress}
      (member : block ∈ live.filter fun block => !(arena.headers block).arena) :
      block ∈ live ∧ (arena.headers block).arena = false := by
    obtain ⟨member, own⟩ := List.mem_filter.1 member
    exact ⟨member, by simpa using own⟩
  have kept {block : BlockAddress} (member : block ∈ live)
      (own : (arena.headers block).arena = false) :
      after.headers block = arena.headers block := by
    refine headers block fun segment listed => ?_
    rintro rfl
    exact ((sound.held _ member).alone own).2.2 listed
  have segments : after.segments = [] := by rw [shape]
  have available (bin : ℕ) : after.available bin = [] := by rw [shape]
  have mappings : after.mappings = arena.mappings.diff arena.segments := by rw [shape]
  refine ⟨after, destroyed, ?_, fun block member own => kept member own, by rw [shape]⟩
  have none_placed {block : BlockAddress} : ¬after.Placed block := fun placed => by
    have listed := placed.listed
    rw [segments] at listed
    exact List.not_mem_nil listed
  exact
    { segments := by rw [segments]; exact List.nodup_nil
      count := by rw [shape]; rfl
      current := fun segment found => by
        rw [shape] at found
        cases found
      empty := fun segment found => by
        rw [shape] at found
        cases found
      idle := fun segment listed => by
        rw [segments] at listed
        cases listed
      used := fun segment listed => by
        rw [segments] at listed
        cases listed
      backed := fun segment listed => by
        rw [segments] at listed
        cases listed
      once := by
        rw [mappings]
        exact sound.once.diff
      owners := fun mapping member => by
        rw [mappings, sound.once.mem_sdiff_iff] at member
        obtain listed | ⟨block, live, same, own⟩ := sound.owners mapping member.1
        · exact absurd listed member.2
        · refine .inr ⟨block, List.mem_filter.2 ⟨live, by simp [own]⟩, same, ?_⟩
          rwa [kept live own]
      nodup := sound.nodup.filter _
      held := fun block member => by
        obtain ⟨member, own⟩ := alone member
        have held := sound.held block member
        obtain ⟨offset, mapping, unlisted⟩ := held.alone own
        have same := kept member own
        refine ⟨by rw [same]; exact held.magic, fun arena_own => ?_, fun _ => ⟨offset, ?_, ?_⟩⟩
        · rw [same, own] at arena_own
          cases arena_own
        · rw [mappings, sound.once.mem_sdiff_iff]
          exact ⟨mapping, unlisted⟩
        · rw [segments]
          exact List.not_mem_nil
      distinct := fun bin => by
        rw [available]
        exact List.nodup_nil
      available := fun bin block member => by
        rw [available] at member
        cases member
      apart := fun first _ _ _ placed => absurd placed none_placed
      liveBlocks := by
        rw [show after.liveBlocks = 0 by rw [shape]]
        refine (List.countP_eq_zero.2 fun block member => ?_).symm
        obtain ⟨member, own⟩ := alone member
        simp [kept member own, own]
      segmentLive := fun segment listed => by
        rw [segments] at listed
        cases listed }

end MemoryArena

namespace ArenaSystem

open MemoryArena

/-- The store that the users see. -/
def store (system : ArenaSystem) : BlockStore BlockAddress := fun block =>
  if block ∈ system.live then some (system.arena.bytes block) else none

/-- What a call does to the store. -/
def Effect (system after : ArenaSystem) : ArenaCall → Prop
  | .allocate size _ => BlockStore.Allocates system.store after.store size after.answer
  | .malloc size _ => BlockStore.Allocates system.store after.store size after.answer
  | .calloc count size _ =>
      BlockStore.AllocatesZeros system.store after.store (count * size) after.answer
  | .free none => after.store = system.store
  | .free (some pointer) => BlockStore.Frees system.store after.store pointer
  | .contextRealloc none size _ =>
      BlockStore.Allocates system.store after.store size after.answer
  | .contextRealloc (some pointer) size _ =>
      if size = 0 then BlockStore.Frees system.store after.store pointer
      else BlockStore.Resizes system.store after.store pointer size after.answer
  | .realloc none size _ => BlockStore.Allocates system.store after.store size after.answer
  | .realloc (some pointer) size _ =>
      if size = 0 then BlockStore.Frees system.store after.store pointer
      else BlockStore.Resizes system.store after.store pointer size after.answer
  | .write pointer place byte => BlockStore.Writes system.store after.store pointer place byte
  | .destroy => after.store = fun block =>
      if (system.arena.headers block).arena then none else system.store block

variable {system after : ArenaSystem} {block pointer : BlockAddress} {arena : MemoryArena}
  {size : ℕ}

theorem store_of_mem (member : block ∈ system.live) :
    system.store block = some (system.arena.bytes block) := if_pos member

theorem store_of_not_mem (absent : block ∉ system.live) : system.store block = none :=
  if_neg absent

/-- A system whose users hold one more block. -/
theorem store_cons (sound : system.arena.Sound system.live none)
    (keeps : system.arena.Keeps arena system.live) (absent : block ∉ system.live)
    (answer : Option BlockAddress) :
    (⟨arena, block :: system.live, answer⟩ : ArenaSystem).store =
      Function.update system.store block (some (arena.bytes block)) := by
  funext other
  obtain rfl | apart := eq_or_ne other block
  · rw [Function.update_self]
    exact store_of_mem List.mem_cons_self
  · rw [Function.update_of_ne apart, store, store]
    by_cases member : other ∈ system.live
    · rw [if_pos member]
      refine (if_pos (List.mem_cons_of_mem _ member)).trans ?_
      exact congrArg some (keeps.bytes sound member)
    · rw [if_neg member]
      exact if_neg fun inside => (List.mem_cons.1 inside).elim apart member

variable {backing : Backing} {grant : Option Grant}

theorem allocated_effect
    (sound : system.arena.Sound system.live none) (fresh : system.arena.Fresh grant) (size : ℕ) :
    let after := system.allocated (system.arena.allocate backing size grant)
    after.arena.Sound after.live none ∧
      BlockStore.Allocates system.store after.store size after.answer := by
  cases allocated : system.arena.allocate backing size grant with
  | none => exact ⟨sound, rfl⟩
  | some pair =>
      obtain ⟨block, arena⟩ := pair
      have after_sound := sound.allocate fresh allocated
      obtain ⟨keeps, header⟩ := sound.allocate_keeps fresh allocated
      have absent := (List.nodup_cons.1 after_sound.nodup).1
      refine ⟨after_sound, store_of_not_mem absent, arena.bytes block, ?_, ?_⟩
      · rw [bytes_length, header]
      · exact store_cons sound keeps absent _

/-- An allocation with a mapping of its own. -/
theorem mapped_effect
    (sound : system.arena.Sound system.live none) (fresh : system.arena.Fresh grant) (size : ℕ)
    (zero : Bool) :
    let after := system.allocated (system.arena.blockAllocateIn backing false size zero grant)
    after.arena.Sound after.live none ∧
      BlockStore.Allocates system.store after.store size after.answer ∧
      (zero = true → BlockStore.AllocatesZeros system.store after.store size after.answer) := by
  cases allocated : system.arena.blockAllocateIn backing false size zero grant with
  | none => exact ⟨sound, rfl, fun _ => rfl⟩
  | some pair =>
      obtain ⟨block, arena⟩ := pair
      obtain ⟨granted, given, rfl, same⟩ := blockAllocateIn_granted allocated
      have unheld : block.mapping ∉ system.arena.mappings := by
        rw [same]
        exact fresh given rfl
      have after_sound := sound.grant granted unheld
      have keeps := sound.grant_keeps granted unheld
      have absent := (List.nodup_cons.1 after_sound.nodup).1
      have store := store_cons sound keeps absent (some block)
      refine ⟨after_sound, ⟨store_of_not_mem absent, arena.bytes block, ?_, store⟩,
        fun zeroed => ⟨store_of_not_mem absent, ?_⟩⟩
      · rw [bytes_length, granted.header.2.1]
      · rw [show (system.allocated (some (block, arena))).store = _ from store]
        congr 2
        refine List.ext_getElem (by simp [granted.header.2.1]) fun place inside _ => ?_
        have small : place < size := by simpa [granted.header.2.1] using inside
        simp only [bytes, List.getElem_map, List.getElem_range, List.getElem_replicate]
        refine granted.zeroed zeroed _ ?_ ?_
        · rw [BlockAddress.payload, granted.offset]
          omega
        · rw [BlockAddress.payload, granted.offset]
          omega

/-- The free of a block that its user holds. -/
theorem freed_effect (sound : system.arena.Sound system.live none)
    (member : pointer ∈ system.live) :
    ∃ after, system.freed pointer = .ok after ∧ after.arena.Sound after.live none ∧
      BlockStore.Frees system.store after.store pointer := by
  obtain ⟨arena, freed, after_sound⟩ := sound.blockFree member
  obtain ⟨headers, memory⟩ := sound.blockFree_keeps member freed
  refine ⟨⟨arena, system.live.erase pointer, none⟩, by rw [ArenaSystem.freed, freed],
    after_sound, by simp [store_of_mem member], ?_⟩
  funext other
  obtain rfl | apart := eq_or_ne other pointer
  · rw [Function.update_self]
    exact store_of_not_mem sound.nodup.not_mem_erase
  · rw [Function.update_of_ne apart, store, store]
    by_cases live : other ∈ system.live
    · rw [if_pos live]
      refine (if_pos ((List.mem_erase_of_ne apart).2 live)).trans ?_
      refine congrArg some (bytes_congr (headers other live apart) fun place _ => ?_)
      rw [memory]
    · rw [if_neg live]
      exact if_neg fun inside => live (List.mem_of_mem_erase inside)

/-- The replacement of a block, whichever way it was allocated. -/
theorem replaced_effect
    (sound : system.arena.Sound system.live none) (fresh : system.arena.Fresh grant)
    {replacement : BlockAddress}
    (replaced : (if (system.arena.headers pointer).arena then
        system.arena.allocate backing size grant
      else system.arena.blockAllocateIn backing (system.arena.headers pointer).pool size false
        grant) = some (replacement, arena)) :
    arena.Sound (replacement :: system.live) none ∧ system.arena.Keeps arena system.live ∧
      (arena.headers replacement).size = size := by
  split_ifs at replaced
  · exact ⟨sound.allocate fresh replaced, sound.allocate_keeps fresh replaced⟩
  · obtain ⟨granted, given, rfl, same⟩ := blockAllocateIn_granted replaced
    have unheld : replacement.mapping ∉ system.arena.mappings := by
      rw [same]
      exact fresh given rfl
    exact ⟨sound.grant granted unheld, sound.grant_keeps granted unheld, granted.header.2.1⟩

/-- A reallocation of a block that its user holds. -/
theorem reallocated_effect
    (sound : system.arena.Sound system.live none) (fresh : system.arena.Fresh grant)
    (member : pointer ∈ system.live) (size : ℕ) :
    ∃ after, reallocated backing system pointer size grant = .ok after ∧
      after.arena.Sound after.live none ∧
      if size = 0 then BlockStore.Frees system.store after.store pointer
      else BlockStore.Resizes system.store after.store pointer size after.answer := by
  rw [reallocated]
  split_ifs with zero
  · exact freed_effect sound member
  · rw [blockRealloc, (sound.held pointer member).magic]
    simp only [Bool.not_true, Bool.false_eq_true, if_false]
    have before : system.store pointer = some (system.arena.bytes pointer) := store_of_mem member
    cases replaced : (if (system.arena.headers pointer).arena then
        system.arena.allocate backing size grant
      else system.arena.blockAllocateIn backing (system.arena.headers pointer).pool size false
        grant) with
    | none => exact ⟨_, rfl, sound, _, before, rfl⟩
    | some pair =>
        obtain ⟨replacement, allocated⟩ := pair
        obtain ⟨allocated_sound, keeps, header⟩ := replaced_effect sound fresh replaced
        have absent := (List.nodup_cons.1 allocated_sound.nodup).1
        have apart : pointer ≠ replacement := by
          rintro rfl
          exact absent member
        set length := min (system.arena.headers pointer).size size
        set copied := allocated.copyPayload replacement pointer length with copied_def
        have copied_sound : copied.Sound (replacement :: system.live) none :=
          allocated_sound.withMemory _
        have inside := List.mem_cons_of_mem replacement member
        obtain ⟨arena, freed, arena_sound⟩ := copied_sound.blockFree inside
        obtain ⟨headers, memory⟩ := copied_sound.blockFree_keeps inside freed
        have live : (replacement :: system.live).erase pointer =
            replacement :: system.live.erase pointer :=
          List.erase_cons_tail (by simpa using apart.symm)
        rw [live] at arena_sound
        have bytes {other : BlockAddress} (held : other ∈ replacement :: system.live)
            (unequal : other ≠ pointer) : arena.bytes other = copied.bytes other :=
          bytes_congr (headers other held unequal) fun place _ => by rw [memory]
        have moved {other : BlockAddress} (held : other ∈ system.live)
            (unequal : other ≠ pointer) : arena.bytes other = system.arena.bytes other := by
          have different : other ≠ replacement := by
            rintro rfl
            exact absent held
          rw [bytes (List.mem_cons_of_mem _ held) unequal, ← keeps.bytes sound held]
          refine allocated_sound.bytes_outside List.mem_cons_self (fun place outside => ?_)
            (List.mem_cons_of_mem _ held) different
          refine copyBytes_outside (outside.imp id fun behind => le_trans ?_ behind)
          rw [header]
          omega
        refine ⟨⟨arena, replacement :: system.live.erase pointer, some replacement⟩, ?_,
          arena_sound, _, before, store_of_not_mem absent, arena.bytes replacement, ?_, ?_, ?_⟩
        · simp only
          rw [← copied_def, freed]
        · rw [bytes_length, headers replacement List.mem_cons_self apart.symm]
          exact header
        · rw [bytes_length, bytes List.mem_cons_self apart.symm]
          have source : (allocated.headers pointer).size = (system.arena.headers pointer).size := by
            rw [keeps.headers pointer member]
          rw [copied_def, copyPayload_bytes (by rw [header]; exact min_le_right ..)
            (by rw [source]; exact min_le_left ..), keeps.bytes sound member]
        · funext other
          obtain rfl | different := eq_or_ne other replacement
          · rw [Function.update_self]
            exact store_of_mem List.mem_cons_self
          · rw [Function.update_of_ne different]
            obtain rfl | unequal := eq_or_ne other pointer
            · rw [Function.update_self]
              refine store_of_not_mem fun held => ?_
              obtain same | held := List.mem_cons.1 held
              · exact different same
              · exact sound.nodup.not_mem_erase held
            · rw [Function.update_of_ne unequal, store, store]
              by_cases held : other ∈ system.live
              · rw [if_pos held]
                refine (if_pos ?_).trans (congrArg some (moved held unequal))
                exact List.mem_cons_of_mem _ ((List.mem_erase_of_ne unequal).2 held)
              · rw [if_neg held]
                refine if_neg fun inside => ?_
                obtain same | inside := List.mem_cons.1 inside
                · exact different same
                · exact held (List.mem_of_mem_erase inside)

/-- A write into a block that its user holds. -/
theorem write_effect (sound : system.arena.Sound system.live none)
    (member : pointer ∈ system.live) {place : ℕ}
    (inside : place < (system.arena.headers pointer).size) (byte : UInt8) :
    BlockStore.Writes system.store
      (⟨{ system.arena with
        memory := Function.update system.arena.memory pointer.mapping
          (Function.update (system.arena.memory pointer.mapping) (pointer.payload + place) byte) },
        system.live, none⟩ : ArenaSystem).store pointer place byte := by
  refine ⟨_, store_of_mem member, by rwa [bytes_length], ?_⟩
  funext other
  obtain rfl | apart := eq_or_ne other pointer
  · rw [Function.update_self]
    refine (if_pos member).trans (congrArg some ?_)
    refine List.ext_getElem (by simp) fun index low high => ?_
    rw [List.getElem_set]
    simp only [bytes, List.getElem_map, List.getElem_range, Function.update_self]
    obtain rfl | different := eq_or_ne index place
    · rw [if_pos rfl, Function.update_self]
    · rw [if_neg (Ne.symm different), Function.update_of_ne (by omega)]
  · rw [Function.update_of_ne apart, store, store]
    by_cases held : other ∈ system.live
    · refine (if_pos held).trans ((congrArg some ?_).trans (if_pos held).symm)
      refine sound.bytes_outside member (fun index outside => ?_) held apart
      exact Function.update_of_ne (by omega) ..
    · exact (if_neg held).trans (if_neg held).symm

/-- An allowed call succeeds, keeps the invariant and has its effect. -/
theorem step_effect {call : ArenaCall}
    (sound : system.arena.Sound system.live none) (allowed : system.Allowed call) :
    ∃ after, system.step backing call = .ok after ∧ after.arena.Sound after.live none ∧
      system.Effect after call := by
  cases call with
  | allocate size grant => exact ⟨_, rfl, allocated_effect sound allowed size⟩
  | malloc size grant =>
      obtain ⟨sound, effect, -⟩ := mapped_effect sound allowed size false
      exact ⟨_, rfl, sound, effect⟩
  | calloc count size grant =>
      rw [step, callocated]
      split_ifs with wraps
      · exact ⟨_, rfl, sound, rfl⟩
      · obtain ⟨sound, -, effect⟩ := mapped_effect sound allowed (count * size) true
        exact ⟨_, rfl, sound, effect rfl⟩
  | free pointer =>
      cases pointer with
      | none => exact ⟨_, rfl, sound, rfl⟩
      | some pointer => exact freed_effect sound (allowed pointer rfl)
  | contextRealloc pointer size grant =>
      cases pointer with
      | none => exact ⟨_, rfl, allocated_effect sound allowed.2 size⟩
      | some pointer => exact reallocated_effect sound allowed.2 (allowed.1 pointer rfl) size
  | realloc pointer size grant =>
      cases pointer with
      | none =>
          obtain ⟨sound, effect, -⟩ := mapped_effect sound allowed.2 size false
          exact ⟨_, rfl, sound, effect⟩
      | some pointer => exact reallocated_effect sound allowed.2 (allowed.1 pointer rfl) size
  | write pointer place byte =>
      exact ⟨_, rfl, sound.withMemory _, write_effect sound allowed.1 allowed.2 byte⟩
  | destroy =>
      obtain ⟨arena, destroyed, arena_sound, headers, memory⟩ := sound.destroy
      refine ⟨⟨arena, system.live.filter fun block => !(system.arena.headers block).arena, none⟩,
        by rw [step, destroyed], arena_sound, ?_⟩
      funext block
      rw [store]
      cases own : (system.arena.headers block).arena with
      | true => exact if_neg fun held => by simp [own] at held
      | false =>
          rw [store]
          by_cases held : block ∈ system.live
          · rw [if_pos held]
            refine (if_pos (List.mem_filter.2 ⟨held, by simp [own]⟩)).trans (congrArg some ?_)
            exact bytes_congr (headers block held own) fun place _ => by rw [memory]
          · rw [if_neg held]
            exact if_neg fun inside => held (List.mem_filter.1 inside).1

theorem Reachable.sound (reachable : Reachable backing system) :
    system.arena.Sound system.live none := by
  induction reachable with
  | init pool headers memory =>
      exact
        { segments := List.nodup_nil
          count := rfl
          current := fun _ found => by cases found
          empty := fun _ found => by cases found
          idle := fun _ listed => by cases listed
          used := fun _ listed => by cases listed
          backed := fun _ listed => by cases listed
          once := List.nodup_nil
          owners := fun _ member => by cases member
          nodup := List.nodup_nil
          held := fun _ member => by cases member
          distinct := fun _ => List.nodup_nil
          available := fun _ _ member => by cases member
          apart := fun _ _ _ _ placed => by cases placed.listed
          liveBlocks := rfl
          segmentLive := fun _ listed => by cases listed }
  | step reachable allowed stepped induction =>
      obtain ⟨after, same, sound, -⟩ := step_effect induction allowed
      obtain rfl := Except.ok.inj (same.symm.trans stepped)
      exact sound

/-! ## Runs -/

/-- A call that leaves a block to its user. -/
def Spares (system : ArenaSystem) (block : BlockAddress) : ArenaCall → Prop
  | .free pointer => pointer ≠ some block
  | .contextRealloc pointer _ _ => pointer ≠ some block
  | .realloc pointer _ _ => pointer ≠ some block
  | .write pointer _ _ => pointer ≠ block
  | .destroy => (system.arena.headers block).arena = false
  | _ => True

/-- A call that spares a block keeps it and its bytes. -/
theorem Effect.keeps {call : ArenaCall} (effect : system.Effect after call)
    (used : system.store block ≠ none) (spares : system.Spares block call) :
    after.store block = system.store block := by
  have resized {pointer : BlockAddress} {size : ℕ} (apart : some pointer ≠ some block)
      (effect : if size = 0 then BlockStore.Frees system.store after.store pointer
        else BlockStore.Resizes system.store after.store pointer size after.answer) :
      after.store block = system.store block := by
    have different : block ≠ pointer := fun same => apart (congrArg some same.symm)
    split_ifs at effect
    · exact effect.keeps different
    · exact effect.keeps used different
  cases call with
  | allocate size grant => exact BlockStore.Allocates.keeps effect used
  | malloc size grant => exact BlockStore.Allocates.keeps effect used
  | calloc count size grant => exact BlockStore.AllocatesZeros.keeps effect used
  | free pointer =>
      cases pointer with
      | none => exact congrFun effect block
      | some pointer =>
          exact BlockStore.Frees.keeps effect fun same => spares (congrArg some same.symm)
  | contextRealloc pointer size grant =>
      cases pointer with
      | none => exact BlockStore.Allocates.keeps effect used
      | some pointer => exact resized spares effect
  | realloc pointer size grant =>
      cases pointer with
      | none => exact BlockStore.Allocates.keeps effect used
      | some pointer => exact resized spares effect
  | write pointer place byte => exact BlockStore.Writes.keeps effect (Ne.symm spares)
  | destroy =>
      rw [show after.store = _ from effect]
      exact if_neg (by rw [show (system.arena.headers block).arena = false from spares]; decide)

/-- Behind any run of allowed calls: the payloads of live blocks do not overlap one another, nor the
blocks that are available; every block of the arena lies within the used part of a segment on the
list and is as large as its size; the counters agree with the live blocks; the idle segment is the
one that is kept; the mappings that are held are those of the segments and of the live blocks that
have their own. -/
theorem arena_sound {backing : Backing} (reachable : Reachable backing system) :
    (∀ first ∈ system.live, ∀ second ∈ system.live, first ≠ second →
      first.mapping = second.mapping →
        first.payload + (system.arena.headers first).size ≤ second.payload ∨
          second.payload + (system.arena.headers second).size ≤ first.payload) ∧
    (∀ block ∈ system.live, (system.arena.headers block).arena = true →
      block.mapping ∈ system.arena.segments ∧ dataStart ≤ block.offset ∧
        block.payload + (system.arena.headers block).size ≤
          dataStart + system.arena.used block.mapping ∧
        system.arena.used block.mapping ≤ arenaBytes) ∧
    (∀ bin, ∀ block ∈ system.arena.available bin, block.mapping ∈ system.arena.segments ∧
      ∀ other ∈ system.live, other.mapping = block.mapping →
        block.offset + stride bin ≤ other.offset ∨
          other.payload + (system.arena.headers other).size ≤ block.offset) ∧
    system.arena.liveBlocks =
      system.live.countP (fun block => (system.arena.headers block).arena) ∧
    (∀ segment ∈ system.arena.segments,
      system.arena.segmentLive segment = system.live.countP (fun block =>
        (system.arena.headers block).arena && block.mapping = segment) ∧
      (system.arena.segmentLive segment = 0 ↔ system.arena.empty = some segment)) ∧
    (∀ segment, system.arena.current = some segment → segment ∈ system.arena.segments) ∧
    system.arena.segmentCount = system.arena.segments.length ∧
    ∀ mapping, mapping ∈ system.arena.mappings ↔ mapping ∈ system.arena.segments ∨
      ∃ block ∈ system.live, block.mapping = mapping ∧
        (system.arena.headers block).arena = false := by
  have sound := reachable.sound
  refine ⟨fun first member second other => sound.payloads_apart member other,
    fun block member own => ?_, fun bin block available => ?_, ?_,
    fun segment listed => ⟨sound.segmentLive segment listed, sound.idle segment listed (by simp)⟩,
    sound.current, sound.count, fun mapping => ⟨sound.owners mapping, ?_⟩⟩
  · obtain ⟨placed, fits⟩ := (sound.held block member).placed own
    have inside := placed.inside
    refine ⟨placed.listed, placed.start, ?_, sound.used _ placed.listed⟩
    rw [BlockAddress.payload]
    rw [stride] at inside
    omega
  · obtain ⟨placed, in_bin, dead⟩ := sound.available bin block available
    refine ⟨placed.listed, fun other member same => ?_⟩
    have held := sound.held other member
    have other_placed := held.placed_of_listed (same ▸ placed.listed)
    have fits := (held.placed other_placed.own).2
    have apart : block ≠ other := by
      rintro rfl
      exact dead member
    have distance := sound.apart block other (.inr ⟨bin, available⟩) (.inl member) placed
      other_placed apart same.symm
    rw [in_bin, stride, stride] at distance
    rw [stride, BlockAddress.payload]
    omega
  · rw [sound.liveBlocks, liveCount]
    simp
  · rintro (listed | ⟨block, member, rfl, own⟩)
    · exact (sound.backed mapping listed).1
    · exact ((sound.held block member).alone own).2.1

/-- The arena is a store of blocks: an allowed call never aborts and does to the store of its users
what its name says; and over any run a block keeps its bytes while no call names it. -/
theorem arena_refines_store {backing : Backing} (reachable : Reachable backing system) :
    (∀ call, system.Allowed call →
      ∃ after, system.step backing call = .ok after ∧ system.Effect after call) ∧
    ∀ block ∈ system.live, ∀ later,
      Relation.ReflTransGen (fun first second => ∃ call, first.Allowed call ∧
        first.Spares block call ∧ first.step backing call = .ok second) system later →
      block ∈ later.live ∧ later.arena.bytes block = system.arena.bytes block := by
  refine ⟨fun call allowed => ?_, fun block member later run => ?_⟩
  · obtain ⟨after, stepped, -, effect⟩ := step_effect reachable.sound allowed
    exact ⟨after, stepped, effect⟩
  · have used : system.store block ≠ none := by simp [store_of_mem member]
    have kept : later.arena.Sound later.live none ∧ later.store block = system.store block := by
      induction run with
      | refl => exact ⟨reachable.sound, rfl⟩
      | tail _ step induction =>
          obtain ⟨sound, same⟩ := induction
          obtain ⟨call, allowed, spares, stepped⟩ := step
          obtain ⟨after, same_step, after_sound, effect⟩ := step_effect sound allowed
          obtain rfl := Except.ok.inj (same_step.symm.trans stepped)
          exact ⟨after_sound, (effect.keeps (by rwa [same]) spares).trans same⟩
    have same := kept.2
    rw [store_of_mem member] at same
    rw [store] at same
    split_ifs at same with held
    exact ⟨held, Option.some.inj same⟩

def smallPages : Backing := ⟨some 4096, fun size same => by
  rw [← Option.some.inj same]
  decide⟩

/-- Two blocks are cut from one new segment. -/
theorem cut_reachable (headers : BlockAddress → BlockHeader) (memory : ℕ → ℕ → UInt8) :
    ∃ system, Reachable smallPages system ∧ system.live = [⟨7, 416⟩, ⟨7, 96⟩] ∧
      (system.arena.headers ⟨7, 416⟩).size = 300 ∧ (system.arena.headers ⟨7, 96⟩).size = 200 := by
  have first := @Reachable.step smallPages _ _ (.allocate 200 (some ⟨7, fun _ => 0⟩))
    (.init true headers memory) (fun _ _ => List.not_mem_nil) rfl
  have second := @Reachable.step smallPages _ _ (.allocate 300 none) first
    (fun _ found => by cases found) rfl
  refine ⟨_, second, ?_⟩
  have mapped : smallPages.mappedSize (segmentBytes + 4194304) = some 4198400 := by decide
  have bytes : arenaBytes = 4194304 := by decide
  have start : dataStart = 96 := by decide
  have small (size : ℕ) (less : size ≤ 300) : ¬capacity (arenaBins - 1) < size := by
    have most : capacity (arenaBins - 1) = 262144 := by decide
    omega
  have first_bin : findBin 200 arenaBins 0 = 0 := by decide
  have second_bin : findBin 300 arenaBins 0 = 1 := by decide
  have first_stride : stride 0 = 320 := by decide
  have second_stride : stride 1 = 576 := by decide
  simp [init, allocated, allocate, small, first_bin, second_bin, first_stride, second_stride,
    findSegment, blockAllocateIn, mapped, bytes, start, withSegment, makeLive, setHeader,
    Option.filter]
/-- The two blocks do not overlap. -/
theorem arena_sound_cut : ∃ system, Reachable smallPages system ∧
    ((⟨7, 416⟩ : BlockAddress).payload + (system.arena.headers ⟨7, 416⟩).size ≤
        (⟨7, 96⟩ : BlockAddress).payload ∨
      (⟨7, 96⟩ : BlockAddress).payload + (system.arena.headers ⟨7, 96⟩).size ≤
        (⟨7, 416⟩ : BlockAddress).payload) := by
  obtain ⟨system, reachable, live, -⟩ :=
    cut_reachable (fun _ => ⟨false, 0, 0, false, false, 0, 0⟩) (fun _ _ => 0)
  exact ⟨system, reachable, (arena_sound reachable).1 _ (by simp [live]) _ (by simp [live])
    (by decide) rfl⟩

/-- The first of them can be freed. -/
theorem arena_refines_store_cut : ∃ system after, Reachable smallPages system ∧
    system.step smallPages (.free (some ⟨7, 96⟩)) = .ok after ∧
      BlockStore.Frees system.store after.store ⟨7, 96⟩ := by
  obtain ⟨system, reachable, live, -⟩ :=
    cut_reachable (fun _ => ⟨false, 0, 0, false, false, 0, 0⟩) (fun _ _ => 0)
  obtain ⟨after, stepped, effect⟩ := (arena_refines_store reachable).1
    (.free (some ⟨7, 96⟩)) fun block same => by simp [← Option.some.inj same, live]
  exact ⟨system, after, reachable, stepped, effect⟩

end ArenaSystem
end Postgamma.Runtime
