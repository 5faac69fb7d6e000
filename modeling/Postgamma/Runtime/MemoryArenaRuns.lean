import Mathlib
import Postgamma.Runtime.MemoryArena

/-!
# The invariant of a memory arena

The blocks that the users hold and the blocks that are available lie apart from one another, within
the used parts of the segments on the list, and the counters agree with the blocks that are held.
-/

namespace Postgamma.Runtime

namespace MemoryArena

/-- A block of the arena that lies within the used part of its segment. -/
structure Placed (arena : MemoryArena) (block : BlockAddress) : Prop where
  own : (arena.headers block).arena = true
  segment : (arena.headers block).segment = block.mapping
  binned : (arena.headers block).bin < arenaBins
  listed : block.mapping ∈ arena.segments
  start : dataStart ≤ block.offset
  inside : block.offset + stride (arena.headers block).bin ≤ dataStart + arena.used block.mapping

/-- A block that its user may free. -/
structure Held (arena : MemoryArena) (block : BlockAddress) : Prop where
  magic : (arena.headers block).magic = true
  placed : (arena.headers block).arena = true →
    arena.Placed block ∧ (arena.headers block).size ≤ capacity (arena.headers block).bin
  alone : (arena.headers block).arena = false →
    block.offset = 0 ∧ block.mapping ∈ arena.mappings ∧ block.mapping ∉ arena.segments

/-- A block that is live or available. -/
def Owned (arena : MemoryArena) (live : List BlockAddress) (block : BlockAddress) : Prop :=
  block ∈ live ∨ ∃ bin, block ∈ arena.available bin

/-- Two blocks of the arena do not overlap. -/
def Apart (arena : MemoryArena) (first second : BlockAddress) : Prop :=
  first.mapping = second.mapping →
    first.offset + stride (arena.headers first).bin ≤ second.offset ∨
      second.offset + stride (arena.headers second).bin ≤ first.offset

/-- The live blocks of the arena that satisfy a test of their segment. -/
def liveCount (arena : MemoryArena) (live : List BlockAddress) (test : ℕ → Bool) : ℕ :=
  live.countP fun block => (arena.headers block).arena && test block.mapping

/-- The invariant; `hand` is a segment that is idle and not yet known as such. -/
structure Sound (arena : MemoryArena) (live : List BlockAddress) (hand : Option ℕ) : Prop where
  segments : arena.segments.Nodup
  count : arena.segmentCount = arena.segments.length
  current : ∀ segment, arena.current = some segment → segment ∈ arena.segments
  empty : ∀ segment, arena.empty = some segment → segment ∈ arena.segments
  idle : ∀ segment ∈ arena.segments, hand ≠ some segment →
    (arena.segmentLive segment = 0 ↔ arena.empty = some segment)
  used : ∀ segment ∈ arena.segments, arena.used segment ≤ arenaBytes
  backed : ∀ segment ∈ arena.segments, segment ∈ arena.mappings ∧
    (arena.headers ⟨segment, 0⟩).magic = true ∧ (arena.headers ⟨segment, 0⟩).arena = false
  once : arena.mappings.Nodup
  owners : ∀ mapping ∈ arena.mappings, mapping ∈ arena.segments ∨
    ∃ block ∈ live, block.mapping = mapping ∧ (arena.headers block).arena = false
  nodup : live.Nodup
  held : ∀ block ∈ live, arena.Held block
  distinct : ∀ bin, (arena.available bin).Nodup
  available : ∀ bin, ∀ block ∈ arena.available bin,
    arena.Placed block ∧ (arena.headers block).bin = bin ∧ block ∉ live
  apart : ∀ first second, arena.Owned live first → arena.Owned live second →
    arena.Placed first → arena.Placed second → first ≠ second → arena.Apart first second
  liveBlocks : arena.liveBlocks = arena.liveCount live fun _ => true
  segmentLive : ∀ segment ∈ arena.segments,
    arena.segmentLive segment = arena.liveCount live fun mapping => mapping = segment

/-- A place in a segment that no block overlaps. -/
structure Offered (arena : MemoryArena) (live : List BlockAddress) (bin : ℕ)
    (block : BlockAddress) : Prop where
  listed : block.mapping ∈ arena.segments
  binned : bin < arenaBins
  start : dataStart ≤ block.offset
  inside : block.offset + stride bin ≤ dataStart + arena.used block.mapping
  fresh : ¬arena.Owned live block
  apart : ∀ other, arena.Owned live other → arena.Placed other →
    block.mapping = other.mapping → block.offset + stride bin ≤ other.offset ∨
      other.offset + stride (arena.headers other).bin ≤ block.offset

variable {arena after : MemoryArena} {live : List BlockAddress} {hand : Option ℕ}
  {block : BlockAddress} {bin size segment : ℕ}

theorem dataStart_pos : 0 < dataStart := by decide

theorem Placed.ne_segment (placed : arena.Placed block) (segment : ℕ) :
    block ≠ ⟨segment, 0⟩ := by
  rintro rfl
  exact absurd placed.start (Nat.not_le.2 dataStart_pos)

theorem Sound.owned_mapping (sound : arena.Sound live hand) (owned : arena.Owned live block) :
    block.mapping ∈ arena.mappings := by
  obtain held | ⟨bin, available⟩ := owned
  · have held := sound.held block held
    cases own : (arena.headers block).arena with
    | true => exact (sound.backed _ (held.placed own).1.listed).1
    | false => exact (held.alone own).2.1
  · exact (sound.backed _ (sound.available bin block available).1.listed).1

/-- A live block on the list of segments belongs to the arena. -/
theorem Held.placed_of_listed (held : arena.Held block) (listed : block.mapping ∈ arena.segments) :
    arena.Placed block := by
  cases own : (arena.headers block).arena with
  | true => exact (held.placed own).1
  | false => exact absurd listed (held.alone own).2.2

theorem Sound.owned_placed (sound : arena.Sound live hand) (owned : arena.Owned live block)
    (listed : block.mapping ∈ arena.segments) : arena.Placed block := by
  obtain held | ⟨bin, available⟩ := owned
  · exact (sound.held block held).placed_of_listed listed
  · exact (sound.available bin block available).1

theorem liveCount_congr {test : ℕ → Bool}
    (same : ∀ block ∈ live, (after.headers block).arena = (arena.headers block).arena) :
    after.liveCount live test = arena.liveCount live test :=
  List.countP_congr fun block member => by rw [same block member]

/-- A block with the same header in the same segment is placed as before. -/
theorem Placed.congr (placed : arena.Placed block)
    (header : after.headers block = arena.headers block)
    (listed : block.mapping ∈ arena.segments → block.mapping ∈ after.segments)
    (used : arena.used block.mapping ≤ after.used block.mapping) : after.Placed block where
  own := header ▸ placed.own
  segment := header ▸ placed.segment
  binned := header ▸ placed.binned
  listed := listed placed.listed
  start := placed.start
  inside := by
    have inside := placed.inside
    rw [header]
    omega

theorem makeLive_headers (arena : MemoryArena) (block : BlockAddress) (segment bin size : ℕ)
    {other : BlockAddress} (apart : other ≠ block) :
    (arena.makeLive block segment bin size).headers other = arena.headers other :=
  Function.update_of_ne apart ..

theorem makeLive_header (arena : MemoryArena) (block : BlockAddress) (segment bin size : ℕ) :
    (arena.makeLive block segment bin size).headers block =
      { magic := true, size, mappedSize := 0, pool := arena.pool, arena := true, segment, bin } :=
  Function.update_self ..

/-- An offered place becomes a live block. -/
theorem Sound.makeLive (sound : arena.Sound live hand) (offered : arena.Offered live bin block)
    (known : hand = none ∨ hand = some block.mapping) (fits : size ≤ capacity bin) :
    (arena.makeLive block block.mapping bin size).Sound (block :: live) none := by
  set made := arena.makeLive block block.mapping bin size with made_def
  have header : made.headers block = _ := makeLive_header arena block block.mapping bin size
  have different {other : BlockAddress} (owned : arena.Owned live other) : other ≠ block := by
    rintro rfl
    exact offered.fresh owned
  have headers {other : BlockAddress} (owned : arena.Owned live other) :
      made.headers other = arena.headers other :=
    makeLive_headers arena block block.mapping bin size (different owned)
  have backing (segment : ℕ) : made.headers ⟨segment, 0⟩ = arena.headers ⟨segment, 0⟩ := by
    refine makeLive_headers arena block block.mapping bin size ?_
    rintro rfl
    exact absurd offered.start (Nat.not_le.2 dataStart_pos)
  have placed {other : BlockAddress} (owned : arena.Owned live other)
      (placed : arena.Placed other) : made.Placed other :=
    placed.congr (headers owned) id le_rfl
  have placed_back {other : BlockAddress} (owned : arena.Owned live other)
      (placed : made.Placed other) : arena.Placed other :=
    placed.congr (headers owned).symm id le_rfl
  have itself : made.Placed block :=
    { own := by rw [header]
      segment := by rw [header]
      binned := by rw [header]; exact offered.binned
      listed := offered.listed
      start := offered.start
      inside := by rw [header]; exact offered.inside }
  have count (test : ℕ → Bool) : made.liveCount (block :: live) test =
      arena.liveCount live test + if test block.mapping then 1 else 0 := by
    rw [liveCount, List.countP_cons, header]
    congr 1
    exact liveCount_congr fun other member => by rw [headers (.inl member)]
  have owners {other : BlockAddress} (owned : made.Owned (block :: live) other) :
      other = block ∨ arena.Owned live other := by
    obtain member | available := owned
    · obtain same | member := List.mem_cons.1 member
      · exact .inl same
      · exact .inr (.inl member)
    · exact .inr (.inr available)
  exact
    { sound with
      empty := fun segment found => by
        change (if arena.empty = some block.mapping then none else arena.empty) = _ at found
        split_ifs at found
        exact sound.empty segment found
      idle := fun segment listed _ => by
        change Function.update arena.segmentLive block.mapping _ segment = 0 ↔
          (if arena.empty = some block.mapping then none else arena.empty) = some segment
        obtain rfl | apart := eq_or_ne segment block.mapping
        · rw [Function.update_self]
          refine ⟨fun zero => absurd zero (Nat.succ_ne_zero _), fun found => ?_⟩
          split_ifs at found with empty
          exact absurd found empty
        · have free : hand ≠ some segment := by
            rintro rfl
            obtain none_ | same := known
            · cases none_
            · exact apart (Option.some.inj same)
          rw [Function.update_of_ne apart, sound.idle segment listed free]
          split_ifs with empty
          · refine ⟨fun found => ?_, fun found => by cases found⟩
            exact absurd (Option.some.inj (found.symm.trans empty)) apart
          · exact Iff.rfl
      backed := fun segment listed => by
        rw [backing]
        exact sound.backed segment listed
      owners := fun mapping member => by
        obtain listed | ⟨other, member, same, own⟩ := sound.owners mapping member
        · exact .inl listed
        · exact .inr ⟨other, List.mem_cons_of_mem _ member, same, by rwa [headers (.inl member)]⟩
      nodup := List.nodup_cons.2 ⟨fun member => offered.fresh (.inl member), sound.nodup⟩
      held := fun other member => by
        obtain rfl | member := List.mem_cons.1 member
        · exact ⟨by rw [header], fun _ => ⟨itself, by rw [header]; exact fits⟩,
            fun own => by rw [header] at own; cases own⟩
        · have held := sound.held other member
          have same := headers (.inl member)
          refine ⟨same ▸ held.magic, fun own => ?_, fun own => ?_⟩
          · rw [same] at own ⊢
            exact ⟨placed (.inl member) (held.placed own).1, (held.placed own).2⟩
          · rw [same] at own
            exact held.alone own
      available := fun other_bin other member => by
        have owned : arena.Owned live other := .inr ⟨other_bin, member⟩
        obtain ⟨place, in_bin, dead⟩ := sound.available other_bin other member
        refine ⟨placed owned place, by rwa [headers owned], fun live => ?_⟩
        obtain same | live := List.mem_cons.1 live
        · exact different owned same
        · exact dead live
      apart := fun first second first_owned second_owned first_placed second_placed unequal => by
        obtain rfl | first_old := owners first_owned
        · obtain rfl | second_old := owners second_owned
          · exact absurd rfl unequal
          · intro same
            rw [header, headers second_old]
            exact offered.apart second second_old (placed_back second_old second_placed) same
        · obtain rfl | second_old := owners second_owned
          · intro same
            rw [header, headers first_old]
            exact (offered.apart first first_old (placed_back first_old first_placed)
              same.symm).symm
          · intro same
            rw [headers first_old, headers second_old]
            exact sound.apart first second first_old second_old
              (placed_back first_old first_placed) (placed_back second_old second_placed)
              unequal same
      liveBlocks := by
        rw [count]
        exact congrArg (· + 1) sound.liveBlocks
      segmentLive := fun segment listed => by
        rw [count]
        change Function.update arena.segmentLive block.mapping _ segment = _
        obtain rfl | apart := eq_or_ne segment block.mapping
        · rw [Function.update_self, sound.segmentLive _ listed]
          simp
        · rw [Function.update_of_ne apart, sound.segmentLive _ listed]
          simp [apart.symm] }

theorem stride_pos (bin : ℕ) : 0 < stride bin := by
  rw [stride, blockBytes]
  omega

/-- Blocks may leave the bins. -/
theorem Sound.withAvailable (sound : arena.Sound live hand) {lists : ℕ → List BlockAddress}
    (sub : ∀ bin, (lists bin).Sublist (arena.available bin)) :
    ({ arena with available := lists } : MemoryArena).Sound live hand := by
  have owned {other : BlockAddress}
      (owned : ({ arena with available := lists } : MemoryArena).Owned live other) :
      arena.Owned live other := owned.imp id fun ⟨bin, member⟩ => ⟨bin, (sub bin).subset member⟩
  have placed {other : BlockAddress}
      (placed : ({ arena with available := lists } : MemoryArena).Placed other) :
      arena.Placed other := placed.congr rfl id le_rfl
  exact
    { sound with
      held := fun block member =>
        { magic := (sound.held block member).magic
          placed := fun own => ⟨((sound.held block member).placed own).1.congr rfl id le_rfl,
            ((sound.held block member).placed own).2⟩
          alone := (sound.held block member).alone }
      distinct := fun bin => (sound.distinct bin).sublist (sub bin)
      available := fun bin block member => by
        obtain ⟨place, in_bin, dead⟩ := sound.available bin block ((sub bin).subset member)
        exact ⟨place.congr rfl id le_rfl, in_bin, dead⟩
      apart := fun first second first_owned second_owned first_placed second_placed =>
        sound.apart first second (owned first_owned) (owned second_owned) (placed first_placed)
          (placed second_placed) }

/-- The first block of a bin is offered. -/
theorem Sound.pop {rest : List BlockAddress} (sound : arena.Sound live hand)
    (first : arena.available bin = block :: rest) :
    ({ arena with available := Function.update arena.available bin rest } :
      MemoryArena).Sound live hand ∧
    ({ arena with available := Function.update arena.available bin rest } :
      MemoryArena).Offered live bin block := by
  have member : block ∈ arena.available bin := by
    rw [first]
    exact List.mem_cons_self
  obtain ⟨placed, in_bin, dead⟩ := sound.available bin block member
  have sub (other : ℕ) : (Function.update arena.available bin rest other).Sublist
      (arena.available other) := by
    obtain rfl | apart := eq_or_ne other bin
    · rw [Function.update_self, first]
      exact List.sublist_cons_self block rest
    · rw [Function.update_of_ne apart]
  have absent : block ∉ rest := by
    have distinct := sound.distinct bin
    rw [first] at distinct
    exact (List.nodup_cons.1 distinct).1
  have fresh : ¬({ arena with available := Function.update arena.available bin rest } :
      MemoryArena).Owned live block := by
    rintro (live | ⟨other, available⟩)
    · exact dead live
    · obtain rfl | apart := eq_or_ne other bin
      · rw [show ({ arena with available := Function.update arena.available other rest } :
          MemoryArena).available other = rest from Function.update_self ..] at available
        exact absent available
      · have there := (sub other).subset available
        exact apart ((sound.available other block there).2.1.symm.trans in_bin)
  refine ⟨sound.withAvailable sub,
    { listed := placed.listed
      binned := in_bin ▸ placed.binned
      start := placed.start
      inside := in_bin ▸ placed.inside
      fresh := fresh
      apart := fun other owned other_placed same => ?_ }⟩
  have old : arena.Owned live other := owned.imp id fun ⟨place, inside⟩ =>
    ⟨place, (sub place).subset inside⟩
  have unequal : block ≠ other := fun equal => fresh (equal ▸ owned)
  have apart := sound.apart block other (.inr ⟨bin, member⟩) old placed
    (other_placed.congr rfl id le_rfl) unequal same
  rwa [in_bin] at apart

/-- A place behind the used part of a segment is offered. -/
theorem Sound.cut (sound : arena.Sound live hand) (listed : segment ∈ arena.segments)
    (binned : bin < arenaBins) (room : stride bin ≤ arenaBytes - arena.used segment) :
    ({ arena with used := Function.update arena.used segment (arena.used segment + stride bin) } :
      MemoryArena).Sound live hand ∧
    ({ arena with used := Function.update arena.used segment (arena.used segment + stride bin) } :
      MemoryArena).Offered live bin ⟨segment, dataStart + arena.used segment⟩ := by
  set cut : MemoryArena :=
    { arena with used := Function.update arena.used segment (arena.used segment + stride bin) }
  have itself : cut.used segment = arena.used segment + stride bin := Function.update_self ..
  have more (other : ℕ) : arena.used other ≤ cut.used other := by
    obtain rfl | apart := eq_or_ne other segment
    · rw [itself]
      exact Nat.le_add_right ..
    · exact (Function.update_of_ne apart ..).ge
  have inside := sound.used segment listed
  have positive := stride_pos bin
  have before {other : BlockAddress} (owned : arena.Owned live other)
      (same : segment = other.mapping) :
      other.offset + stride (arena.headers other).bin ≤ dataStart + arena.used segment := by
    have placed := sound.owned_placed owned (same ▸ listed)
    exact same ▸ placed.inside
  refine ⟨?_,
    { listed := listed
      binned := binned
      start := Nat.le_add_right ..
      inside := by
        rw [itself]
        exact (Nat.add_assoc ..).le
      fresh := fun owned => ?_
      apart := fun other owned _ same => .inr (before owned same) }⟩
  · exact
      { sound with
        used := fun other member => by
          obtain rfl | apart := eq_or_ne other segment
          · rw [itself]
            omega
          · rw [show cut.used other = arena.used other from Function.update_of_ne apart ..]
            exact sound.used other member
        held := fun block member =>
          { magic := (sound.held block member).magic
            placed := fun own => ⟨((sound.held block member).placed own).1.congr rfl id (more _),
              ((sound.held block member).placed own).2⟩
            alone := (sound.held block member).alone }
        available := fun bin block member =>
          ⟨(sound.available bin block member).1.congr rfl id (more _),
            (sound.available bin block member).2⟩
        apart := fun first second first_owned second_owned first_placed second_placed =>
          sound.apart first second first_owned second_owned
            (sound.owned_placed first_owned first_placed.listed)
            (sound.owned_placed second_owned second_placed.listed) }
  · have limit := @before ⟨segment, dataStart + arena.used segment⟩ owned rfl
    have step := stride_pos (arena.headers ⟨segment, dataStart + arena.used segment⟩).bin
    change dataStart + arena.used segment + _ ≤ _ at limit
    omega

/-- No block of a segment without live blocks is live. -/
theorem Sound.not_live (sound : arena.Sound live hand) (listed : segment ∈ arena.segments)
    (idle : arena.segmentLive segment = 0) (member : block ∈ live) : block.mapping ≠ segment := by
  rintro rfl
  have none_live := (sound.segmentLive _ listed).symm.trans idle
  have placed := (sound.held block member).placed_of_listed listed
  refine List.countP_eq_zero.1 none_live block member ?_
  simp [placed.own]

/-- The bins behind the unlinking hold no block of the segment. -/
theorem Sound.unlinkFree (sound : arena.Sound live hand) (segment : ℕ) :
    (arena.unlinkFree segment).Sound live hand ∧
      ∀ bin, ∀ block ∈ (arena.unlinkFree segment).available bin, block.mapping ≠ segment := by
  refine ⟨sound.withAvailable fun bin => ?_, fun bin block member => ?_⟩
  · split_ifs
    · exact List.filter_sublist
    · exact List.Sublist.refl _
  · change block ∈ (if bin < arenaBins then _ else _) at member
    split_ifs at member with binned
    · obtain ⟨member, apart⟩ := List.mem_filter.1 member
      rw [(sound.available bin block member).1.segment] at apart
      exact of_decide_eq_true apart
    · have placed := sound.available bin block member
      exact absurd (placed.2.1 ▸ placed.1.binned) binned

/-- The idle segment is used from its start. -/
theorem Sound.reuse (sound : arena.Sound live none) (empty : arena.empty = some segment) :
    (arena.restart segment).Sound live none := by
  have listed := sound.empty segment empty
  have idle := (sound.idle segment listed (by simp)).2 empty
  obtain ⟨unlinked, gone⟩ := sound.unlinkFree segment
  set reused := arena.restart segment
  have away {block : BlockAddress} (owned : reused.Owned live block) : block.mapping ≠ segment := by
    obtain member | ⟨bin, available⟩ := owned
    · exact sound.not_live listed idle member
    · exact gone bin block available
  have used {other : ℕ} (apart : other ≠ segment) : reused.used other = arena.used other :=
    Function.update_of_ne apart ..
  have placed {block : BlockAddress} (owned : reused.Owned live block)
      (placed : (arena.unlinkFree segment).Placed block) : reused.Placed block :=
    placed.congr rfl id (used (away owned)).ge
  exact
    { unlinked with
      current := fun other found => Option.some.inj found ▸ listed
      used := fun other member => by
        obtain rfl | apart := eq_or_ne other segment
        · rw [show reused.used other = 0 from Function.update_self ..]
          exact Nat.zero_le _
        · rw [used apart]
          exact unlinked.used other member
      held := fun block member =>
        { magic := (unlinked.held block member).magic
          placed := fun own => ⟨placed (.inl member) ((unlinked.held block member).placed own).1,
            ((unlinked.held block member).placed own).2⟩
          alone := (unlinked.held block member).alone }
      available := fun bin block member =>
        ⟨placed (.inr ⟨bin, member⟩) (unlinked.available bin block member).1,
          (unlinked.available bin block member).2⟩
      apart := fun first second first_owned second_owned first_placed second_placed =>
        unlinked.apart first second first_owned second_owned
          (unlinked.owned_placed first_owned first_placed.listed)
          (unlinked.owned_placed second_owned second_placed.listed) }

/-- What a granted mapping changes. -/
structure Granted (arena after : MemoryArena) (block : BlockAddress) (size : ℕ) (zero : Bool) :
    Prop where
  offset : block.offset = 0
  rest : after = { arena with
    headers := after.headers
    memory := after.memory
    mappings := block.mapping :: arena.mappings }
  header : (after.headers block).magic = true ∧ (after.headers block).size = size ∧
    (after.headers block).arena = false
  headers : ∀ other, other ≠ block → after.headers other = arena.headers other
  memory : ∀ mapping, mapping ≠ block.mapping → after.memory mapping = arena.memory mapping
  zeroed : zero = true → ∀ place, blockBytes ≤ place → place < blockBytes + size →
    after.memory block.mapping place = 0

theorem blockAllocateIn_granted {backing : Backing} {pool zero : Bool} {grant : Option Grant}
    (allocated : arena.blockAllocateIn backing pool size zero grant = some (block, after)) :
    arena.Granted after block size zero ∧ ∃ given, grant = some given ∧
      block.mapping = given.mapping := by
  rw [blockAllocateIn] at allocated
  cases mapped : backing.mappedSize size with
  | none =>
      simp only [mapped] at allocated
      cases allocated
  | some mapped_size =>
      simp only [mapped] at allocated
      obtain ⟨given, rfl, same⟩ := Option.map_eq_some_iff.1 allocated
      obtain ⟨rfl, rfl⟩ := Prod.mk.inj same
      refine ⟨⟨rfl, rfl, ?_, fun other apart => Function.update_of_ne apart ..,
        fun mapping apart => Function.update_of_ne apart .., fun zeroed place low high => ?_⟩,
        given, rfl, rfl⟩
      · simp [setHeader]
      · simp [zeroed, low, high]

/-- A grant names no block that is owned or that a segment lies in. -/
theorem Sound.grant_fresh (sound : arena.Sound live hand)
    (fresh : block.mapping ∉ arena.mappings) :
    (∀ other, arena.Owned live other → other ≠ block) ∧
      ∀ segment ∈ arena.segments, (⟨segment, 0⟩ : BlockAddress) ≠ block := by
  refine ⟨?_, ?_⟩
  · rintro other owned rfl
    exact fresh (sound.owned_mapping owned)
  · rintro segment listed rfl
    exact fresh (sound.backed segment listed).1

/-- A block gets a mapping of its own. -/
theorem Sound.grant {zero : Bool} (sound : arena.Sound live hand)
    (granted : arena.Granted after block size zero) (fresh : block.mapping ∉ arena.mappings) :
    after.Sound (block :: live) hand := by
  obtain ⟨different, apart_segments⟩ := sound.grant_fresh fresh
  have header := granted.header
  have untouched := granted.headers
  have unlisted : block.mapping ∉ arena.segments := fun listed =>
    fresh (sound.backed _ listed).1
  rw [granted.rest] at header untouched ⊢
  generalize after.headers = heads at *
  generalize after.memory = memory at *
  set mapped : MemoryArena := { arena with
    headers := heads, memory := memory, mappings := block.mapping :: arena.mappings }
  have magic : (mapped.headers block).magic = true := header.1
  have alone : (mapped.headers block).arena = false := header.2.2
  have headers {other : BlockAddress} (owned : arena.Owned live other) :
      mapped.headers other = arena.headers other := untouched other (different other owned)
  have backing (segment : ℕ) (listed : segment ∈ arena.segments) :
      mapped.headers ⟨segment, 0⟩ = arena.headers ⟨segment, 0⟩ :=
    untouched _ (apart_segments segment listed)
  have placed {other : BlockAddress} (owned : arena.Owned live other)
      (placed : arena.Placed other) : mapped.Placed other :=
    placed.congr (headers owned) id le_rfl
  have placed_back {other : BlockAddress} (owned : arena.Owned live other)
      (placed : mapped.Placed other) : arena.Placed other :=
    placed.congr (headers owned).symm id le_rfl
  have count (test : ℕ → Bool) :
      mapped.liveCount (block :: live) test = arena.liveCount live test := by
    rw [liveCount, List.countP_cons_of_neg (by simp [alone])]
    exact liveCount_congr fun other member => by rw [headers (.inl member)]
  have owners {other : BlockAddress} (owned : mapped.Owned (block :: live) other)
      (listed : other.mapping ∈ arena.segments) : arena.Owned live other := by
    obtain member | available := owned
    · obtain rfl | member := List.mem_cons.1 member
      · exact absurd listed unlisted
      · exact .inl member
    · exact .inr available
  exact
    { sound with
      backed := fun segment listed => by
        rw [backing segment listed]
        exact ⟨List.mem_cons_of_mem _ (sound.backed segment listed).1,
          (sound.backed segment listed).2⟩
      once := List.nodup_cons.2 ⟨fresh, sound.once⟩
      owners := fun mapping member => by
        obtain rfl | member := List.mem_cons.1 member
        · exact .inr ⟨block, List.mem_cons_self, rfl, alone⟩
        · obtain listed | ⟨other, member, same, own⟩ := sound.owners mapping member
          · exact .inl listed
          · exact .inr ⟨other, List.mem_cons_of_mem _ member, same,
              by rwa [headers (.inl member)]⟩
      nodup := List.nodup_cons.2 ⟨fun member => different block (.inl member) rfl, sound.nodup⟩
      held := fun other member => by
        obtain rfl | member := List.mem_cons.1 member
        · exact ⟨magic, fun own => absurd (own.symm.trans alone) (by decide),
            fun _ => ⟨granted.offset, List.mem_cons_self, unlisted⟩⟩
        · have held := sound.held other member
          have same := headers (.inl member)
          refine ⟨same ▸ held.magic, fun own => ?_, fun own => ?_⟩
          · rw [same] at own ⊢
            exact ⟨placed (.inl member) (held.placed own).1, (held.placed own).2⟩
          · rw [same] at own
            obtain ⟨offset, mapping, unlisted⟩ := held.alone own
            exact ⟨offset, List.mem_cons_of_mem _ mapping, unlisted⟩
      available := fun bin other member => by
        have owned : arena.Owned live other := .inr ⟨bin, member⟩
        obtain ⟨place, in_bin, dead⟩ := sound.available bin other member
        refine ⟨placed owned place, by rwa [headers owned], fun live => ?_⟩
        obtain same | live := List.mem_cons.1 live
        · exact different other owned same
        · exact dead live
      apart := fun first second first_owned second_owned first_placed second_placed unequal => by
        have first_old := owners first_owned first_placed.listed
        have second_old := owners second_owned second_placed.listed
        intro same
        rw [headers first_old, headers second_old]
        exact sound.apart first second first_old second_old (placed_back first_old first_placed)
          (placed_back second_old second_placed) unequal same
      liveBlocks := by
        rw [count]
        exact sound.liveBlocks
      segmentLive := fun segment listed => by
        rw [count]
        exact sound.segmentLive segment listed }

/-- A new segment is idle until a block is cut from it. -/
theorem Sound.grantSegment {zero : Bool} (sound : arena.Sound live none)
    (granted : arena.Granted after block size zero) (fresh : block.mapping ∉ arena.mappings) :
    (after.withSegment block.mapping).Sound live (some block.mapping) := by
  obtain ⟨different, apart_segments⟩ := sound.grant_fresh fresh
  have magic := granted.header.1
  have alone := granted.header.2.2
  have untouched := granted.headers
  have itself : (⟨block.mapping, 0⟩ : BlockAddress) = block := by
    rw [← granted.offset]
  have unlisted : block.mapping ∉ arena.segments := fun listed =>
    fresh (sound.backed _ listed).1
  rw [granted.rest] at magic alone untouched ⊢
  generalize after.headers = heads at *
  generalize after.memory = memory at *
  set mapped : MemoryArena := { arena with
    headers := heads, memory := memory, mappings := block.mapping :: arena.mappings }
  set grown := mapped.withSegment block.mapping
  have headers {other : BlockAddress} (owned : arena.Owned live other) :
      grown.headers other = arena.headers other := untouched other (different other owned)
  have backing (segment : ℕ) (listed : segment ∈ arena.segments) :
      grown.headers ⟨segment, 0⟩ = arena.headers ⟨segment, 0⟩ :=
    untouched _ (apart_segments segment listed)
  have away {other : BlockAddress} (owned : arena.Owned live other) :
      other.mapping ≠ block.mapping := fun same =>
    fresh (same ▸ sound.owned_mapping owned)
  have used {segment : ℕ} (apart : segment ≠ block.mapping) :
      grown.used segment = arena.used segment := Function.update_of_ne apart ..
  have placed {other : BlockAddress} (owned : arena.Owned live other)
      (placed : arena.Placed other) : grown.Placed other :=
    placed.congr (headers owned) (List.mem_cons_of_mem _) (used (away owned)).ge
  have count (test : ℕ → Bool) : grown.liveCount live test = arena.liveCount live test :=
    liveCount_congr fun other member => by rw [headers (.inl member)]
  exact
    { segments := List.nodup_cons.2 ⟨unlisted, sound.segments⟩
      count := congrArg (· + 1) sound.count
      current := fun segment found => Option.some.inj found ▸ List.mem_cons_self
      empty := fun segment found => List.mem_cons_of_mem _ (sound.empty segment found)
      idle := fun segment listed free => by
        have apart : segment ≠ block.mapping := fun same => free (by rw [same])
        have old := (List.mem_cons.1 listed).resolve_left apart
        change Function.update arena.segmentLive block.mapping 0 segment = 0 ↔ _
        rw [Function.update_of_ne apart]
        exact sound.idle segment old (by simp)
      used := fun segment listed => by
        obtain rfl | apart := eq_or_ne segment block.mapping
        · rw [show grown.used block.mapping = 0 from Function.update_self ..]
          exact Nat.zero_le _
        · rw [used apart]
          exact sound.used segment ((List.mem_cons.1 listed).resolve_left apart)
      backed := fun segment listed => by
        obtain rfl | listed := List.mem_cons.1 listed
        · exact ⟨List.mem_cons_self, by rw [itself]; exact ⟨magic, alone⟩⟩
        · rw [backing segment listed]
          exact ⟨List.mem_cons_of_mem _ (sound.backed segment listed).1,
            (sound.backed segment listed).2⟩
      once := List.nodup_cons.2 ⟨fresh, sound.once⟩
      owners := fun mapping member => by
        obtain rfl | member := List.mem_cons.1 member
        · exact .inl List.mem_cons_self
        · obtain listed | ⟨other, member, same, own⟩ := sound.owners mapping member
          · exact .inl (List.mem_cons_of_mem _ listed)
          · exact .inr ⟨other, member, same, by rwa [headers (.inl member)]⟩
      nodup := sound.nodup
      held := fun other member => by
        have held := sound.held other member
        have same := headers (.inl member)
        refine ⟨same ▸ held.magic, fun own => ?_, fun own => ?_⟩
        · rw [same] at own ⊢
          exact ⟨placed (.inl member) (held.placed own).1, (held.placed own).2⟩
        · rw [same] at own
          obtain ⟨offset, mapping, unlisted⟩ := held.alone own
          refine ⟨offset, List.mem_cons_of_mem _ mapping, fun listed => ?_⟩
          obtain same | listed := List.mem_cons.1 listed
          · exact away (.inl member) same
          · exact unlisted listed
      distinct := sound.distinct
      available := fun bin other member => by
        have owned : arena.Owned live other := .inr ⟨bin, member⟩
        obtain ⟨place, in_bin, dead⟩ := sound.available bin other member
        exact ⟨placed owned place, by rwa [headers owned], dead⟩
      apart := fun first second first_owned second_owned first_placed second_placed unequal => by
        have listed {other : BlockAddress} (owned : arena.Owned live other)
            (placed : grown.Placed other) : other.mapping ∈ arena.segments :=
          (List.mem_cons.1 placed.listed).resolve_left (away owned)
        intro same
        rw [headers first_owned, headers second_owned]
        exact sound.apart first second first_owned second_owned
          (sound.owned_placed first_owned (listed first_owned first_placed))
          (sound.owned_placed second_owned (listed second_owned second_placed)) unequal same
      liveBlocks := by
        rw [count]
        exact sound.liveBlocks
      segmentLive := fun segment listed => by
        rw [count]
        change Function.update arena.segmentLive block.mapping 0 segment = _
        obtain rfl | apart := eq_or_ne segment block.mapping
        · rw [Function.update_self]
          refine (List.countP_eq_zero.2 fun other member => ?_).symm
          simp [away (.inl member)]
        · rw [Function.update_of_ne apart]
          exact sound.segmentLive segment ((List.mem_cons.1 listed).resolve_left apart) }

/-! ## Allocations -/

/-- What the backing may answer. -/
def Fresh (arena : MemoryArena) (grant : Option Grant) : Prop :=
  ∀ given ∈ grant, given.mapping ∉ arena.mappings

theorem Sound.findSegment {backing : Backing} {grant : Option Grant} {length : ℕ}
    (sound : arena.Sound live none) (fresh : arena.Fresh grant) (fits : length ≤ arenaBytes)
    (found : arena.findSegment backing length grant = some (segment, after)) :
    (∃ hand, (hand = none ∨ hand = some segment) ∧ after.Sound live hand) ∧
      segment ∈ after.segments ∧ length ≤ arenaBytes - after.used segment := by
  rw [MemoryArena.findSegment] at found
  cases current : arena.current.filter
      fun segment => decide (length ≤ arenaBytes - arena.used segment) with
  | some there =>
      rw [current] at found
      obtain ⟨rfl, rfl⟩ := Prod.mk.inj (Option.some.inj found)
      obtain ⟨current, room⟩ := Option.filter_eq_some_iff.1 current
      exact ⟨⟨none, .inl rfl, sound⟩, sound.current there current, of_decide_eq_true room⟩
  | none =>
      rw [current] at found
      cases empty : arena.empty with
      | some idle =>
          simp only [empty] at found
          obtain ⟨rfl, rfl⟩ := Prod.mk.inj (Option.some.inj found)
          refine ⟨⟨none, .inl rfl, sound.reuse empty⟩, sound.empty idle empty, ?_⟩
          simp only [restart, Function.update_self]
          exact fits
      | none =>
          simp only [empty] at found
          cases allocated : arena.blockAllocateIn backing arena.pool (segmentBytes + arenaBytes)
              false grant with
          | none =>
              rw [allocated] at found
              cases found
          | some pair =>
              obtain ⟨address, mapped⟩ := pair
              rw [allocated] at found
              obtain ⟨rfl, rfl⟩ := Prod.mk.inj (Option.some.inj found)
              obtain ⟨granted, given, rfl, same⟩ := blockAllocateIn_granted allocated
              have unheld : address.mapping ∉ arena.mappings := by
                rw [same]
                exact fresh given rfl
              refine ⟨⟨some address.mapping, .inr rfl, sound.grantSegment granted unheld⟩,
                List.mem_cons_self, ?_⟩
              simp only [withSegment, Function.update_self]
              exact fits

/-- The bin of a size that fits is the first whose blocks are large enough. -/
theorem findBin_fits {left : ℕ} (bound : bin + left = arenaBins)
    (fits : size ≤ capacity (arenaBins - 1)) (positive : 0 < left) :
    findBin size left bin < arenaBins ∧ size ≤ capacity (findBin size left bin) := by
  induction left generalizing bin with
  | zero => cases positive
  | succ left induction =>
      rw [findBin]
      split_ifs with small
      · have more : 0 < left := by
          refine Nat.pos_of_ne_zero fun zero => ?_
          subst zero
          have last : bin = arenaBins - 1 := by omega
          rw [last] at small
          omega
        exact induction (by omega) more
      · exact ⟨by omega, Nat.le_of_not_lt small⟩

theorem capacity_le (binned : bin < arenaBins) : stride bin ≤ arenaBytes := by
  have power : (2 : ℕ) ^ bin ≤ 2 ^ 10 :=
    Nat.pow_le_pow_right (by decide) (by rw [arenaBins] at binned; omega)
  rw [stride, capacity, blockBytes, arenaBytes]
  omega

theorem Sound.allocate {backing : Backing} {grant : Option Grant}
    (sound : arena.Sound live none) (fresh : arena.Fresh grant)
    (allocated : arena.allocate backing size grant = some (block, after)) :
    after.Sound (block :: live) none := by
  rw [MemoryArena.allocate] at allocated
  split_ifs at allocated with large
  · obtain ⟨granted, given, rfl, same⟩ := blockAllocateIn_granted allocated
    refine sound.grant granted ?_
    rw [same]
    exact fresh given rfl
  · obtain ⟨binned, fits⟩ := findBin_fits (Nat.zero_add arenaBins)
      (Nat.le_of_not_lt large) (by decide)
    simp only at allocated
    cases first : arena.available (findBin size arenaBins 0) with
    | cons head rest =>
        rw [first] at allocated
        obtain ⟨rfl, rfl⟩ := Prod.mk.inj (Option.some.inj allocated)
        obtain ⟨popped, offered⟩ := sound.pop first
        have segment : (arena.headers head).segment = head.mapping := by
          refine (sound.available (findBin size arenaBins 0) head ?_).1.segment
          rw [first]
          exact List.mem_cons_self
        rw [segment]
        exact popped.makeLive offered (.inl rfl) fits
    | nil =>
        rw [first] at allocated
        simp only at allocated
        cases found : arena.findSegment backing (stride (findBin size arenaBins 0)) grant with
        | none =>
            rw [found] at allocated
            cases allocated
        | some pair =>
            obtain ⟨segment, there⟩ := pair
            rw [found] at allocated
            obtain ⟨rfl, rfl⟩ := Prod.mk.inj (Option.some.inj allocated)
            obtain ⟨⟨hand, known, sound⟩, listed, room⟩ :=
              sound.findSegment fresh (capacity_le binned) found
            obtain ⟨cut, offered⟩ := sound.cut listed binned room
            exact cut.makeLive offered known fits

/-! ## Frees -/

theorem putAvailable_headers (arena : MemoryArena) (block : BlockAddress) {other : BlockAddress}
    (apart : other ≠ block) :
    (arena.putAvailable block).headers other = arena.headers other :=
  Function.update_of_ne apart ..

theorem putAvailable_header (arena : MemoryArena) (block : BlockAddress) :
    (arena.putAvailable block).headers block = { arena.headers block with magic := false } :=
  Function.update_self ..

theorem liveCount_erase (arena : MemoryArena) (member : block ∈ live) (test : ℕ → Bool) :
    arena.liveCount live test = arena.liveCount (live.erase block) test +
      if (arena.headers block).arena && test block.mapping then 1 else 0 := by
  rw [liveCount, (List.perm_cons_erase member).countP_eq, List.countP_cons]
  rfl

/-- A block of the arena becomes available; its segment may be idle. -/
theorem Sound.putAvailable (sound : arena.Sound live none) (member : block ∈ live)
    (own : (arena.headers block).arena = true) :
    (arena.putAvailable block).Sound (live.erase block) (some block.mapping) := by
  have placed := (sound.held block member).placed own |>.1
  set put := arena.putAvailable block with put_def
  have header := putAvailable_header arena block
  have arenas (other : BlockAddress) :
      (put.headers other).arena = (arena.headers other).arena := by
    obtain rfl | apart := eq_or_ne other block
    · rw [header]
    · rw [putAvailable_headers arena block apart]
  have bins (other : BlockAddress) : (put.headers other).bin = (arena.headers other).bin := by
    obtain rfl | apart := eq_or_ne other block
    · rw [header]
    · rw [putAvailable_headers arena block apart]
  have places {other : BlockAddress} (placed : arena.Placed other) : put.Placed other := by
    obtain rfl | apart := eq_or_ne other block
    · exact ⟨by rw [header]; exact placed.own, by rw [header]; exact placed.segment,
        by rw [header]; exact placed.binned, placed.listed, placed.start,
        by rw [header]; exact placed.inside⟩
    · exact placed.congr (putAvailable_headers arena block apart) id le_rfl
  have owned_back {other : BlockAddress} (owned : put.Owned (live.erase block) other) :
      arena.Owned live other := by
    obtain live | ⟨bin, available⟩ := owned
    · exact .inl (List.mem_of_mem_erase live)
    · change other ∈ Function.update arena.available (arena.headers block).bin _ bin at available
      obtain rfl | apart := eq_or_ne bin (arena.headers block).bin
      · rw [Function.update_self] at available
        obtain rfl | available := List.mem_cons.1 available
        · exact .inl member
        · exact .inr ⟨_, available⟩
      · rw [Function.update_of_ne apart] at available
        exact .inr ⟨bin, available⟩
  have count (test : ℕ → Bool) : arena.liveCount live test =
      put.liveCount (live.erase block) test + if test block.mapping then 1 else 0 := by
    rw [liveCount_erase arena member, own, Bool.true_and]
    congr 1
    exact (liveCount_congr fun other _ => arenas other).symm
  exact
    { sound with
      idle := fun segment listed free => by
        have apart : segment ≠ block.mapping := fun same => free (by rw [same])
        change Function.update arena.segmentLive (arena.headers block).segment _ segment = 0 ↔ _
        rw [placed.segment, Function.update_of_ne apart]
        exact sound.idle segment listed (by simp)
      backed := fun segment listed => by
        rw [putAvailable_headers arena block (placed.ne_segment segment).symm]
        exact sound.backed segment listed
      owners := fun mapping held => by
        obtain listed | ⟨other, live, same, alone⟩ := sound.owners mapping held
        · exact .inl listed
        · have apart : other ≠ block := by
            rintro rfl
            exact absurd (own.symm.trans alone) (by decide)
          exact .inr ⟨other, (List.mem_erase_of_ne apart).2 live, same, by rwa [arenas]⟩
      nodup := sound.nodup.erase block
      held := fun other live => by
        have apart : other ≠ block := by
          rintro rfl
          exact sound.nodup.not_mem_erase live
        have held := sound.held other (List.mem_of_mem_erase live)
        have same := putAvailable_headers arena block apart
        refine ⟨by rw [same]; exact held.magic, fun own => ?_, fun alone => ?_⟩
        · rw [same] at own ⊢
          exact ⟨places (held.placed own).1, (held.placed own).2⟩
        · rw [same] at alone
          exact held.alone alone
      distinct := fun bin => by
        change (Function.update arena.available (arena.headers block).bin _ bin).Nodup
        obtain rfl | apart := eq_or_ne bin (arena.headers block).bin
        · rw [Function.update_self]
          exact List.nodup_cons.2 ⟨fun available =>
            (sound.available _ block available).2.2 member, sound.distinct _⟩
        · rw [Function.update_of_ne apart]
          exact sound.distinct bin
      available := fun bin other available => by
        change other ∈ Function.update arena.available (arena.headers block).bin _ bin at available
        rw [bins]
        obtain rfl | apart := eq_or_ne bin (arena.headers block).bin
        · rw [Function.update_self] at available
          obtain rfl | available := List.mem_cons.1 available
          · exact ⟨places placed, rfl, sound.nodup.not_mem_erase⟩
          · obtain ⟨place, in_bin, dead⟩ := sound.available _ other available
            exact ⟨places place, in_bin, fun live => dead (List.mem_of_mem_erase live)⟩
        · rw [Function.update_of_ne apart] at available
          obtain ⟨place, in_bin, dead⟩ := sound.available _ other available
          exact ⟨places place, in_bin, fun live => dead (List.mem_of_mem_erase live)⟩
      apart := fun first second first_owned second_owned first_placed second_placed unequal => by
        intro same
        rw [bins, bins]
        have first_old := owned_back first_owned
        have second_old := owned_back second_owned
        exact sound.apart first second first_old second_old
          (sound.owned_placed first_old first_placed.listed)
          (sound.owned_placed second_old second_placed.listed) unequal same
      liveBlocks := by
        change arena.liveBlocks - 1 = _
        rw [sound.liveBlocks, count]
        rfl
      segmentLive := fun segment listed => by
        change Function.update arena.segmentLive (arena.headers block).segment _ segment = _
        rw [placed.segment]
        obtain rfl | apart := eq_or_ne segment block.mapping
        · rw [Function.update_self, sound.segmentLive _ listed, count]
          simp
        · rw [Function.update_of_ne apart, sound.segmentLive _ listed, count]
          simp [apart.symm] }

/-- The segment in the hand is settled. -/
theorem Sound.settle (sound : arena.Sound live (some segment))
    (idle : arena.segmentLive segment = 0 ↔ arena.empty = some segment) : arena.Sound live none :=
  { sound with
    idle := fun other listed _ => by
      obtain rfl | apart := eq_or_ne other segment
      · exact idle
      · exact sound.idle other listed fun same => apart (Option.some.inj same).symm }

/-- The first idle segment is kept. -/
theorem Sound.keep (sound : arena.Sound live (some segment)) (listed : segment ∈ arena.segments)
    (idle : arena.segmentLive segment = 0) (empty : arena.empty = none) :
    ({ arena with empty := some segment } : MemoryArena).Sound live none :=
  { sound with
    empty := fun other found => Option.some.inj found ▸ listed
    idle := fun other member _ => by
      change arena.segmentLive other = 0 ↔ some segment = some other
      obtain rfl | apart := eq_or_ne other segment
      · exact ⟨fun _ => rfl, fun _ => idle⟩
      · rw [sound.idle other member fun same => apart (Option.some.inj same).symm, empty]
        exact ⟨fun found => by (cases found), fun same => absurd (Option.some.inj same).symm apart⟩
    held := fun block member =>
      { magic := (sound.held block member).magic
        placed := fun own => ⟨((sound.held block member).placed own).1.congr rfl id le_rfl,
          ((sound.held block member).placed own).2⟩
        alone := (sound.held block member).alone }
    available := fun bin block member =>
      ⟨(sound.available bin block member).1.congr rfl id le_rfl,
        (sound.available bin block member).2⟩
    apart := fun first second first_owned second_owned first_placed second_placed =>
      sound.apart first second first_owned second_owned (first_placed.congr rfl id le_rfl)
        (second_placed.congr rfl id le_rfl) }

/-- A block of no arena goes past the test of the arena. -/
theorem blockFree_alone (alone : (arena.headers block).arena = false) :
    arena.blockFree block = arena.freeMapping block := by
  rw [MemoryArena.blockFree, MemoryArena.freeMapping, alone]
  split <;> rfl

theorem Sound.freeMapping (sound : arena.Sound live none) (member : block ∈ live)
    (alone : (arena.headers block).arena = false) :
    ∃ after, arena.freeMapping block = .ok after ∧ after.Sound (live.erase block) none := by
  have held := sound.held block member
  obtain ⟨offset, mapping, unlisted⟩ := held.alone alone
  set after := { arena.setHeader block { arena.headers block with magic := false } with
    mappings := arena.mappings.erase block.mapping } with after_def
  have headers {other : BlockAddress} (apart : other ≠ block) :
      after.headers other = arena.headers other := Function.update_of_ne apart ..
  have different {other : BlockAddress} (owned : after.Owned (live.erase block) other) :
      other ≠ block := by
    rintro rfl
    obtain live | ⟨bin, available⟩ := owned
    · exact sound.nodup.not_mem_erase live
    · exact (sound.available bin other available).2.2 member
  have old {other : BlockAddress} (owned : after.Owned (live.erase block) other) :
      arena.Owned live other := owned.imp List.mem_of_mem_erase id
  have placed {other : BlockAddress} (apart : other ≠ block) (placed : arena.Placed other) :
      after.Placed other := placed.congr (headers apart) id le_rfl
  have count (test : ℕ → Bool) :
      after.liveCount (live.erase block) test = arena.liveCount live test := by
    rw [liveCount_erase arena member, alone]
    exact liveCount_congr fun other live => by rw [headers (different (.inl live))]
  -- Another live block of the same mapping would be the same block.
  have sole {other : BlockAddress} (live : other ∈ live) (own : (arena.headers other).arena = false)
      (same : other.mapping = block.mapping) : other = block := by
    obtain ⟨other_offset, -⟩ := (sound.held other live).alone own
    cases other
    cases block
    simp only at same offset other_offset
    rw [same, offset, other_offset]
  refine ⟨after, ?_, ?_⟩
  · rw [MemoryArena.freeMapping, held.magic]
    rfl
  · exact
      { sound with
        backed := fun segment listed => by
          have apart : (⟨segment, 0⟩ : BlockAddress) ≠ block := by
            rintro rfl
            exact unlisted listed
          rw [headers apart]
          have backed := sound.backed segment listed
          refine ⟨(List.mem_erase_of_ne ?_).2 backed.1, backed.2⟩
          rintro rfl
          exact unlisted listed
        once := sound.once.erase _
        owners := fun mapping member' => by
          have unequal : mapping ≠ block.mapping := by
            rintro rfl
            exact sound.once.not_mem_erase member'
          obtain listed | ⟨other, live, same, own⟩ :=
            sound.owners mapping (List.mem_of_mem_erase member')
          · exact .inl listed
          · have apart : other ≠ block := fun equal => unequal (by rw [← same, equal])
            exact .inr ⟨other, (List.mem_erase_of_ne apart).2 live, same, by rwa [headers apart]⟩
        nodup := sound.nodup.erase block
        held := fun other live => by
          have apart := different (.inl live)
          have held := sound.held other (List.mem_of_mem_erase live)
          refine ⟨by rw [headers apart]; exact held.magic, fun own => ?_, fun own => ?_⟩
          · rw [headers apart] at own ⊢
            exact ⟨placed apart (held.placed own).1, (held.placed own).2⟩
          · rw [headers apart] at own
            obtain ⟨other_offset, other_mapping, other_unlisted⟩ := held.alone own
            refine ⟨other_offset, (List.mem_erase_of_ne fun same => ?_).2 other_mapping,
              other_unlisted⟩
            exact apart (sole (List.mem_of_mem_erase live) own same)
        available := fun bin other available => by
          have apart := different (.inr ⟨bin, available⟩)
          obtain ⟨place, in_bin, dead⟩ := sound.available bin other available
          exact ⟨placed apart place, by rwa [headers apart],
            fun live => dead (List.mem_of_mem_erase live)⟩
        apart := fun first second first_owned second_owned first_placed second_placed unequal => by
          intro same
          rw [headers (different first_owned), headers (different second_owned)]
          exact sound.apart first second (old first_owned) (old second_owned)
            (sound.owned_placed (old first_owned) first_placed.listed)
            (sound.owned_placed (old second_owned) second_placed.listed) unequal same
        liveBlocks := by
          rw [count]
          exact sound.liveBlocks
        segmentLive := fun segment listed => by
          rw [count]
          exact sound.segmentLive segment listed }

/-- A second idle segment is given back. -/
theorem Sound.detach (sound : arena.Sound live (some segment)) (listed : segment ∈ arena.segments)
    (idle : arena.segmentLive segment = 0) (spare : arena.empty ≠ none)
    (other_spare : arena.empty ≠ some segment) :
    ∃ detached after, arena.detach segment = .ok detached ∧
      detached.blockFree ⟨segment, 0⟩ = .ok after ∧ after.Sound live none := by
  obtain ⟨unlinked, gone⟩ := sound.unlinkFree segment
  obtain ⟨kept, empty⟩ := Option.ne_none_iff_exists'.1 spare
  have kept_ne : kept ≠ segment := fun same => other_spare (same ▸ empty)
  set detached : MemoryArena := { arena.unlinkFree segment with
    segments := arena.segments.erase segment
    current := if arena.current = some segment then arena.empty else arena.current
    segmentCount := arena.segmentCount - 1 } with detached_def
  set after : MemoryArena :=
    { detached.setHeader ⟨segment, 0⟩ { arena.headers ⟨segment, 0⟩ with magic := false } with
      mappings := arena.mappings.erase segment } with after_def
  have headers {other : BlockAddress} (apart : other ≠ ⟨segment, 0⟩) :
      after.headers other = arena.headers other := Function.update_of_ne apart ..
  have remains {other : ℕ} (apart : other ≠ segment) (member : other ∈ arena.segments) :
      other ∈ after.segments := (List.mem_erase_of_ne apart).2 member
  have away {block : BlockAddress} (owned : after.Owned live block) : block.mapping ≠ segment := by
    obtain member | ⟨bin, available⟩ := owned
    · exact sound.not_live listed idle member
    · exact gone bin block available
  have different {block : BlockAddress} (owned : after.Owned live block) :
      block ≠ ⟨segment, 0⟩ := by
    rintro rfl
    exact away owned rfl
  have placed {block : BlockAddress} (owned : after.Owned live block)
      (placed : (arena.unlinkFree segment).Placed block) : after.Placed block :=
    placed.congr (headers (different owned)) (remains (away owned)) le_rfl
  have count (test : ℕ → Bool) : after.liveCount live test = arena.liveCount live test :=
    liveCount_congr fun block member => by rw [headers (different (.inl member))]
  refine ⟨detached, after, ?_, ?_, ?_⟩
  · rw [MemoryArena.detach]
    exact if_neg (not_not.2 listed)
  · have magic : (detached.headers ⟨segment, 0⟩).magic = true := (sound.backed segment listed).2.1
    have alone : (detached.headers ⟨segment, 0⟩).arena = false := (sound.backed segment listed).2.2
    rw [blockFree_alone alone, MemoryArena.freeMapping, magic]
    rfl
  · exact
      { segments := unlinked.segments.erase segment
        count := by
          change arena.segmentCount - 1 = (arena.segments.erase segment).length
          rw [sound.count, List.length_erase_of_mem listed]
        current := fun other found => by
          change (if arena.current = some segment then arena.empty else arena.current) = _ at found
          split_ifs at found with same
          · refine remains ?_ (sound.empty other found)
            exact fun equal => other_spare (equal ▸ found)
          · exact remains (fun equal => same (equal ▸ found)) (sound.current other found)
        empty := fun other found => remains (fun equal => other_spare (equal ▸ found))
          (sound.empty other found)
        idle := fun other member _ => by
          have apart : other ≠ segment := fun same =>
            sound.segments.not_mem_erase (same ▸ member)
          exact sound.idle other (List.mem_of_mem_erase member)
            fun same => apart (Option.some.inj same).symm
        used := fun other member => sound.used other (List.mem_of_mem_erase member)
        backed := fun other member => by
          have apart : other ≠ segment := fun same =>
            sound.segments.not_mem_erase (same ▸ member)
          have backed := sound.backed other (List.mem_of_mem_erase member)
          refine ⟨(List.mem_erase_of_ne apart).2 backed.1, ?_⟩
          rw [headers fun same => apart (BlockAddress.mk.inj same).1]
          exact backed.2
        once := sound.once.erase segment
        owners := fun mapping member => by
          have apart : mapping ≠ segment := by
            rintro rfl
            exact sound.once.not_mem_erase member
          obtain listed | ⟨other, live, same, own⟩ :=
            sound.owners mapping (List.mem_of_mem_erase member)
          · exact .inl (remains apart listed)
          · exact .inr ⟨other, live, same, by rwa [headers (different (.inl live))]⟩
        nodup := sound.nodup
        held := fun block member => by
          have same := headers (different (.inl member))
          have held := unlinked.held block member
          refine ⟨by rw [same]; exact held.magic, fun own => ?_, fun own => ?_⟩
          · rw [same] at own ⊢
            exact ⟨placed (.inl member) (held.placed own).1, (held.placed own).2⟩
          · rw [same] at own
            obtain ⟨offset, mapping, unlisted⟩ := held.alone own
            exact ⟨offset, (List.mem_erase_of_ne (away (.inl member))).2 mapping,
              fun listed => unlisted (List.mem_of_mem_erase listed)⟩
        distinct := unlinked.distinct
        available := fun bin block member => by
          have owned : after.Owned live block := .inr ⟨bin, member⟩
          obtain ⟨place, in_bin, dead⟩ := unlinked.available bin block member
          exact ⟨placed owned place, by rw [headers (different owned)]; exact in_bin, dead⟩
        apart := fun first second first_owned second_owned first_placed second_placed unequal => by
          intro same
          rw [headers (different first_owned), headers (different second_owned)]
          exact unlinked.apart first second first_owned second_owned
            (unlinked.owned_placed first_owned (List.mem_of_mem_erase first_placed.listed))
            (unlinked.owned_placed second_owned (List.mem_of_mem_erase second_placed.listed))
            unequal same
        liveBlocks := by
          rw [count]
          exact sound.liveBlocks
        segmentLive := fun other member => by
          rw [count]
          exact sound.segmentLive other (List.mem_of_mem_erase member) }

theorem Sound.blockFree (sound : arena.Sound live none) (member : block ∈ live) :
    ∃ after, arena.blockFree block = .ok after ∧ after.Sound (live.erase block) none := by
  have held := sound.held block member
  rw [MemoryArena.blockFree]
  simp only [held.magic, Bool.not_true, Bool.false_eq_true, if_false]
  cases own : (arena.headers block).arena with
  | false => exact sound.freeMapping member own
  | true =>
      have placed := (held.placed own).1
      have counted (test : ℕ → Bool) (passes : test block.mapping = true) :
          arena.liveCount live test ≠ 0 := by
        rw [liveCount_erase arena member, own, passes]
        exact Nat.succ_ne_zero _
      have lively : arena.liveBlocks ≠ 0 := by
        rw [sound.liveBlocks]
        exact counted _ rfl
      have busy : arena.segmentLive block.mapping ≠ 0 := by
        rw [sound.segmentLive _ placed.listed]
        exact counted _ (decide_eq_true rfl)
      have not_spare : arena.empty ≠ some block.mapping := fun empty =>
        busy ((sound.idle _ placed.listed (by simp)).2 empty)
      have put := sound.putAvailable member own
      have fine : ¬(arenaBins ≤ (arena.headers block).bin ∨ arena.liveBlocks = 0 ∨
          arena.segmentLive block.mapping = 0) :=
        not_or.2 ⟨Nat.not_le.2 placed.binned, not_or.2 ⟨lively, busy⟩⟩
      simp only [if_true, placed.segment, fine, dite_false]
      split_ifs with live_left empty
      · exact ⟨_, rfl, put.settle ⟨fun idle => absurd idle live_left,
          fun same => absurd same not_spare⟩⟩
      · exact ⟨_, rfl, put.keep placed.listed (not_not.1 live_left) empty⟩
      · obtain ⟨detached, after, detaches, frees, sound⟩ :=
          put.detach placed.listed (not_not.1 live_left) empty not_spare
        refine ⟨after, ?_, sound⟩
        split
        · rename_i abort fails
          rw [placed.segment] at fails
          cases detaches.symm.trans fails
        · rename_i other same
          rw [placed.segment] at same
          rwa [← Except.ok.inj (detaches.symm.trans same)]

end MemoryArena
end Postgamma.Runtime
