import Mathlib
import Postgamma.Library.Program
import Postgamma.Runtime.MemoryPool

/-!
# Private memory blocks

`memory_block_runtime.h` on a 64-bit platform: blocks with a header in front of their payload, which
lie in a backing mapping of their own or in a segment of the arena of a session.  A block is named
by the mapping that it lies in and the offset of its header there.  The backing (the pool, `mmap`
or `malloc`) hands out mappings that nobody holds.
-/

namespace Postgamma.Runtime

/-- `sizeof(PostgammaMemorySegment)`. -/
def segmentBytes : ℕ := 32

/-- `POSTGAMMA_MEMORY_ARENA_BYTES`. -/
def arenaBytes : ℕ := 4 * 1024 * 1024

/-- `POSTGAMMA_MEMORY_ARENA_BINS`. -/
def arenaBins : ℕ := 11

/-- Where the data of a segment begin in its mapping. -/
def dataStart : ℕ := blockBytes + segmentBytes

/-- `memcpy`: the memory behind a copy of bytes of another one. -/
def copyBytes (memory : ℕ → UInt8) (place : ℕ) (source : ℕ → UInt8) (start size : ℕ) : ℕ → UInt8 :=
  fun address =>
    if place ≤ address ∧ address < place + size then source (start + (address - place))
    else memory address

theorem copyBytes_inside {memory source : ℕ → UInt8} {place start size offset : ℕ}
    (inside : offset < size) :
    copyBytes memory place source start size (place + offset) = source (start + offset) := by
  rw [copyBytes, if_pos ⟨by omega, by omega⟩, Nat.add_sub_cancel_left]

theorem copyBytes_outside {memory source : ℕ → UInt8} {place start size address : ℕ}
    (outside : address < place ∨ place + size ≤ address) :
    copyBytes memory place source start size address = memory address :=
  if_neg (by omega)

/-- The place of a block. -/
structure BlockAddress where
  mapping : ℕ
  offset : ℕ
  deriving DecidableEq

/-- The place of the payload in the mapping. -/
def BlockAddress.payload (address : BlockAddress) : ℕ := address.offset + blockBytes

/-- `PostgammaMemoryBlock`; the list of a bin stands for the `next` pointers. -/
structure BlockHeader where
  magic : Bool
  size : ℕ
  mappedSize : ℕ
  pool : Bool
  arena : Bool
  segment : ℕ
  bin : ℕ
  deriving DecidableEq

/-- The `abort()` calls. -/
inductive BlockAbort
  | magic
  | counts
  | detach
  deriving DecidableEq

/-- `PostgammaMemoryArena` with the memory that it works on.  A segment is named by its mapping;
`used` and `segmentLive` are its fields.  `mappings` are the backing mappings that are held. -/
structure MemoryArena where
  pool : Bool
  segments : List ℕ
  current : Option ℕ
  empty : Option ℕ
  segmentCount : ℕ
  liveBlocks : ℕ
  available : ℕ → List BlockAddress
  used : ℕ → ℕ
  segmentLive : ℕ → ℕ
  headers : BlockAddress → BlockHeader
  memory : ℕ → ℕ → UInt8
  mappings : List ℕ

/-- What `sysconf(_SC_PAGESIZE)` returns, where blocks are mapped. -/
structure Backing where
  page : Option ℕ
  positive : ∀ size, page = some size → 0 < size

/-- A mapping that the backing hands out, with what lies in it. -/
structure Grant where
  mapping : ℕ
  contents : ℕ → UInt8

/-- The mapped size of a block, which is zero where blocks are not mapped; no size is `ENOMEM`. -/
def Backing.mappedSize (backing : Backing) (size : ℕ) : Option ℕ :=
  match backing.page with
  | none => if sizeMax - blockBytes < size then none else some 0
  | some page => Runtime.mappedSize page size

namespace MemoryArena

def setHeader (arena : MemoryArena) (address : BlockAddress) (header : BlockHeader) :
    MemoryArena :=
  { arena with headers := Function.update arena.headers address header }

/-- `postgamma_memory_block_allocate_in`. -/
def blockAllocateIn (arena : MemoryArena) (backing : Backing) (pool : Bool) (size : ℕ)
    (zero : Bool) (grant : Option Grant) : Option (BlockAddress × MemoryArena) :=
  match backing.mappedSize size with
  | none => none
  | some mapped =>
      grant.map fun grant =>
        let address : BlockAddress := ⟨grant.mapping, 0⟩
        (address,
          { arena.setHeader address
              { arena.headers address with
                magic := true, size, mappedSize := mapped, pool := pool && mapped ≠ 0
                arena := false } with
            memory := Function.update arena.memory grant.mapping fun place =>
              if zero ∧ blockBytes ≤ place ∧ place < blockBytes + size then 0
              else grant.contents place
            mappings := grant.mapping :: arena.mappings })

/-- `postgamma_memory_arena_unlink_free`. -/
def unlinkFree (arena : MemoryArena) (segment : ℕ) : MemoryArena :=
  { arena with
    available := fun bin =>
      if bin < arenaBins then
        (arena.available bin).filter fun block => (arena.headers block).segment ≠ segment
      else arena.available bin }

/-- `postgamma_memory_arena_detach`. -/
def detach (arena : MemoryArena) (segment : ℕ) : Except BlockAbort MemoryArena :=
  let unlinked := arena.unlinkFree segment
  if segment ∉ unlinked.segments then .error .detach
  else
    .ok { unlinked with
      segments := unlinked.segments.erase segment
      current := if unlinked.current = some segment then unlinked.empty else unlinked.current
      segmentCount := unlinked.segmentCount - 1 }

/-- The part of `postgamma_memory_block_free` for a block of no arena. -/
def freeMapping (arena : MemoryArena) (address : BlockAddress) : Except BlockAbort MemoryArena :=
  if !(arena.headers address).magic then .error .magic
  else
    .ok { arena.setHeader address { arena.headers address with magic := false } with
      mappings := arena.mappings.erase address.mapping }

/-- The block of an arena becomes available in its bin. -/
def putAvailable (arena : MemoryArena) (address : BlockAddress) : MemoryArena :=
  let header := arena.headers address
  { arena.setHeader address { header with magic := false } with
    available := Function.update arena.available header.bin
      (address :: arena.available header.bin)
    liveBlocks := arena.liveBlocks - 1
    segmentLive := Function.update arena.segmentLive header.segment
      (arena.segmentLive header.segment - 1) }

/-- The loop over the list of segments and the bins leaves the number of live blocks alone. -/
theorem detach_liveBlocks {arena detached : MemoryArena} {segment : ℕ}
    (detaches : arena.detach segment = .ok detached) : detached.liveBlocks = arena.liveBlocks := by
  rw [detach] at detaches
  split at detaches
  · cases detaches
  · obtain rfl := Except.ok.inj detaches
    rfl

/-- `postgamma_memory_block_free`, which calls itself for the block of a segment that is given back.
A block of an arena counts as live, so that every further call has a live block less. -/
def blockFree (arena : MemoryArena) (address : BlockAddress) : Except BlockAbort MemoryArena :=
  let header := arena.headers address
  if !header.magic then .error .magic
  else if header.arena then
    if _ : arenaBins ≤ header.bin ∨ arena.liveBlocks = 0 ∨
        arena.segmentLive header.segment = 0 then .error .counts
    else
      let freed := arena.putAvailable address
      if freed.segmentLive header.segment ≠ 0 then .ok freed
      else if freed.empty = none then .ok { freed with empty := some header.segment }
      else
        match _ : freed.detach header.segment with
        | .error abort => .error abort
        | .ok detached => detached.blockFree ⟨header.segment, 0⟩
  else arena.freeMapping address
termination_by arena.liveBlocks
decreasing_by
  have fewer : detached.liveBlocks = arena.liveBlocks - 1 := detach_liveBlocks ‹_›
  omega

/-- `(size_t) 256 << bin`. -/
def capacity (bin : ℕ) : ℕ := 256 * 2 ^ bin

/-- The size class with the header. -/
def stride (bin : ℕ) : ℕ := capacity bin + blockBytes

/-- The loop that finds the bin of a size; `left` bounds the steps. -/
def findBin (size : ℕ) : ℕ → ℕ → ℕ
  | 0, bin => bin
  | left + 1, bin => if capacity bin < size then findBin size left (bin + 1) else bin

/-- The idle segment is used from its start. -/
def restart (arena : MemoryArena) (segment : ℕ) : MemoryArena :=
  { arena.unlinkFree segment with
    used := Function.update arena.used segment 0
    current := some segment }

/-- A new segment on the list. -/
def withSegment (arena : MemoryArena) (segment : ℕ) : MemoryArena :=
  { arena with
    segments := segment :: arena.segments
    used := Function.update arena.used segment 0
    segmentLive := Function.update arena.segmentLive segment 0
    current := some segment
    segmentCount := arena.segmentCount + 1 }

/-- The segment to cut a block of some stride from. -/
def findSegment (arena : MemoryArena) (backing : Backing) (stride : ℕ) (grant : Option Grant) :
    Option (ℕ × MemoryArena) :=
  match arena.current.filter fun segment => stride ≤ arenaBytes - arena.used segment with
  | some segment => some (segment, arena)
  | none =>
      match arena.empty with
      | some segment => some (segment, arena.restart segment)
      | none =>
          match arena.blockAllocateIn backing arena.pool (segmentBytes + arenaBytes) false
            grant with
          | none => none
          | some (address, granted) =>
              some (address.mapping, granted.withSegment address.mapping)

/-- The end of `postgamma_memory_arena_allocate`: the block becomes a live one. -/
def makeLive (arena : MemoryArena) (address : BlockAddress) (segment bin size : ℕ) :
    MemoryArena :=
  { arena.setHeader address
      { magic := true, size, mappedSize := 0, pool := arena.pool, arena := true, segment, bin } with
    liveBlocks := arena.liveBlocks + 1
    segmentLive := Function.update arena.segmentLive segment (arena.segmentLive segment + 1)
    empty := if arena.empty = some segment then none else arena.empty }

/-- `postgamma_memory_arena_allocate` on the arena of a session. -/
def allocate (arena : MemoryArena) (backing : Backing) (size : ℕ) (grant : Option Grant) :
    Option (BlockAddress × MemoryArena) :=
  if capacity (arenaBins - 1) < size then arena.blockAllocateIn backing arena.pool size false grant
  else
    let bin := findBin size arenaBins 0
    match arena.available bin with
    | block :: rest =>
        let taken := { arena with available := Function.update arena.available bin rest }
        some (block, taken.makeLive block (arena.headers block).segment bin size)
    | [] =>
        match arena.findSegment backing (stride bin) grant with
        | none => none
        | some (segment, found) =>
            let block : BlockAddress := ⟨segment, dataStart + found.used segment⟩
            let cut := { found with
              used := Function.update found.used segment (found.used segment + stride bin) }
            some (block, cut.makeLive block segment bin size)

/-- `memcpy` from one payload to another. -/
def copyPayload (arena : MemoryArena) (target source : BlockAddress) (size : ℕ) : MemoryArena :=
  { arena with
    memory := Function.update arena.memory target.mapping
      (copyBytes (arena.memory target.mapping) target.payload (arena.memory source.mapping)
        source.payload size) }

/-- `postgamma_memory_block_realloc` on a pointer that is not null, to a positive size: the block
that it returns, and the arena behind it. -/
def blockRealloc (arena : MemoryArena) (backing : Backing) (pointer : BlockAddress) (size : ℕ)
    (grant : Option Grant) : Except BlockAbort (Option BlockAddress × MemoryArena) :=
  let header := arena.headers pointer
  if !header.magic then .error .magic
  else
    let replaced :=
      if header.arena then arena.allocate backing size grant
      else arena.blockAllocateIn backing header.pool size false grant
    match replaced with
    | none => .ok (none, arena)
    | some (replacement, allocated) =>
        match (allocated.copyPayload replacement pointer (min header.size size)).blockFree
            pointer with
        | .error abort => .error abort
        | .ok freed => .ok (some replacement, freed)

/-- `postgamma_memory_arena_destroy`: the loop over the segments. -/
def destroySegments (arena : MemoryArena) : List ℕ → Except BlockAbort MemoryArena
  | [] =>
      .ok { arena with
        pool := false, segments := [], current := none, empty := none, segmentCount := 0
        liveBlocks := 0, available := fun _ => [] }
  | segment :: rest =>
      match arena.blockFree ⟨segment, 0⟩ with
      | .error abort => .error abort
      | .ok freed => freed.destroySegments rest

/-- `postgamma_memory_arena_destroy`. -/
def destroy (arena : MemoryArena) : Except BlockAbort MemoryArena :=
  arena.destroySegments arena.segments

end MemoryArena

/-- A call, with what the backing answers if it is asked. -/
inductive ArenaCall
  /-- `postgamma_context_block_malloc`. -/
  | allocate (size : ℕ) (grant : Option Grant)
  /-- `postgamma_memory_block_malloc`. -/
  | malloc (size : ℕ) (grant : Option Grant)
  /-- `postgamma_memory_block_calloc`. -/
  | calloc (count size : ℕ) (grant : Option Grant)
  /-- `postgamma_memory_block_free`. -/
  | free (pointer : Option BlockAddress)
  /-- `postgamma_context_block_realloc`. -/
  | contextRealloc (pointer : Option BlockAddress) (size : ℕ) (grant : Option Grant)
  /-- `postgamma_memory_block_realloc`. -/
  | realloc (pointer : Option BlockAddress) (size : ℕ) (grant : Option Grant)
  /-- The holder of a block writes one byte of its payload. -/
  | write (pointer : BlockAddress) (place : ℕ) (byte : UInt8)
  /-- `postgamma_memory_arena_destroy`. -/
  | destroy

/-- An arena with the blocks that its users hold and the last pointer that was returned. -/
structure ArenaSystem where
  arena : MemoryArena
  live : List BlockAddress
  answer : Option BlockAddress

namespace ArenaSystem

/-- A new arena, with or without a pool. -/
def init (pool : Bool) (headers : BlockAddress → BlockHeader) (memory : ℕ → ℕ → UInt8) :
    ArenaSystem :=
  { arena :=
      { pool, segments := [], current := none, empty := none, segmentCount := 0, liveBlocks := 0
        available := fun _ => [], used := fun _ => 0, segmentLive := fun _ => 0
        headers, memory, mappings := [] }
    live := []
    answer := none }

/-- A block that was allocated, or the null pointer. -/
def allocated (system : ArenaSystem) :
    Option (BlockAddress × MemoryArena) → ArenaSystem
  | none => { system with answer := none }
  | some (address, arena) => { arena, live := address :: system.live, answer := some address }

def freed (system : ArenaSystem) (pointer : BlockAddress) : Except BlockAbort ArenaSystem :=
  match system.arena.blockFree pointer with
  | .error abort => .error abort
  | .ok arena => .ok { arena, live := system.live.erase pointer, answer := none }

def reallocated (backing : Backing) (system : ArenaSystem) (pointer : BlockAddress) (size : ℕ)
    (grant : Option Grant) : Except BlockAbort ArenaSystem :=
  if size = 0 then system.freed pointer
  else
    match system.arena.blockRealloc backing pointer size grant with
    | .error abort => .error abort
    | .ok (none, arena) => .ok { arena, live := system.live, answer := none }
    | .ok (some replacement, arena) =>
        .ok
          { arena
            live := replacement :: system.live.erase pointer
            answer := some replacement }

/-- The product of `postgamma_memory_block_calloc`, unless it wraps. -/
def callocated (backing : Backing) (system : ArenaSystem) (count size : ℕ)
    (grant : Option Grant) : ArenaSystem :=
  if size ≠ 0 ∧ sizeMax / size < count then { system with answer := none }
  else system.allocated (system.arena.blockAllocateIn backing false (count * size) true grant)

/-- The calls that the users may make: on blocks that they hold, and with grants that nobody
holds. -/
def Allowed (system : ArenaSystem) : ArenaCall → Prop
  | .allocate _ grant => ∀ given ∈ grant, given.mapping ∉ system.arena.mappings
  | .malloc _ grant => ∀ given ∈ grant, given.mapping ∉ system.arena.mappings
  | .calloc _ _ grant => ∀ given ∈ grant, given.mapping ∉ system.arena.mappings
  | .free pointer => ∀ block ∈ pointer, block ∈ system.live
  | .contextRealloc pointer _ grant => (∀ block ∈ pointer, block ∈ system.live) ∧
      ∀ given ∈ grant, given.mapping ∉ system.arena.mappings
  | .realloc pointer _ grant => (∀ block ∈ pointer, block ∈ system.live) ∧
      ∀ given ∈ grant, given.mapping ∉ system.arena.mappings
  | .write pointer place _ =>
      pointer ∈ system.live ∧ place < (system.arena.headers pointer).size
  | .destroy => True

/-- What a call does. -/
def step (backing : Backing) (system : ArenaSystem) : ArenaCall → Except BlockAbort ArenaSystem
  | .allocate size grant => .ok (system.allocated (system.arena.allocate backing size grant))
  | .malloc size grant =>
      .ok (system.allocated (system.arena.blockAllocateIn backing false size false grant))
  | .calloc count size grant => .ok (system.callocated backing count size grant)
  | .free none => .ok { system with answer := none }
  | .free (some pointer) => system.freed pointer
  | .contextRealloc none size grant =>
      .ok (system.allocated (system.arena.allocate backing size grant))
  | .contextRealloc (some pointer) size grant => system.reallocated backing pointer size grant
  | .realloc none size grant =>
      .ok (system.allocated (system.arena.blockAllocateIn backing false size false grant))
  | .realloc (some pointer) size grant => system.reallocated backing pointer size grant
  | .write pointer place byte =>
      .ok { system with
        arena := { system.arena with
          memory := Function.update system.arena.memory pointer.mapping
            (Function.update (system.arena.memory pointer.mapping) (pointer.payload + place)
              byte) }
        answer := none }
  | .destroy =>
      match system.arena.destroy with
      | .error abort => .error abort
      | .ok arena =>
          .ok
            { arena
              live := system.live.filter fun block => !(system.arena.headers block).arena
              answer := none }

/-- The systems that allowed calls lead to. -/
inductive Reachable (backing : Backing) : ArenaSystem → Prop
  | init (pool : Bool) (headers : BlockAddress → BlockHeader) (memory : ℕ → ℕ → UInt8) :
      Reachable backing (init pool headers memory)
  | step {system after : ArenaSystem} {call : ArenaCall} : Reachable backing system →
      system.Allowed call → system.step backing call = .ok after → Reachable backing after

end ArenaSystem
end Postgamma.Runtime
