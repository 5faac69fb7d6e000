import Mathlib
import Postgamma.Library.Census
import Postgamma.Library.Program

/-!
# The memory pool of an instance

The pool caches the backing mappings of memory blocks between the clients of an instance.  A holder
is a client with its lease, the mappings that it has taken and the part of a call that is still to
run outside the mutex.  A critical section is one step; mapping and unmapping are steps of their own.
-/

namespace Postgamma.Runtime

def sizeMax : ℕ := 2 ^ 64 - 1

/-- `POSTGAMMA_MEMORY_POOL_BUCKETS`. -/
def poolBuckets : ℕ := 32

/-- `POSTGAMMA_MEMORY_POOL_ENTRIES`. -/
def poolEntries : ℕ := 256

/-- The functions whose `abort()` calls are modelled. -/
inductive PoolAbort where
  | acquire
  | release
  | take
  | put
  | discard
  deriving DecidableEq

/-- A mapping with its `PostgammaMemoryPoolEntry`; its identity is its place among all mappings. -/
structure Mapping where
  id : ℕ
  size : ℕ
  deriving DecidableEq

/-- `PostgammaMemoryPool`; a bucket is the list behind its head. -/
structure MemoryPool where
  buckets : Fin poolBuckets → List Mapping
  limit : ℕ
  bytes : ℕ
  entries : ℕ
  leases : ℕ
  outstanding : ℕ

namespace MemoryPool

/-- `postgamma_memory_pool_init`. -/
def init (limit : ℕ) : MemoryPool :=
  { buckets := fun _ => [], limit := limit, bytes := 0, entries := 0, leases := 0
    outstanding := 0 }

/-- `postgamma_memory_pool_acquire`. -/
def acquire (pool : MemoryPool) : Except PoolAbort MemoryPool :=
  if pool.leases = sizeMax then .error .acquire else .ok { pool with leases := pool.leases + 1 }

/-- `postgamma_memory_pool_detach`: the list that it returns. -/
def detached (pool : MemoryPool) : List Mapping :=
  (List.finRange poolBuckets).foldl
    (fun head bucket => (pool.buckets bucket).foldl (fun head entry => entry :: head) head) []

/-- `postgamma_memory_pool_detach`: the pool that it leaves. -/
def detach (pool : MemoryPool) : MemoryPool :=
  { pool with buckets := fun _ => [], bytes := 0, entries := 0 }

/-- The critical section of `postgamma_memory_pool_release`, with the list to discard behind it. -/
def release (pool : MemoryPool) : Except PoolAbort (MemoryPool × List Mapping) :=
  if pool.leases = 0 then .error .release
  else
    let pool := { pool with leases := pool.leases - 1 }
    if pool.leases = 0 then
      if pool.outstanding ≠ 0 then .error .release else .ok (pool.detach, pool.detached)
    else .ok (pool, [])

def bucketOf (size : ℕ) : Fin poolBuckets := ⟨size / 4096 % poolBuckets, Nat.mod_lt _ (by decide)⟩

/-- The loop of `postgamma_memory_pool_take`: the first entry of a size, and the list without it. -/
def unlink (size : ℕ) : List Mapping → Option (Mapping × List Mapping)
  | [] => none
  | entry :: rest =>
      if entry.size = size then some (entry, rest)
      else (unlink size rest).map fun found => (found.1, entry :: found.2)

/-- The critical section of `postgamma_memory_pool_take`. -/
def take (pool : MemoryPool) (size : ℕ) : Except PoolAbort (MemoryPool × Option Mapping) :=
  if pool.leases = 0 ∨ pool.outstanding = sizeMax then .error .take
  else
    let pool := { pool with outstanding := pool.outstanding + 1 }
    match unlink size (pool.buckets (bucketOf size)) with
    | none => .ok (pool, none)
    | some (entry, rest) =>
        .ok
          ({ pool with
              buckets := Function.update pool.buckets (bucketOf size) rest
              bytes := (pool.bytes + 2 ^ 64 - size) % 2 ^ 64
              entries := (pool.entries + 2 ^ 64 - 1) % 2 ^ 64 },
            some entry)

/-- The critical section of `postgamma_memory_pool_put`, with the list to discard behind it. -/
def put (pool : MemoryPool) (mapping : Option ℕ) (size : ℕ) :
    Except PoolAbort (MemoryPool × List Mapping) :=
  if pool.leases = 0 ∨ pool.outstanding = 0 then .error .put
  else
    let pool := { pool with outstanding := pool.outstanding - 1 }
    match mapping with
    | none => .ok (pool, [])
    | some id =>
        let entry : Mapping := { id := id, size := size }
        if size ≤ pool.limit ∧ pool.bytes ≤ pool.limit - size ∧ pool.entries < poolEntries then
          .ok
            ({ pool with
                buckets := Function.update pool.buckets (bucketOf size)
                  (entry :: pool.buckets (bucketOf size))
                bytes := (pool.bytes + size) % 2 ^ 64
                entries := (pool.entries + 1) % 2 ^ 64 },
              [])
        else .ok (pool, [entry])

end MemoryPool

/-- `sizeof(PostgammaMemoryBlock)`. -/
def blockBytes : ℕ := 64

/-- The size that `postgamma_memory_block_allocate_in` maps for a block; `none` is a failure with
`ENOMEM`, and `some 0` a block that it takes from `malloc`. -/
def mappedSize (page size : ℕ) : Option ℕ :=
  if sizeMax - blockBytes < size then none
  else
    let total := blockBytes + size
    if page ≤ total then
      if sizeMax - (page - 1) < total then none else some ((total + page - 1) / page * page)
    else some 0

/-- What a holder has still to do outside the mutex. -/
inductive Task where
  | none
  /-- A miss: the mapping of the size is still to be made. -/
  | missed (size : ℕ)
  /-- The mapping has failed; the reservation is still to be rolled back. -/
  | failed
  /-- `postgamma_memory_pool_discard` of the rest of a list. -/
  | discarding (idle : List Mapping)
  deriving DecidableEq

/-- A client of the pool. -/
structure Holder where
  lease : Bool
  held : List Mapping
  task : Task
  deriving DecidableEq

/-- The mappings that the system has made and unmapped, and the bytes mapped at present. -/
structure Memory where
  mapped : List ℕ
  unmapped : List ℕ
  resident : ℕ
  deriving DecidableEq

/-- The pool, its holders and the memory. -/
structure PoolSystem (holders : ℕ) where
  pool : MemoryPool
  holder : Fin holders → Holder
  memory : Memory

/-- A step of one holder. -/
inductive PoolAction (holders : ℕ) where
  | acquire (index : Fin holders)
  | take (index : Fin holders) (size : ℕ)
  | allocate (index : Fin holders) (size : ℕ)
  | map (index : Fin holders) (success : Bool)
  | rollback (index : Fin holders)
  | put (index : Fin holders) (mapping : Mapping)
  | release (index : Fin holders)
  | unmap (index : Fin holders)
  deriving DecidableEq

namespace PoolSystem

variable {holders : ℕ}

/-- A pool with no client. -/
def init (limit : ℕ) : PoolSystem holders :=
  { pool := .init limit
    holder := fun _ => { lease := false, held := [], task := .none }
    memory := { mapped := [], unmapped := [], resident := 0 } }

/-- A holder moves on with a pool. -/
def move (system : PoolSystem holders) (pool : MemoryPool) (index : Fin holders)
    (holder : Holder) : PoolSystem holders :=
  { system with pool := pool, holder := Function.update system.holder index holder }

/-- `munmap` of a mapping with its size. -/
def unmaps (memory : Memory) (mapping : Mapping) : Bool :=
  memory.mapped[mapping.id]? = some mapping.size && mapping.id ∉ memory.unmapped

/-- A holder with a lease and nothing to finish. -/
def ready (holder : Holder) : Bool := holder.lease && holder.task = .none

/-- A list to discard behind a critical section. -/
def discardTask : List Mapping → Task
  | [] => .none
  | idle => .discarding idle

/-- `postgamma_memory_pool_take` by a holder. -/
def take (system : PoolSystem holders) (index : Fin holders) (size : ℕ) :
    Except PoolAbort (Option (PoolSystem holders)) :=
  let holder := system.holder index
  if ready holder = false then .ok none
  else do
    let (pool, entry) ← system.pool.take size
    match entry with
    | some entry =>
        .ok (some (system.move pool index { holder with held := entry :: holder.held }))
    | none => .ok (some (system.move pool index { holder with task := .missed size }))

/-- The `mmap` behind a miss.  A mapping of no bytes fails, and so does one that does not fit into
the address space. -/
def map (space : ℕ) (system : PoolSystem holders) (index : Fin holders) (success : Bool) :
    Option (PoolSystem holders) :=
  let holder := system.holder index
  match holder.task with
  | .missed size =>
      if success = true ∧ 0 < size ∧ system.memory.resident + size ≤ space then
        let mapping : Mapping := { id := system.memory.mapped.length, size := size }
        some
          { system.move system.pool index
              { holder with held := mapping :: holder.held, task := .none } with
            memory :=
              { system.memory with
                mapped := system.memory.mapped ++ [size]
                resident := system.memory.resident + size } }
      else some (system.move system.pool index { holder with task := .failed })
  | _ => none

/-- The rollback behind a mapping that has failed. -/
def rollback (system : PoolSystem holders) (index : Fin holders) :
    Except PoolAbort (Option (PoolSystem holders)) :=
  let holder := system.holder index
  match holder.task with
  | .failed => do
      let (pool, idle) ← system.pool.put none 0
      .ok (some (system.move pool index { holder with task := discardTask idle }))
  | _ => .ok none

/-- `postgamma_memory_pool_put` of a mapping that the holder has taken. -/
def put (system : PoolSystem holders) (index : Fin holders) (mapping : Mapping) :
    Except PoolAbort (Option (PoolSystem holders)) :=
  let holder := system.holder index
  if ready holder = true ∧ mapping ∈ holder.held then do
    let (pool, idle) ← system.pool.put (some mapping.id) mapping.size
    .ok (some (system.move pool index
      { holder with held := holder.held.erase mapping, task := discardTask idle }))
  else .ok none

/-- `postgamma_memory_pool_release` by a holder that has returned everything. -/
def release (system : PoolSystem holders) (index : Fin holders) :
    Except PoolAbort (Option (PoolSystem holders)) :=
  let holder := system.holder index
  if ready holder = true ∧ holder.held = [] then do
    let (pool, idle) ← system.pool.release
    .ok (some (system.move pool index { holder with lease := false, task := discardTask idle }))
  else .ok none

/-- One turn of `postgamma_memory_pool_discard`. -/
def unmap (system : PoolSystem holders) (index : Fin holders) :
    Except PoolAbort (Option (PoolSystem holders)) :=
  let holder := system.holder index
  match holder.task with
  | .discarding (mapping :: rest) =>
      if unmaps system.memory mapping = false then .error .discard
      else
        .ok (some
          { system.move system.pool index { holder with task := discardTask rest } with
            memory :=
              { system.memory with
                unmapped := system.memory.unmapped ++ [mapping.id]
                resident := system.memory.resident - mapping.size } })
  | _ => .ok none

/-- One step; `none` when the holder is elsewhere or its call changes nothing. -/
def step (page space : ℕ) (system : PoolSystem holders) :
    PoolAction holders → Except PoolAbort (Option (PoolSystem holders))
  | .acquire index =>
      let holder := system.holder index
      if holder.lease = true ∨ holder.task ≠ .none then .ok none
      else do
        let pool ← system.pool.acquire
        .ok (some (system.move pool index { holder with lease := true }))
  | .take index size => system.take index size
  | .allocate index size =>
      match mappedSize page size with
      | none => .ok none
      | some 0 => .ok none
      | some mapped => system.take index mapped
  | .map index success => .ok (system.map space index success)
  | .rollback index => system.rollback index
  | .put index mapping => system.put index mapping
  | .release index => system.release index
  | .unmap index => system.unmap index

/-- The states that the steps of the holders lead to, in any order. -/
inductive Reachable (page space limit : ℕ) : PoolSystem holders → Prop
  | init : Reachable page space limit (init limit)
  | step {system after : PoolSystem holders} {action : PoolAction holders}
      (before : Reachable page space limit system)
      (taken : system.step page space action = .ok (some after)) :
      Reachable page space limit after

end PoolSystem

end Postgamma.Runtime
