import Mathlib
import Postgamma.Library.Program
import Postgamma.Library.TwosComplement
import Postgamma.Runtime.MemoryPool

/-!
# Accounting of the memory pool

Every mapping that was ever made is in exactly one place: a bucket of the cache, the hands of one
holder, a list that is being discarded, or the unmapped ones.  The counters of the pool are the
numbers and sizes of what is in these places, so that no check of them fails.
-/

namespace Postgamma.Runtime

/-- The sum of the weights of some mappings. -/
def weigh (weight : Mapping → ℕ) (mappings : List Mapping) : ℕ := (mappings.map weight).sum

/-- The weight that counts one mapping. -/
def isMapping (id : ℕ) (mapping : Mapping) : ℕ := if mapping.id = id then 1 else 0

section Weigh

variable (weight : Mapping → ℕ)

@[simp] theorem weigh_nil : weigh weight [] = 0 := rfl

@[simp] theorem weigh_cons (mapping : Mapping) (rest : List Mapping) :
    weigh weight (mapping :: rest) = weight mapping + weigh weight rest := by
  simp [weigh]

@[simp] theorem weigh_append (first second : List Mapping) :
    weigh weight (first ++ second) = weigh weight first + weigh weight second := by
  simp [weigh]

theorem weigh_perm {first second : List Mapping} (same : first.Perm second) :
    weigh weight first = weigh weight second := (same.map weight).sum_eq

theorem weigh_mem {mapping : Mapping} {mappings : List Mapping} (member : mapping ∈ mappings) :
    weight mapping ≤ weigh weight mappings :=
  List.le_sum_of_mem (List.mem_map_of_mem member)

end Weigh

theorem length_eq_weigh (mappings : List Mapping) : mappings.length = weigh (fun _ => 1) mappings := by
  simp [weigh]

namespace MemoryPool

theorem unlink_spec {size : ℕ} {entries : List Mapping} {entry : Mapping} {rest : List Mapping}
    (found : unlink size entries = some (entry, rest)) :
    entry.size = size ∧ entries.Perm (entry :: rest) := by
  induction entries generalizing entry rest with
  | nil => cases found
  | cons head tail induction =>
      rw [unlink] at found
      split at found
      · rename_i same
        obtain ⟨rfl, rfl⟩ := Prod.mk.inj (Option.some.inj found)
        exact ⟨same, .refl _⟩
      · obtain ⟨⟨inner, left⟩, deeper, shape⟩ := Option.map_eq_some_iff.mp found
        obtain ⟨rfl, rfl⟩ := Prod.mk.inj shape
        obtain ⟨same, perm⟩ := induction deeper
        exact ⟨same, (perm.cons head).trans (.swap ..)⟩

theorem foldl_cons (entries head : List Mapping) :
    entries.foldl (fun head entry => entry :: head) head = entries.reverse ++ head := by
  induction entries generalizing head with
  | nil => rfl
  | cons entry rest induction => simp [induction]

theorem foldl_buckets (buckets : Fin poolBuckets → List Mapping) (indices : List (Fin poolBuckets))
    (head : List Mapping) :
    (indices.foldl (fun head bucket =>
      (buckets bucket).foldl (fun head entry => entry :: head) head) head).Perm
        (indices.flatMap buckets ++ head) := by
  induction indices generalizing head with
  | nil => exact .refl _
  | cons bucket rest induction =>
      rw [List.foldl_cons, foldl_cons, List.flatMap_cons]
      refine (induction _).trans ?_
      calc (rest.flatMap buckets ++ ((buckets bucket).reverse ++ head)).Perm
            (rest.flatMap buckets ++ (buckets bucket ++ head)) :=
          ((List.reverse_perm _).append_right head).append_left _
        _ |>.Perm ((buckets bucket ++ rest.flatMap buckets) ++ head) := by
          rw [← List.append_assoc]
          exact List.perm_append_comm.append_right head

/-- Detaching returns exactly what the buckets hold. -/
theorem detached_perm (pool : MemoryPool) :
    pool.detached.Perm ((List.finRange poolBuckets).flatMap pool.buckets) := by
  have moved := foldl_buckets pool.buckets (List.finRange poolBuckets) []
  rwa [List.append_nil] at moved

theorem weigh_detached (weight : Mapping → ℕ) (pool : MemoryPool) :
    weigh weight pool.detached = total (weigh weight) pool.buckets := by
  rw [weigh_perm weight pool.detached_perm]
  have parts (indices : List (Fin poolBuckets)) : weigh weight (indices.flatMap pool.buckets) =
      (indices.map fun bucket => weigh weight (pool.buckets bucket)).sum := by
    induction indices with
    | nil => rfl
    | cons bucket rest induction =>
        rw [List.flatMap_cons, weigh_append, induction, List.map_cons, List.sum_cons]
  rw [parts, total, Fin.sum_univ_def]

end MemoryPool

def Task.pending : Task → ℕ
  | missed _ => 1
  | failed => 1
  | _ => 0

/-- The mappings that a task is discarding. -/
def Task.idle : Task → List Mapping
  | discarding idle => idle
  | _ => []

/-- What a holder has taken and not returned. -/
def Holder.outstanding (holder : Holder) : ℕ := holder.held.length + holder.task.pending

def Holder.mappings (holder : Holder) : List Mapping := holder.held ++ holder.task.idle

namespace PoolSystem

variable {holders : ℕ}

@[simp] theorem discardTask_idle (idle : List Mapping) : (discardTask idle).idle = idle := by
  cases idle <;> rfl

@[simp] theorem discardTask_pending (idle : List Mapping) : (discardTask idle).pending = 0 := by
  cases idle <;> rfl

/-- The weight of all mappings in the cache and in the hands of the holders. -/
def stored (weight : Mapping → ℕ) (system : PoolSystem holders) : ℕ :=
  total (weigh weight) system.pool.buckets +
    total (fun holder => weigh weight holder.mappings) system.holder

/-- The mapping is in the cache or in the hands of a holder. -/
def Keeps (system : PoolSystem holders) (mapping : Mapping) : Prop :=
  (∃ bucket, mapping ∈ system.pool.buckets bucket) ∨
    ∃ index, mapping ∈ (system.holder index).mappings

/-- The counters are right, and every mapping is in one place. -/
structure Accounted (space limit : ℕ) (system : PoolSystem holders) : Prop where
  configured : system.pool.limit = limit
  limit : system.pool.limit < 2 ^ 64
  bytes : system.pool.bytes = total (weigh Mapping.size) system.pool.buckets
  bytesBound : system.pool.bytes ≤ system.pool.limit
  entries : system.pool.entries = total List.length system.pool.buckets
  entriesBound : system.pool.entries ≤ poolEntries
  leases : system.pool.leases = census Holder.lease system.holder
  outstanding : system.pool.outstanding = total Holder.outstanding system.holder
  unleased : ∀ index, (system.holder index).lease = false → (system.holder index).outstanding = 0
  vacant : system.pool.leases = 0 → ∀ bucket, system.pool.buckets bucket = []
  placed : ∀ id, system.stored (isMapping id) + system.memory.unmapped.count id =
    if id < system.memory.mapped.length then 1 else 0
  sized : ∀ mapping, system.Keeps mapping →
    system.memory.mapped[mapping.id]? = some mapping.size ∧ 0 < mapping.size
  resident : system.memory.resident = system.stored Mapping.size
  residentBound : system.memory.resident ≤ space

theorem init_accounted {limit space : ℕ} (bound : limit < 2 ^ 64) :
    (init limit : PoolSystem holders).Accounted space limit := by
  have empty (weight : Mapping → ℕ) : (init limit : PoolSystem holders).stored weight = 0 := by
    simp [stored, total, init, MemoryPool.init, Holder.mappings, Task.idle]
  refine
    { configured := rfl, limit := bound, bytes := ?_, bytesBound := Nat.zero_le _, entries := ?_
      entriesBound := Nat.zero_le _, leases := ?_, outstanding := ?_
      unleased := fun _ _ => rfl, vacant := fun _ _ => rfl, placed := fun id => ?_
      sized := ?_, resident := (empty _).symm, residentBound := Nat.zero_le _ }
  · simp [init, MemoryPool.init, total]
  · simp [init, MemoryPool.init, total]
  · simp [init, MemoryPool.init, census]
  · simp [init, MemoryPool.init, total, Holder.outstanding, Task.pending]
  · rw [empty]
    simp [init]
  · rintro mapping (⟨bucket, member⟩ | ⟨index, member⟩) <;> cases member

/-- A step of one holder that moves the counters with what it moves. -/
structure Moves (space : ℕ) (system after : PoolSystem holders) (index : Fin holders)
    (holder : Holder) : Prop where
  holders : after.holder = Function.update system.holder index holder
  limit : after.pool.limit = system.pool.limit
  bytes : after.pool.bytes = total (weigh Mapping.size) after.pool.buckets
  bytesBound : after.pool.bytes ≤ after.pool.limit
  entries : after.pool.entries = total List.length after.pool.buckets
  entriesBound : after.pool.entries ≤ poolEntries
  leases : after.pool.leases + (system.holder index).lease.toNat =
    system.pool.leases + holder.lease.toNat
  outstanding : after.pool.outstanding + (system.holder index).outstanding =
    system.pool.outstanding + holder.outstanding
  unleased : holder.lease = false → holder.outstanding = 0
  vacant : after.pool.leases = 0 → ∀ bucket, after.pool.buckets bucket = []
  placed : ∀ id, total (weigh (isMapping id)) after.pool.buckets +
      weigh (isMapping id) holder.mappings + after.memory.unmapped.count id +
      (if id < system.memory.mapped.length then 1 else 0) =
    total (weigh (isMapping id)) system.pool.buckets +
      weigh (isMapping id) (system.holder index).mappings + system.memory.unmapped.count id +
      (if id < after.memory.mapped.length then 1 else 0)
  mapped : system.memory.mapped <+: after.memory.mapped
  sized : ∀ mapping, after.Keeps mapping → system.Keeps mapping ∨
    after.memory.mapped[mapping.id]? = some mapping.size ∧ 0 < mapping.size
  resident : after.memory.resident + total (weigh Mapping.size) system.pool.buckets +
      weigh Mapping.size (system.holder index).mappings =
    system.memory.resident + total (weigh Mapping.size) after.pool.buckets +
      weigh Mapping.size holder.mappings
  residentBound : after.memory.resident ≤ space

theorem Moves.accounted {space limit : ℕ} {system after : PoolSystem holders} (index : Fin holders)
    (holder : Holder) (moves : Moves space system after index holder)
    (accounted : system.Accounted space limit) : after.Accounted space limit := by
  have follows (measure : Holder → ℕ) : total measure after.holder +
      measure (system.holder index) = total measure system.holder + measure holder := by
    rw [moves.holders]
    exact total_update measure system.holder index holder
  refine
    { configured := moves.limit.trans accounted.configured
      limit := moves.limit ▸ accounted.limit
      bytes := moves.bytes, bytesBound := moves.bytesBound
      entries := moves.entries, entriesBound := moves.entriesBound
      leases := ?_, outstanding := ?_, unleased := fun place => ?_, vacant := moves.vacant
      placed := fun id => ?_, sized := fun mapping keeps => ?_, resident := ?_
      residentBound := moves.residentBound }
  · have counted := follows fun holder => holder.lease.toNat
    have before := accounted.leases
    have change := moves.leases
    change system.pool.leases = total (fun holder : Holder => holder.lease.toNat) system.holder
      at before
    change after.pool.leases = total (fun holder : Holder => holder.lease.toNat) after.holder
    omega
  · have counted := follows Holder.outstanding
    have before := accounted.outstanding
    have change := moves.outstanding
    omega
  · rw [moves.holders]
    by_cases here : place = index
    · rw [here, Function.update_self]
      exact moves.unleased
    · rw [Function.update_of_ne here]
      exact accounted.unleased place
  · have counted := follows fun holder => weigh (isMapping id) holder.mappings
    have before := accounted.placed id
    have change := moves.placed id
    unfold stored at before ⊢
    omega
  · rcases moves.sized mapping keeps with old | new
    · obtain ⟨known, positive⟩ := accounted.sized mapping old
      obtain ⟨rest, same⟩ := moves.mapped
      have inside := (List.getElem?_eq_some_iff.mp known).1
      rw [← same, List.getElem?_append_left inside]
      exact ⟨known, positive⟩
    · exact new
  · have counted := follows fun holder => weigh Mapping.size holder.mappings
    have before := accounted.resident
    have change := moves.resident
    unfold stored at before ⊢
    omega

section Steps

variable {space limit : ℕ} {system : PoolSystem holders} {index : Fin holders}

/-- A holder's mappings are mapped. -/
theorem Accounted.weigh_held (accounted : system.Accounted space limit) (index : Fin holders) :
    (system.holder index).held.length ≤ weigh Mapping.size (system.holder index).mappings := by
  have positive (mapping : Mapping) (member : mapping ∈ (system.holder index).held) :
      1 ≤ mapping.size :=
    (accounted.sized mapping (.inr ⟨index, List.mem_append_left _ member⟩)).2
  rw [Holder.mappings, weigh_append, length_eq_weigh]
  refine Nat.le_add_right_of_le ?_
  exact List.sum_le_sum fun mapping member => positive mapping member

/-- The reservations do not run out. -/
theorem Accounted.outstanding_lt (accounted : system.Accounted space limit)
    (fits : space + holders < sizeMax) : system.pool.outstanding < sizeMax := by
  have split : total Holder.outstanding system.holder ≤
      total (fun holder => weigh Mapping.size holder.mappings) system.holder + holders := by
    have each (place : Fin holders) : (system.holder place).outstanding ≤
        weigh Mapping.size (system.holder place).mappings + 1 := by
      have held := accounted.weigh_held place
      have pending : (system.holder place).task.pending ≤ 1 := by
        cases (system.holder place).task <;> simp [Task.pending]
      unfold Holder.outstanding
      omega
    calc total Holder.outstanding system.holder
        ≤ total (fun holder => weigh Mapping.size holder.mappings + 1) system.holder :=
          total_le_total each
      _ = total (fun holder => weigh Mapping.size holder.mappings) system.holder + holders := by
          simp [total, Finset.sum_add_distrib]
  have resident := accounted.resident
  have bound := accounted.residentBound
  rw [accounted.outstanding]
  unfold stored at resident
  omega

/-- A holder with a lease is counted. -/
theorem Accounted.leased (accounted : system.Accounted space limit)
    (lease : (system.holder index).lease = true) : system.pool.leases ≠ 0 := by
  rw [accounted.leases]
  exact (census_pos index lease).ne'

theorem Accounted.reserved (accounted : system.Accounted space limit) (index : Fin holders) :
    (system.holder index).outstanding ≤ system.pool.outstanding := by
  rw [accounted.outstanding]
  exact entry_le_total Holder.outstanding system.holder index

variable {mapping : Mapping}

/-- A mapping is among some exactly when they weigh something in its own weight. -/
theorem mem_iff_weigh {mappings : List Mapping} :
    mapping ∈ mappings ↔ weigh (fun other => if other = mapping then 1 else 0) mappings ≠ 0 := by
  induction mappings with
  | nil => simp
  | cons head tail induction =>
      rw [List.mem_cons, weigh_cons, induction]
      by_cases same : head = mapping
      · simp [same]
      · simp [same, Ne.symm same]

/-- A step of one holder that leaves the memory alone and moves mappings only between the cache and
its own hands. -/
theorem Accounted.exchange (accounted : system.Accounted space limit) {pool : MemoryPool}
    {holder : Holder} (same : pool.limit = system.pool.limit)
    (bytes : pool.bytes = total (weigh Mapping.size) pool.buckets)
    (bytesBound : pool.bytes ≤ pool.limit)
    (entries : pool.entries = total List.length pool.buckets)
    (entriesBound : pool.entries ≤ poolEntries)
    (leases : pool.leases + (system.holder index).lease.toNat =
      system.pool.leases + holder.lease.toNat)
    (outstanding : pool.outstanding + (system.holder index).outstanding =
      system.pool.outstanding + holder.outstanding)
    (unleased : holder.lease = false → holder.outstanding = 0)
    (vacant : pool.leases = 0 → ∀ bucket, pool.buckets bucket = [])
    (conserved : ∀ weight, total (weigh weight) pool.buckets + weigh weight holder.mappings =
      total (weigh weight) system.pool.buckets + weigh weight (system.holder index).mappings) :
    (system.move pool index holder).Accounted space limit := by
  suffices moves : Moves space system (system.move pool index holder) index holder from
    moves.accounted _ _ accounted
  refine
    { holders := rfl, limit := same, bytes := bytes, bytesBound := bytesBound
      entries := entries, entriesBound := entriesBound
      leases := leases, outstanding := outstanding, unleased := unleased, vacant := vacant
      placed := fun id => ?_, mapped := List.prefix_refl _, sized := ?_, resident := ?_
      residentBound := accounted.residentBound }
  · change total (weigh (isMapping id)) pool.buckets + weigh (isMapping id) holder.mappings +
      system.memory.unmapped.count id + _ = _
    rw [conserved]
    rfl
  · have old (mapping : Mapping)
        (present : total (weigh fun other => if other = mapping then 1 else 0) pool.buckets +
          weigh (fun other => if other = mapping then 1 else 0) holder.mappings ≠ 0) :
        system.Keeps mapping := by
      rw [conserved] at present
      by_cases mine : mapping ∈ (system.holder index).mappings
      · exact .inr ⟨index, mine⟩
      · rw [mem_iff_weigh, not_not] at mine
        left
        by_contra none
        refine present ?_
        rw [mine, Nat.add_zero]
        refine total_eq_zero fun bucket => ?_
        by_contra some
        exact none ⟨bucket, mem_iff_weigh.mpr some⟩
    rintro mapping (⟨bucket, member⟩ | ⟨place, member⟩)
    · left
      refine old mapping ?_
      have positive := mem_iff_weigh.mp member
      have within :=
        entry_le_total (weigh fun other => if other = mapping then 1 else 0) pool.buckets bucket
      simp only [move] at positive
      omega
    · left
      by_cases here : place = index
      · subst here
        simp only [move, Function.update_self] at member
        have positive := mem_iff_weigh.mp member
        exact old mapping (by omega)
      · simp only [move, Function.update_of_ne here] at member
        exact .inr ⟨place, member⟩
  · have same := conserved Mapping.size
    simp only [move]
    omega

/-- A step of one holder that leaves the cache and the memory alone. -/
theorem Accounted.shift (accounted : system.Accounted space limit) {pool : MemoryPool} {holder : Holder}
    (same : pool = { system.pool with leases := pool.leases, outstanding := pool.outstanding })
    (leases : pool.leases + (system.holder index).lease.toNat =
      system.pool.leases + holder.lease.toNat)
    (outstanding : pool.outstanding + (system.holder index).outstanding =
      system.pool.outstanding + holder.outstanding)
    (unleased : holder.lease = false → holder.outstanding = 0)
    (vacant : pool.leases = 0 → ∀ bucket, pool.buckets bucket = [])
    (mappings : holder.mappings = (system.holder index).mappings) :
    (system.move pool index holder).Accounted space limit := by
  have buckets : pool.buckets = system.pool.buckets := by rw [same]
  refine accounted.exchange (by rw [same]) ?_ ?_ ?_ ?_ leases outstanding unleased vacant
    fun weight => by rw [buckets, mappings]
  · rw [same]
    exact accounted.bytes
  · rw [same]
    exact accounted.bytesBound
  · rw [same]
    exact accounted.entries
  · rw [same]
    exact accounted.entriesBound

theorem acquire_accounted (accounted : system.Accounted space limit) (fits : space + holders < sizeMax)
    (absent : (system.holder index).lease = false) :
    ∃ pool, system.pool.acquire = .ok pool ∧
      (system.move pool index { system.holder index with lease := true }).Accounted space limit := by
  have few : system.pool.leases < holders := by
    have below := census_lt_card absent
    rw [Fintype.card_fin, ← accounted.leases] at below
    exact below
  refine ⟨{ system.pool with leases := system.pool.leases + 1 }, ?_, ?_⟩
  · unfold MemoryPool.acquire
    rw [if_neg (by omega)]
  · refine accounted.shift rfl ?_ rfl nofun (fun none => by cases none) rfl
    simp [absent]

theorem ready_iff {holder : Holder} :
    ready holder = true ↔ holder.lease = true ∧ holder.task = .none := by
  simp [ready]

theorem total_bucket (weight : Mapping → ℕ) (buckets : Fin poolBuckets → List Mapping)
    (bucket : Fin poolBuckets) (entries : List Mapping) :
    total (weigh weight) (Function.update buckets bucket entries) + weigh weight (buckets bucket) =
      total (weigh weight) buckets + weigh weight entries :=
  total_update (weigh weight) buckets bucket entries

theorem total_length (buckets : Fin poolBuckets → List Mapping) :
    total List.length buckets = total (weigh fun _ => 1) buckets := by
  simp only [total, length_eq_weigh]

/-- A hit: the entry leaves the cache without a wrap of the counters. -/
theorem take_hit (accounted : system.Accounted space limit) {size : ℕ} {entry : Mapping}
    {rest : List Mapping}
    (found : MemoryPool.unlink size (system.pool.buckets (MemoryPool.bucketOf size)) =
      some (entry, rest)) :
    entry.size = size ∧ size ≤ system.pool.bytes ∧ 1 ≤ system.pool.entries := by
  obtain ⟨same, perm⟩ := MemoryPool.unlink_spec found
  have bytes := entry_le_total (weigh Mapping.size) system.pool.buckets (MemoryPool.bucketOf size)
  have entries := entry_le_total List.length system.pool.buckets (MemoryPool.bucketOf size)
  rw [weigh_perm _ perm, weigh_cons, same, ← accounted.bytes] at bytes
  rw [perm.length_eq, List.length_cons, ← accounted.entries] at entries
  exact ⟨same, by omega, by omega⟩

/-- The pool behind a hit. -/
theorem take_found (accounted : system.Accounted space limit) (fits : space + holders < sizeMax)
    (leased : system.pool.leases ≠ 0) {size : ℕ} {entry : Mapping} {rest : List Mapping}
    (found : MemoryPool.unlink size (system.pool.buckets (MemoryPool.bucketOf size)) =
      some (entry, rest)) :
    system.pool.take size = .ok
      ({ system.pool with
          buckets := Function.update system.pool.buckets (MemoryPool.bucketOf size) rest
          bytes := system.pool.bytes - size
          entries := system.pool.entries - 1
          outstanding := system.pool.outstanding + 1 }, some entry) := by
  obtain ⟨_, bytes, entries⟩ := take_hit accounted found
  have few : system.pool.entries < 2 ^ 64 :=
    accounted.entriesBound.trans_lt (by decide)
  have full := (accounted.outstanding_lt fits).ne
  unfold MemoryPool.take
  rw [if_neg (not_or.mpr ⟨leased, full⟩)]
  simp only [found]
  rw [sub_no_wrap (accounted.bytesBound.trans_lt accounted.limit) bytes, sub_no_wrap few entries]

/-- The pool behind a miss. -/
theorem take_missed (accounted : system.Accounted space limit) (fits : space + holders < sizeMax)
    (leased : system.pool.leases ≠ 0) {size : ℕ}
    (missing : MemoryPool.unlink size (system.pool.buckets (MemoryPool.bucketOf size)) = none) :
    system.pool.take size =
      .ok ({ system.pool with outstanding := system.pool.outstanding + 1 }, none) := by
  have full := (accounted.outstanding_lt fits).ne
  unfold MemoryPool.take
  rw [if_neg (not_or.mpr ⟨leased, full⟩)]
  simp only [missing]

/-- A take gives a mapping of the size from the cache, or leaves a reservation. -/
theorem take_accounted (accounted : system.Accounted space limit) (fits : space + holders < sizeMax)
    (able : ready (system.holder index) = true) (size : ℕ) :
    ∃ after, system.take index size = .ok (some after) ∧ after.Accounted space limit := by
  obtain ⟨lease, idle⟩ := ready_iff.mp able
  have leased := accounted.leased lease
  rcases found : MemoryPool.unlink size (system.pool.buckets (MemoryPool.bucketOf size)) with
    _ | ⟨entry, rest⟩
  · refine ⟨system.move { system.pool with outstanding := system.pool.outstanding + 1 } index
      { system.holder index with task := .missed size }, ?_, ?_⟩
    · simp only [take, able, take_missed accounted fits leased found]
      rfl
    · refine accounted.shift rfl rfl ?_ ?_ (fun none => absurd none leased) ?_
      · simp only [Holder.outstanding, idle, Task.pending]
        omega
      · simp [lease]
      · simp [Holder.mappings, idle, Task.idle]
  · obtain ⟨same, bytes, entries⟩ := take_hit accounted found
    have perm := (MemoryPool.unlink_spec found).2
    have changed (weight : Mapping → ℕ) :
        total (weigh weight) (Function.update system.pool.buckets (MemoryPool.bucketOf size) rest) +
          weight entry = total (weigh weight) system.pool.buckets := by
      have moved := total_bucket weight system.pool.buckets (MemoryPool.bucketOf size) rest
      rw [weigh_perm weight perm, weigh_cons] at moved
      omega
    refine ⟨system.move
      { system.pool with
          buckets := Function.update system.pool.buckets (MemoryPool.bucketOf size) rest
          bytes := system.pool.bytes - size
          entries := system.pool.entries - 1
          outstanding := system.pool.outstanding + 1 } index
      { system.holder index with held := entry :: (system.holder index).held }, ?_, ?_⟩
    · simp only [take, able, take_found accounted fits leased found]
      rfl
    · refine accounted.exchange rfl ?_ ?_ ?_ ?_ rfl ?_ ?_ (fun none => absurd none leased)
        fun weight => ?_
      · have moved := changed Mapping.size
        have before := accounted.bytes
        change system.pool.bytes - size = total (weigh Mapping.size)
          (Function.update system.pool.buckets (MemoryPool.bucketOf size) rest)
        omega
      · exact (Nat.sub_le ..).trans accounted.bytesBound
      · have moved := changed fun _ => 1
        have before := accounted.entries
        rw [total_length] at before ⊢
        change system.pool.entries - 1 = total (weigh fun _ => 1)
          (Function.update system.pool.buckets (MemoryPool.bucketOf size) rest)
        omega
      · exact (Nat.sub_le ..).trans accounted.entriesBound
      · simp only [Holder.outstanding, List.length_cons]
        omega
      · simp [lease]
      · have moved := changed weight
        simp only [Holder.mappings, List.cons_append, weigh_cons]
        omega

/-- The mapping behind a miss is a new one, or the reservation waits for its rollback. -/
theorem map_accounted (accounted : system.Accounted space limit) {success : Bool}
    {after : PoolSystem holders} (mapped : system.map space index success = some after) :
    after.Accounted space limit := by
  cases missed : (system.holder index).task with
  | missed size =>
      have lease : (system.holder index).lease = true := by
        by_contra absent
        have none := accounted.unleased index (Bool.eq_false_iff.mpr absent)
        simp [Holder.outstanding, missed, Task.pending] at none
      have leased := accounted.leased lease
      simp only [map, missed] at mapped
      split at mapped
      · rename_i able
        obtain ⟨_, positive, room⟩ := able
        obtain rfl := Option.some.inj mapped
        have before : (system.holder index).mappings = (system.holder index).held := by
          simp [Holder.mappings, missed, Task.idle]
        refine Moves.accounted index ({ system.holder index with
          held := { id := system.memory.mapped.length, size := size } :: (system.holder index).held
          task := .none }) ?_ accounted
        refine
          { holders := rfl, limit := rfl, bytes := accounted.bytes
            bytesBound := accounted.bytesBound, entries := accounted.entries
            entriesBound := accounted.entriesBound, leases := rfl, outstanding := ?_
            unleased := fun none => absurd lease (Bool.eq_false_iff.mp none)
            vacant := accounted.vacant, placed := fun id => ?_, mapped := ⟨[size], rfl⟩, sized := ?_
            resident := ?_, residentBound := room }
        · simp only [move, Holder.outstanding, missed, Task.pending, List.length_cons]
        · rw [before]
          simp only [move, Holder.mappings, Task.idle, List.append_nil, weigh_cons,
            List.length_append, List.length_singleton, isMapping]
          split_ifs <;> omega
        · rintro mapping (⟨bucket, member⟩ | ⟨place, member⟩)
          · exact .inl (.inl ⟨bucket, member⟩)
          · by_cases here : place = index
            · subst here
              simp only [move, Function.update_self, Holder.mappings, Task.idle, List.append_nil,
                List.mem_cons] at member
              rcases member with rfl | old
              · right
                simp [positive]
              · exact .inl (.inr ⟨place, by rwa [before]⟩)
            · simp only [move, Function.update_of_ne here] at member
              exact .inl (.inr ⟨place, member⟩)
        · rw [before]
          simp only [move, Holder.mappings, Task.idle, List.append_nil, weigh_cons]
          omega
      · obtain rfl := Option.some.inj mapped
        refine accounted.shift rfl rfl ?_ ?_ accounted.vacant ?_
        · simp [Holder.outstanding, missed, Task.pending]
        · simp [lease]
        · simp [Holder.mappings, missed, Task.idle]
  | none => simp [map, missed] at mapped
  | failed => simp [map, missed] at mapped
  | discarding idle => simp [map, missed] at mapped

/-- The rollback finds its own reservation. -/
theorem rollback_accounted (accounted : system.Accounted space limit)
    (failed : (system.holder index).task = .failed) :
    ∃ after, system.rollback index = .ok (some after) ∧ after.Accounted space limit := by
  have one : (system.holder index).outstanding = (system.holder index).held.length + 1 := by
    rw [Holder.outstanding, failed, Task.pending]
  have reserved := accounted.reserved index
  have lease : (system.holder index).lease = true := by
    by_contra absent
    have none := accounted.unleased index (Bool.eq_false_iff.mpr absent)
    omega
  have leased := accounted.leased lease
  have spent : system.pool.put none 0 =
      .ok ({ system.pool with outstanding := system.pool.outstanding - 1 }, []) := by
    unfold MemoryPool.put
    rw [if_neg (not_or.mpr ⟨leased, by omega⟩)]
  refine ⟨system.move { system.pool with outstanding := system.pool.outstanding - 1 } index
    { system.holder index with task := .none }, ?_, ?_⟩
  · simp only [rollback, failed, spent]
    rfl
  · refine accounted.shift rfl rfl ?_ ?_ accounted.vacant ?_
    · change system.pool.outstanding - 1 + (system.holder index).outstanding =
        system.pool.outstanding + ((system.holder index).held.length + 0)
      omega
    · simp [lease]
    · simp [Holder.mappings, failed, Task.idle]

/-- A return is cached within the bounds, or goes to the holder's own discard list. -/
theorem put_accounted (accounted : system.Accounted space limit)
    (able : ready (system.holder index) = true) (held : mapping ∈ (system.holder index).held) :
    ∃ after, system.put index mapping = .ok (some after) ∧ after.Accounted space limit := by
  obtain ⟨lease, idle⟩ := ready_iff.mp able
  have leased := accounted.leased lease
  have count := List.length_pos_of_mem held
  have reserved := accounted.reserved index
  have perm := List.perm_cons_erase held
  have less := perm.length_eq
  have given : (system.holder index).outstanding = (system.holder index).held.length := by
    simp [Holder.outstanding, idle, Task.pending]
  have mine (weight : Mapping → ℕ) : weigh weight (system.holder index).mappings =
      weight mapping + weigh weight ((system.holder index).held.erase mapping) := by
    rw [Holder.mappings, idle, Task.idle, List.append_nil, weigh_perm weight perm, weigh_cons]
    all_goals nofun
  have counted : ¬(system.pool.leases = 0 ∨ system.pool.outstanding = 0) :=
    not_or.mpr ⟨leased, by omega⟩
  rw [List.length_cons] at less
  by_cases fits : mapping.size ≤ system.pool.limit ∧
    system.pool.bytes ≤ system.pool.limit - mapping.size ∧ system.pool.entries < poolEntries
  · obtain ⟨small, bytes, entries⟩ := fits
    have changed (weight : Mapping → ℕ) :
        total (weigh weight) (Function.update system.pool.buckets (MemoryPool.bucketOf mapping.size)
          (mapping :: system.pool.buckets (MemoryPool.bucketOf mapping.size))) =
            total (weigh weight) system.pool.buckets + weight mapping := by
      have moved := total_bucket weight system.pool.buckets (MemoryPool.bucketOf mapping.size)
        (mapping :: system.pool.buckets (MemoryPool.bucketOf mapping.size))
      rw [weigh_cons] at moved
      omega
    have more : (system.pool.bytes + mapping.size) % 2 ^ 64 = system.pool.bytes + mapping.size :=
      Nat.mod_eq_of_lt (lt_of_le_of_lt (by omega) accounted.limit)
    have next : (system.pool.entries + 1) % 2 ^ 64 = system.pool.entries + 1 :=
      Nat.mod_eq_of_lt (lt_of_le_of_lt (Nat.succ_le_of_lt entries) (by decide))
    refine ⟨system.move
      { system.pool with
          buckets := Function.update system.pool.buckets (MemoryPool.bucketOf mapping.size)
            (mapping :: system.pool.buckets (MemoryPool.bucketOf mapping.size))
          bytes := system.pool.bytes + mapping.size
          entries := system.pool.entries + 1
          outstanding := system.pool.outstanding - 1 } index
      { system.holder index with
          held := (system.holder index).held.erase mapping, task := .none }, ?_, ?_⟩
    · simp only [put, able, held, true_and, if_true, MemoryPool.put, if_neg counted,
        if_pos (And.intro small (And.intro bytes entries)), more, next]
      rfl
    · generalize Function.update system.pool.buckets (MemoryPool.bucketOf mapping.size)
        (mapping :: system.pool.buckets (MemoryPool.bucketOf mapping.size)) = buckets at changed ⊢
      refine accounted.exchange rfl ?_ ?_ ?_ entries rfl ?_ ?_ (fun none => absurd none leased)
        fun weight => ?_
      · change system.pool.bytes + mapping.size = total (weigh Mapping.size) buckets
        rw [changed, accounted.bytes]
      · change system.pool.bytes + mapping.size ≤ system.pool.limit
        omega
      · change system.pool.entries + 1 = total List.length buckets
        rw [total_length, changed, accounted.entries, total_length]
      · change system.pool.outstanding - 1 + (system.holder index).outstanding =
          system.pool.outstanding + (((system.holder index).held.erase mapping).length + 0)
        omega
      · simp [lease]
      · rw [mine]
        change total (weigh weight) buckets +
          weigh weight ((system.holder index).held.erase mapping ++ []) = _
        rw [changed, List.append_nil]
        omega
  · refine ⟨system.move { system.pool with outstanding := system.pool.outstanding - 1 } index
      { system.holder index with
          held := (system.holder index).held.erase mapping, task := .discarding [mapping] }, ?_, ?_⟩
    · simp only [put, able, held, true_and, if_true, MemoryPool.put, if_neg counted, if_neg fits]
      rfl
    · refine accounted.exchange rfl accounted.bytes accounted.bytesBound accounted.entries
        accounted.entriesBound rfl ?_ ?_ (fun none => absurd none leased) fun weight => ?_
      · change system.pool.outstanding - 1 + (system.holder index).outstanding =
          system.pool.outstanding + (((system.holder index).held.erase mapping).length + 0)
        omega
      · simp [lease]
      · rw [mine]
        simp only [Holder.mappings, Task.idle, weigh_append, weigh_cons, weigh_nil]
        omega

/-- With one lease left, the other holders hold no reservation. -/
theorem Accounted.last_lease (accounted : system.Accounted space limit)
    (able : ready (system.holder index) = true) (returned : (system.holder index).held = [])
    (last : system.pool.leases = 1) : system.pool.outstanding = 0 := by
  obtain ⟨lease, idle⟩ := ready_iff.mp able
  rw [accounted.outstanding]
  refine total_eq_zero fun place => ?_
  by_cases here : place = index
  · rw [here, Holder.outstanding, returned, idle]
    rfl
  · refine accounted.unleased place ?_
    by_contra other
    have counted := accounted.leases
    have two := census_update Holder.lease system.holder index
      { system.holder index with lease := false }
    have still : 0 < census Holder.lease
        (Function.update system.holder index { system.holder index with lease := false }) := by
      refine census_pos place ?_
      rw [Function.update_of_ne here]
      exact Bool.eq_false_imp_eq_true.mp fun absent => absurd absent other
    rw [lease, ← counted, last] at two
    change census Holder.lease _ + 1 = 1 + 0 at two
    omega

/-- A release keeps the cache for the other leases; the last one takes it along to discard it. -/
theorem release_accounted (accounted : system.Accounted space limit)
    (able : ready (system.holder index) = true) (returned : (system.holder index).held = []) :
    ∃ after, system.release index = .ok (some after) ∧ after.Accounted space limit := by
  obtain ⟨lease, idle⟩ := ready_iff.mp able
  have leased := accounted.leased lease
  have given : (system.holder index).outstanding = 0 := by
    rw [Holder.outstanding, returned, idle]
    rfl
  by_cases last : system.pool.leases = 1
  · have settled := accounted.last_lease able returned last
    refine ⟨system.move
      { system.pool with
          buckets := fun _ => [], bytes := 0, entries := 0, leases := 0 } index
      { system.holder index with
          lease := false, task := discardTask system.pool.detached }, ?_, ?_⟩
    · simp only [release, able, returned, true_and, if_true, MemoryPool.release, last, settled]
      rfl
    · refine accounted.exchange rfl (total_eq_zero fun _ => rfl).symm (Nat.zero_le _)
        (total_eq_zero fun _ => rfl).symm (Nat.zero_le _) ?_ ?_ ?_ (fun _ _ => rfl)
        fun weight => ?_
      · rw [lease, last]
        rfl
      · simp only [Holder.outstanding, discardTask_pending, returned, idle]
        rfl
      · simp [Holder.outstanding, returned]
      · have cached := system.pool.weigh_detached weight
        have none : total (weigh weight) (fun _ : Fin poolBuckets => []) = 0 :=
          total_eq_zero fun _ => rfl
        have nothing : (system.holder index).mappings = [] := by
          simp [Holder.mappings, returned, idle, Task.idle]
        rw [nothing, weigh_nil]
        simp only [Holder.mappings, discardTask_idle, returned, List.nil_append, none, cached]
        omega
  · have more : system.pool.leases - 1 ≠ 0 := by omega
    refine ⟨system.move { system.pool with leases := system.pool.leases - 1 } index
      { system.holder index with lease := false, task := .none }, ?_, ?_⟩
    · simp only [release, able, returned, true_and, if_true, MemoryPool.release, if_neg leased,
        if_neg more]
      rfl
    · refine accounted.shift rfl ?_ ?_ (fun _ => ?_) (fun none => absurd none more) ?_
      · rw [lease]
        change system.pool.leases - 1 + 1 = system.pool.leases + 0
        omega
      · simp [Holder.outstanding, returned, idle, Task.pending]
      · simp [Holder.outstanding, returned, Task.pending]
      · simp [Holder.mappings, returned, idle, Task.idle]

/-- A mapping that is in the hands of a holder is mapped. -/
theorem Accounted.unmaps (accounted : system.Accounted space limit)
    (member : mapping ∈ (system.holder index).mappings) :
    unmaps system.memory mapping = true := by
  obtain ⟨known, _⟩ := accounted.sized mapping (.inr ⟨index, member⟩)
  have placed := accounted.placed mapping.id
  have here := weigh_mem (isMapping mapping.id) member
  have within := entry_le_total (fun holder => weigh (isMapping mapping.id) holder.mappings)
    system.holder index
  have own : isMapping mapping.id mapping = 1 := if_pos rfl
  have fresh : system.memory.unmapped.count mapping.id = 0 := by
    unfold stored at placed
    split at placed <;> omega
  simp [PoolSystem.unmaps, known, List.count_eq_zero.mp fresh]

/-- One turn of the discard loop unmaps a mapping for the first time. -/
theorem unmap_accounted (accounted : system.Accounted space limit)
    {rest : List Mapping} (discarding : (system.holder index).task = .discarding (mapping :: rest)) :
    ∃ after, system.unmap index = .ok (some after) ∧ after.Accounted space limit := by
  have mine : (system.holder index).mappings = (system.holder index).held ++ mapping :: rest := by
    simp [Holder.mappings, discarding, Task.idle]
  have member : mapping ∈ (system.holder index).mappings := by simp [mine]
  have able := accounted.unmaps member
  have resident : mapping.size ≤ system.memory.resident := by
    have whole :=
      entry_le_total (fun holder => weigh Mapping.size holder.mappings) system.holder index
    have part := weigh_mem Mapping.size member
    have all := accounted.resident
    unfold stored at all
    omega
  refine ⟨_, by simp only [unmap, discarding, able]; rfl, ?_⟩
  refine Moves.accounted index
    { system.holder index with task := discardTask rest } ?_ accounted
  refine
    { holders := rfl, limit := rfl, bytes := accounted.bytes
      bytesBound := accounted.bytesBound, entries := accounted.entries
      entriesBound := accounted.entriesBound, leases := rfl, outstanding := ?_
      unleased := fun none => ?_, vacant := accounted.vacant, placed := fun id => ?_
      mapped := List.prefix_refl _, sized := ?_, resident := ?_
      residentBound := (Nat.sub_le ..).trans accounted.residentBound }
  · simp only [move, Holder.outstanding, discarding, discardTask_pending]
    rfl
  · have before := accounted.unleased index none
    simp only [Holder.outstanding, discarding, Task.pending] at before
    simpa [Holder.outstanding] using before
  · rw [mine]
    simp only [move, Holder.mappings, discardTask_idle, weigh_append, weigh_cons, isMapping,
      List.count_append, List.count_singleton]
    by_cases same : mapping.id = id
    · simp [same]
      omega
    · simp [same]
  · rintro other (⟨bucket, member⟩ | ⟨place, member⟩)
    · exact .inl (.inl ⟨bucket, member⟩)
    · by_cases here : place = index
      · subst here
        simp only [move, Function.update_self, Holder.mappings, discardTask_idle,
          List.mem_append] at member
        refine .inl (.inr ⟨place, ?_⟩)
        rw [mine, List.mem_append, List.mem_cons]
        exact member.imp_right .inr
      · simp only [move, Function.update_of_ne here] at member
        exact .inl (.inr ⟨place, member⟩)
  · rw [mine]
    simp only [move, Holder.mappings, discardTask_idle, weigh_append, weigh_cons]
    omega

/-- A return goes on, and the holder has given the mapping up. -/
theorem put_done (accounted : system.Accounted space limit)
    (able : ready (system.holder index) = true) (held : mapping ∈ (system.holder index).held) :
    ∃ after, system.put index mapping = .ok (some after) ∧
      (after.holder index).held = (system.holder index).held.erase mapping := by
  obtain ⟨after, ran, _⟩ := put_accounted accounted able held
  refine ⟨after, ran, ?_⟩
  rw [put, if_pos ⟨able, held⟩] at ran
  rcases returned : system.pool.put (some mapping.id) mapping.size with fault | ⟨pool, idle⟩
  · rw [returned] at ran
    cases ran
  · rw [returned] at ran
    obtain rfl := Option.some.inj (Except.ok.inj ran)
    simp [move]

/-- A release goes on, and the last one has the cached mappings to discard. -/
theorem release_done (accounted : system.Accounted space limit)
    (able : ready (system.holder index) = true) (returned : (system.holder index).held = []) :
    ∃ after, system.release index = .ok (some after) ∧
      after.pool.leases + 1 = system.pool.leases ∧ (after.holder index).lease = false ∧
      (after.holder index).task =
        discardTask (if after.pool.leases = 0 then system.pool.detached else []) := by
  obtain ⟨after, ran, _⟩ := release_accounted accounted able returned
  have leased := accounted.leased (ready_iff.mp able).1
  refine ⟨after, ran, ?_⟩
  rw [release, if_pos ⟨able, returned⟩, MemoryPool.release, if_neg leased] at ran
  dsimp only at ran
  by_cases last : system.pool.leases - 1 = 0
  · by_cases owed : system.pool.outstanding = 0
    · rw [if_pos last, if_neg (not_not.mpr owed)] at ran
      obtain rfl := Option.some.inj (Except.ok.inj ran)
      simp only [move, Function.update_self, true_and]
      refine ⟨?_, congrArg discardTask (if_pos last).symm⟩
      change system.pool.leases - 1 + 1 = system.pool.leases
      omega
    · rw [if_pos last, if_pos owed] at ran
      cases ran
  · rw [if_neg last] at ran
    obtain rfl := Option.some.inj (Except.ok.inj ran)
    simp only [move, Function.update_self, true_and]
    refine ⟨?_, congrArg discardTask (if_neg last).symm⟩
    omega

/-- One turn of the discard loop unmaps the head of the list. -/
theorem unmap_done (accounted : system.Accounted space limit)
    {rest : List Mapping} (discarding : (system.holder index).task = .discarding (mapping :: rest)) :
    ∃ after, system.unmap index = .ok (some after) ∧
      after.memory.unmapped = system.memory.unmapped ++ [mapping.id] ∧
      (after.holder index).task = discardTask rest := by
  have member : mapping ∈ (system.holder index).mappings := by
    simp [Holder.mappings, discarding, Task.idle]
  have able := accounted.unmaps member
  refine ⟨_, by simp only [unmap, discarding, able]; rfl, rfl, ?_⟩
  simp [move]

theorem step_accounted (accounted : system.Accounted space limit) (fits : space + holders < sizeMax)
    (page : ℕ) (action : PoolAction holders) :
    ∃ outcome, system.step page space action = .ok outcome ∧
      ∀ after, outcome = some after → after.Accounted space limit := by
  have kept {call : Except PoolAbort (Option (PoolSystem holders))}
      (done : ∃ after, call = .ok (some after) ∧ after.Accounted space limit) :
      ∃ outcome, call = .ok outcome ∧ ∀ after, outcome = some after → after.Accounted space limit := by
    obtain ⟨after, same, right⟩ := done
    exact ⟨some after, same, fun other equal => Option.some.inj equal ▸ right⟩
  have idle {call : Except PoolAbort (Option (PoolSystem holders))} (done : call = .ok none) :
      ∃ outcome, call = .ok outcome ∧ ∀ after, outcome = some after → after.Accounted space limit :=
    ⟨none, done, nofun⟩
  have taken (index : Fin holders) (size : ℕ) : ∃ outcome, system.take index size = .ok outcome ∧
      ∀ after, outcome = some after → after.Accounted space limit := by
    rcases Bool.eq_false_or_eq_true (ready (system.holder index)) with able | unable
    · exact kept (take_accounted accounted fits able size)
    · exact idle (by simp [take, unable])
  cases action with
  | acquire index =>
      by_cases busy : (system.holder index).lease = true ∨ (system.holder index).task ≠ .none
      · exact idle (if_pos busy)
      · have absent := Bool.eq_false_iff.mpr (not_or.mp busy).1
        obtain ⟨pool, acquired, right⟩ := acquire_accounted accounted fits absent
        refine kept ⟨_, ?_, right⟩
        simp only [step, if_neg busy, acquired]
        rfl
  | take index size => exact taken index size
  | allocate index size =>
      rcases mapped : mappedSize page size with _ | _ | bytes
      · exact idle (by simp [step, mapped])
      · exact idle (by simp [step, mapped])
      · simp only [step, mapped]
        exact taken index (bytes + 1)
  | map index success =>
      exact ⟨_, rfl, fun after mapped => map_accounted accounted mapped⟩
  | rollback index =>
      cases task : (system.holder index).task with
      | failed => exact kept (rollback_accounted accounted task)
      | none => exact idle (by simp [step, rollback, task])
      | missed size => exact idle (by simp [step, rollback, task])
      | discarding idles => exact idle (by simp [step, rollback, task])
  | put index mapping =>
      by_cases able : ready (system.holder index) = true ∧ mapping ∈ (system.holder index).held
      · exact kept (put_accounted accounted able.1 able.2)
      · exact idle (if_neg able)
  | release index =>
      by_cases able : ready (system.holder index) = true ∧ (system.holder index).held = []
      · exact kept (release_accounted accounted able.1 able.2)
      · exact idle (if_neg able)
  | unmap index =>
      cases task : (system.holder index).task with
      | discarding idles =>
          cases idles with
          | nil => exact idle (by simp [step, unmap, task])
          | cons mapping rest => exact kept (unmap_accounted accounted task)
      | none => exact idle (by simp [step, unmap, task])
      | missed size => exact idle (by simp [step, unmap, task])
      | failed => exact idle (by simp [step, unmap, task])

end Steps

variable {system : PoolSystem holders} {space limit : ℕ}

theorem Reachable.accounted {page space limit : ℕ}
    (reached : Reachable page space limit system) (bound : limit < 2 ^ 64)
    (fits : space + holders < sizeMax) : system.Accounted space limit := by
  induction reached with
  | init => exact init_accounted bound
  | step before taken induction =>
      obtain ⟨outcome, same, right⟩ := step_accounted induction fits page _
      rw [taken] at same
      exact right _ (Except.ok.inj same).symm

/-- A hit is a cached mapping of exactly the size, and takes its bytes from the counter. -/
theorem Accounted.take_entry
    (accounted : system.Accounted space limit) {size : ℕ} {pool : MemoryPool} {entry : Mapping}
    (taken : system.pool.take size = .ok (pool, some entry)) :
    entry.size = size ∧ (∃ bucket, entry ∈ system.pool.buckets bucket) ∧
      pool.bytes + size = system.pool.bytes ∧ pool.entries + 1 = system.pool.entries := by
  unfold MemoryPool.take at taken
  split at taken
  · cases taken
  · rcases found : MemoryPool.unlink size (system.pool.buckets (MemoryPool.bucketOf size)) with
      _ | ⟨other, rest⟩
    · simp [found] at taken
    · simp only [found, Except.ok.injEq, Prod.mk.injEq, Option.some.injEq] at taken
      obtain ⟨rfl, rfl⟩ := taken
      obtain ⟨same, bytes, entries⟩ := take_hit accounted found
      have few : system.pool.entries < 2 ^ 64 := accounted.entriesBound.trans_lt (by decide)
      refine ⟨same, ⟨MemoryPool.bucketOf size, ?_⟩, ?_, ?_⟩
      · exact (MemoryPool.unlink_spec found).2.mem_iff.mpr (List.mem_cons_self ..)
      · change (system.pool.bytes + 2 ^ 64 - size) % 2 ^ 64 + size = system.pool.bytes
        rw [sub_no_wrap (accounted.bytesBound.trans_lt accounted.limit) bytes]
        omega
      · change (system.pool.entries + 2 ^ 64 - 1) % 2 ^ 64 + 1 = system.pool.entries
        rw [sub_no_wrap few entries]
        omega

/-- A return that is retained adds its bytes to the counter. -/
theorem Accounted.put_entry
    (accounted : system.Accounted space limit) {id size : ℕ} {pool : MemoryPool}
    (retained : system.pool.put (some id) size = .ok (pool, [])) :
    pool.bytes = system.pool.bytes + size ∧ pool.entries = system.pool.entries + 1 := by
  unfold MemoryPool.put at retained
  split at retained
  · cases retained
  · dsimp only at retained
    split at retained
    · rename_i room
      obtain ⟨small, bytes, entries⟩ := room
      obtain rfl := (Prod.mk.inj (Except.ok.inj retained)).1
      refine ⟨Nat.mod_eq_of_lt (lt_of_le_of_lt ?_ accounted.limit), ?_⟩
      · change system.pool.bytes + size ≤ system.pool.limit
        change system.pool.bytes ≤ system.pool.limit - size at bytes
        change size ≤ system.pool.limit at small
        omega
      · exact Nat.mod_eq_of_lt (lt_of_le_of_lt (Nat.succ_le_of_lt entries) (by decide))
    · cases (Prod.mk.inj (Except.ok.inj retained)).2

theorem weigh_isMapping {mapping : Mapping} {mappings : List Mapping} {id : ℕ}
    (member : mapping ∈ mappings) (same : mapping.id = id) : 1 ≤ weigh (isMapping id) mappings := by
  have part := weigh_mem (isMapping id) member
  rwa [isMapping, if_pos same] at part

theorem Accounted.once
    (accounted : system.Accounted space limit) (id : ℕ) : system.stored (isMapping id) ≤ 1 := by
  have placed := accounted.placed id
  split at placed <;> omega

theorem Accounted.not_handed_out
    (accounted : system.Accounted space limit) {bucket : Fin poolBuckets} {entry mapping : Mapping}
    {index : Fin holders} (cached : entry ∈ system.pool.buckets bucket)
    (held : mapping ∈ (system.holder index).mappings) : entry.id ≠ mapping.id := by
  intro same
  have once := accounted.once mapping.id
  have first := weigh_isMapping cached same
  have second := weigh_isMapping held rfl
  have inBuckets := entry_le_total (weigh (isMapping mapping.id)) system.pool.buckets bucket
  have inHands := entry_le_total (fun holder => weigh (isMapping mapping.id) holder.mappings)
    system.holder index
  unfold stored at once
  omega

/-- A mapping is handed out to one holder. -/
theorem Accounted.one_holder
    (accounted : system.Accounted space limit) {first second : Fin holders} {mapping other : Mapping}
    (here : mapping ∈ (system.holder first).mappings)
    (there : other ∈ (system.holder second).mappings) (same : mapping.id = other.id) :
    first = second := by
  by_contra apart
  have once := accounted.once other.id
  have one := weigh_isMapping here same
  have two := weigh_isMapping there rfl
  have without := total_update (fun holder => weigh (isMapping other.id) holder.mappings)
    system.holder first { lease := false, held := [], task := .none }
  have rest := entry_le_total (fun holder => weigh (isMapping other.id) holder.mappings)
    (Function.update system.holder first { lease := false, held := [], task := .none }) second
  rw [Function.update_of_ne (Ne.symm apart)] at rest
  have none : weigh (isMapping other.id)
      (Holder.mappings { lease := false, held := [], task := .none }) = 0 := rfl
  unfold stored at once
  omega

/-- A holder has a mapping once. -/
theorem Accounted.nodup (accounted : system.Accounted space limit) (index : Fin holders) :
    ((system.holder index).mappings.map Mapping.id).Nodup := by
  have counted (id : ℕ) (mappings : List Mapping) :
      (mappings.map Mapping.id).count id = weigh (isMapping id) mappings := by
    induction mappings with
    | nil => rfl
    | cons head tail induction =>
        rw [List.map_cons, List.count_cons, induction, weigh_cons, isMapping, Nat.add_comm]
        by_cases same : head.id = id <;> simp [same]
  refine List.nodup_iff_count_le_one.mpr fun id => ?_
  have once := accounted.once id
  have inHands :=
    entry_le_total (fun holder => weigh (isMapping id) holder.mappings) system.holder index
  rw [counted]
  unfold stored at once
  omega

/-- No mapping is unmapped twice. -/
theorem Accounted.unmapped_nodup
    (accounted : system.Accounted space limit) : system.memory.unmapped.Nodup := by
  refine List.nodup_iff_count_le_one.mpr fun id => ?_
  have placed := accounted.placed id
  split at placed <;> omega

/-- A holder whose discard does not go on has nothing to discard. -/
theorem Accounted.discarded {index : Fin holders}
    (accounted : system.Accounted space limit) (done : system.unmap index = .ok none) :
    (system.holder index).task.idle = [] := by
  cases task : (system.holder index).task with
  | discarding idles =>
      cases idles with
      | nil => rfl
      | cons mapping rest =>
          obtain ⟨after, ran, _⟩ := unmap_done accounted task
          rw [ran] at done
          cases done
  | _ => rfl

/-- Without a lease, nothing is handed out; without a discard left, everything is unmapped. -/
theorem Accounted.unmapped_perm
    (accounted : system.Accounted space limit) (released : system.pool.leases = 0)
    (done : ∀ index, system.unmap index = .ok none) :
    system.memory.unmapped.Perm (List.range system.memory.mapped.length) := by
  have nothing (index : Fin holders) : (system.holder index).mappings = [] := by
    have lease : (system.holder index).lease = false := by
      by_contra some
      exact accounted.leased (Bool.not_eq_false _ ▸ some) released
    have settled := accounted.unleased index lease
    have held : (system.holder index).held = [] := by
      rw [← List.length_eq_zero_iff]
      unfold Holder.outstanding at settled
      omega
    rw [Holder.mappings, held, accounted.discarded (done index)]
    rfl
  have empty (id : ℕ) : system.stored (isMapping id) = 0 := by
    have cached : total (weigh (isMapping id)) system.pool.buckets = 0 :=
      total_eq_zero fun bucket => by rw [accounted.vacant released bucket, weigh_nil]
    have handed : total (fun holder => weigh (isMapping id) holder.mappings) system.holder = 0 :=
      total_eq_zero fun index => by rw [nothing index, weigh_nil]
    rw [stored, cached, handed]
  refine List.perm_iff_count.mpr fun id => ?_
  have placed := accounted.placed id
  rw [empty, Nat.zero_add] at placed
  rw [placed, List.Nodup.count List.nodup_range]
  simp

/-- The accounts of a pool are right in every reachable state, and no step from one aborts.  What a
holder returns, releases or discards goes on, and after the last release all is unmapped once no
discard goes on any more. -/
theorem pool_accounting {page space limit : ℕ} (bound : limit < 2 ^ 64)
    (fits : space + holders < sizeMax) {system : PoolSystem holders}
    (reached : Reachable page space limit system) :
    (system.pool.bytes = total (weigh Mapping.size) system.pool.buckets ∧
        system.pool.bytes ≤ limit ∧
        system.pool.entries = total List.length system.pool.buckets ∧
        system.pool.entries ≤ poolEntries ∧
        system.pool.leases = census Holder.lease system.holder ∧
        system.pool.outstanding = total Holder.outstanding system.holder) ∧
      ((∀ bucket index, ∀ entry ∈ system.pool.buckets bucket,
          ∀ mapping ∈ (system.holder index).mappings, entry.id ≠ mapping.id) ∧
        (∀ first second, ∀ mapping ∈ (system.holder first).mappings,
          ∀ other ∈ (system.holder second).mappings, mapping.id = other.id → first = second) ∧
        ∀ index, ((system.holder index).mappings.map Mapping.id).Nodup) ∧
      (∀ size pool entry, system.pool.take size = .ok (pool, some entry) →
        entry.size = size ∧ (∃ bucket, entry ∈ system.pool.buckets bucket) ∧
          pool.bytes + size = system.pool.bytes ∧ pool.entries + 1 = system.pool.entries) ∧
      (∀ id size pool, system.pool.put (some id) size = .ok (pool, []) →
        pool.bytes = system.pool.bytes + size ∧ pool.entries = system.pool.entries + 1) ∧
      (∀ action, ∃ outcome, system.step page space action = .ok outcome) ∧
      (∀ index, ready (system.holder index) = true →
        (∀ mapping ∈ (system.holder index).held, ∃ after,
          system.step page space (.put index mapping) = .ok (some after) ∧
            (after.holder index).held = (system.holder index).held.erase mapping) ∧
        ((system.holder index).held = [] → ∃ after,
          system.step page space (.release index) = .ok (some after) ∧
            after.pool.leases + 1 = system.pool.leases ∧ (after.holder index).lease = false ∧
            (after.holder index).task =
              discardTask (if after.pool.leases = 0 then system.pool.detached else []))) ∧
      (∀ index mapping rest, (system.holder index).task = .discarding (mapping :: rest) → ∃ after,
        system.step page space (.unmap index) = .ok (some after) ∧
          after.memory.unmapped = system.memory.unmapped ++ [mapping.id] ∧
          (after.holder index).task = discardTask rest) ∧
      system.memory.unmapped.Nodup ∧
      (system.pool.leases = 0 → (∀ bucket, system.pool.buckets bucket = []) ∧
        ((∀ index, system.step page space (.unmap index) = .ok none) →
          system.memory.unmapped.Perm (List.range system.memory.mapped.length))) := by
  have accounted := reached.accounted bound fits
  refine ⟨⟨accounted.bytes, accounted.configured ▸ accounted.bytesBound, accounted.entries,
    accounted.entriesBound, accounted.leases, accounted.outstanding⟩, ⟨?_, ?_, accounted.nodup⟩,
    ?_, ?_, fun action => ?_,
    fun index able =>
      ⟨fun mapping held => put_done accounted able held, release_done accounted able⟩,
    fun index mapping rest => unmap_done accounted, accounted.unmapped_nodup,
    fun released => ⟨accounted.vacant released, ?_⟩⟩
  · intro bucket index entry cached mapping held
    exact accounted.not_handed_out cached held
  · intro first second mapping here other there same
    exact accounted.one_holder here there same
  · intro size pool entry taken
    exact accounted.take_entry taken
  · intro id size pool retained
    exact accounted.put_entry retained
  · obtain ⟨outcome, same, _⟩ := step_accounted accounted fits page action
    exact ⟨outcome, same⟩
  · exact accounted.unmapped_perm released

/-- A mapping that is made, returned to the cache, taken again by another holder, and unmapped
behind the last release. -/
theorem pool_accounting_handed_on : ∃ system : PoolSystem 2,
    Reachable 4096 1048576 65536 system ∧ system.memory.mapped = [8192] ∧
      system.pool.bytes = total (weigh Mapping.size) system.pool.buckets ∧
      system.memory.unmapped.Perm [0] := by
  have facts : (runs (step 4096 1048576) (init 65536 : PoolSystem 2)
      [.acquire 0, .acquire 1, .take 0 8192, .map 0 true, .put 0 { id := 0, size := 8192 },
        .take 1 8192, .release 0, .put 1 { id := 0, size := 8192 }, .release 1, .unmap 1]).map
        (fun system => (system.pool.leases, system.memory.mapped,
          List.ofFn fun index => (system.holder index).task)) =
      some (0, [8192], [.none, .none]) := by decide
  obtain ⟨system, ran, same⟩ := Option.map_eq_some_iff.mp facts
  obtain ⟨released, mapped, tasks⟩ : system.pool.leases = 0 ∧ system.memory.mapped = [8192] ∧
      (List.ofFn fun index => (system.holder index).task) = [.none, .none] := by
    simpa using same
  have reached : Reachable 4096 1048576 65536 system :=
    runs_preserves Reachable.step .init ran
  have accounting := pool_accounting (by decide) (by decide) reached
  refine ⟨system, reached, mapped, accounting.1.1, ?_⟩
  have done (index : Fin 2) : system.step 4096 1048576 (.unmap index) = .ok none := by
    have none : (system.holder index).task = .none := by
      fin_cases index
      · exact (List.cons.inj tasks).1
      · exact (List.cons.inj (List.cons.inj tasks).2).1
    rw [step, unmap]
    simp only [none]
  have all := (accounting.2.2.2.2.2.2.2.2 released).2 done
  rwa [mapped] at all

end PoolSystem

end Postgamma.Runtime
