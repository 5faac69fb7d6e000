import Mathlib
import Postgamma.Library.Census
import Postgamma.Library.Program
import Postgamma.Library.TwosComplement

/-!
# The role stores that an instance recycles

A role store is taken from the cache of the instance store or created, used by the client that has
leased it, and returned to the cache or freed.  The sections under the initialization mutex are one
step each; allocation, clearing and freeing are steps outside of it.
-/

namespace Postgamma.Runtime

/-- The generated constants of the role owner; the alignment is a maximum that starts at one. -/
structure RoleLayout where
  dataSize : ℕ
  slotCount : ℕ
  alignment : ℕ
  positive : 0 < alignment

/-- The platform and `POSTGAMMA_ROLE_CACHE_BYTES`. -/
structure RoleConfig where
  /-- Large stores are mapped by pages. -/
  maps : Bool
  page : ℕ
  limit : ℕ
  deriving DecidableEq

/-- `postgamma_runtime_contract_violation()`. -/
inductive Violation where
  | contract
  deriving DecidableEq

/-- `PostgammaBackendStateStore` of a role; `magic` says whether it holds the magic number. -/
structure RoleStore where
  magic : Bool
  dataSize : ℕ
  slotCount : ℕ
  initialized : List ℕ
  /-- The bytes behind `data_allocation`. -/
  allocation : List UInt8
  /-- The distance from `data_allocation` to `data`. -/
  padding : ℕ
  prepared : Option ℕ
  wasBound : Bool
  allocationSize : ℕ
  mappingSize : ℕ
  deriving DecidableEq, Inhabited

namespace RoleStore

/-- `postgamma_backend_state_context_init` for a role, with the address that the allocator returns. -/
def create (config : RoleConfig) (layout : RoleLayout) (address : ℕ) :
    Except Violation RoleStore :=
  if 2 ^ 64 - 1 - (layout.alignment - 1) < layout.dataSize then .error .contract
  else
    let allocationSize :=
      if layout.dataSize = 0 then 1 else layout.dataSize + layout.alignment - 1
    let store (mappingSize length : ℕ) : RoleStore :=
      { magic := true
        dataSize := layout.dataSize
        slotCount := layout.slotCount
        initialized := List.replicate (if layout.slotCount = 0 then 1 else layout.slotCount) 0
        allocation := List.replicate length 0
        padding := (layout.alignment - address % layout.alignment) % layout.alignment
        prepared := none
        wasBound := false
        allocationSize := allocationSize
        mappingSize := mappingSize }
    if config.maps = true ∧ 4096 ≤ allocationSize then
      if config.page = 0 ∨ 2 ^ 64 - 1 - config.page + 1 < allocationSize then .error .contract
      else
        let mappedSize := (allocationSize + config.page - 1) / config.page * config.page
        .ok (store mappedSize mappedSize)
    else .ok (store 0 allocationSize)

/-- `role_cache_charge`. -/
def charge (store : RoleStore) : ℕ :=
  ((if store.mappingSize ≠ 0 then store.mappingSize else store.allocationSize) + 136 +
    if store.slotCount = 0 then 1 else store.slotCount) % 2 ^ 64

/-- The reuse branch of `postgamma_backend_state_role_acquire` outside the lock. -/
def recycle (store : RoleStore) : RoleStore :=
  { store with
    allocation :=
      List.replicate store.allocationSize 0 ++ store.allocation.drop store.allocationSize
    initialized := (List.range store.slotCount).foldl (fun flags slot => flags.set slot 0)
      store.initialized
    prepared := none
    wasBound := false
    magic := true }

/-- What the owner of a lease changes in its store. -/
def overwrite (store : RoleStore) (allocation : List UInt8) (initialized : List ℕ)
    (prepared : Option ℕ) (wasBound : Bool) : RoleStore :=
  { store with
    allocation := allocation, initialized := initialized, prepared := prepared
    wasBound := wasBound }

end RoleStore

/-- What a client sees of its store. -/
structure RoleView where
  magic : Bool
  dataSize : ℕ
  slotCount : ℕ
  data : List UInt8
  initialized : List ℕ
  prepared : Option ℕ
  wasBound : Bool
  deriving DecidableEq

def RoleStore.view (store : RoleStore) : RoleView :=
  { store with
    data := (store.allocation.drop store.padding).take store.dataSize
    initialized := store.initialized.take store.slotCount }

/-- A store that nobody has touched: zero bytes, no slot initialised, not prepared, never bound. -/
def RoleView.untouched (layout : RoleLayout) : RoleView :=
  { magic := true
    dataSize := layout.dataSize
    slotCount := layout.slotCount
    data := List.replicate layout.dataSize 0
    initialized := List.replicate layout.slotCount 0
    prepared := none
    wasBound := false }

/-- Where a client is. -/
inductive RolePhase where
  | idle
  /-- The cache was empty; a store is still to be created. -/
  | allocating
  /-- The creation has failed; the lease is still to be returned. -/
  | failed
  /-- A cached store is still to be cleared. -/
  | clearing (id : ℕ)
  | leased (id : ℕ)
  /-- A destroyed store that was not retained is still to be freed. -/
  | freeing (id : ℕ)
  deriving DecidableEq

def RolePhase.reserves : RolePhase → Bool
  | allocating => true
  | failed => true
  | clearing _ => true
  | leased _ => true
  | _ => false

/-- A store is leased to the client. -/
def RolePhase.leases : RolePhase → Bool
  | leased _ => true
  | _ => false

/-- The client is inside `postgamma_backend_state_role_acquire`. -/
def RolePhase.acquiring : RolePhase → Bool
  | allocating => true
  | failed => true
  | clearing _ => true
  | _ => false

/-- The store is in the hands of the client. -/
def RolePhase.holds (id : ℕ) : RolePhase → Bool
  | clearing own => own = id
  | leased own => own = id
  | freeing own => own = id
  | _ => false

/-- The instance store with its clients; `cache` is the list behind `pool_head`. -/
structure RoleSystem (clients : ℕ) where
  cache : List ℕ
  bytes : ℕ
  leases : ℕ
  closed : Bool
  store : ℕ → RoleStore
  created : ℕ
  phase : Fin clients → RolePhase

/-- A step of one client. -/
inductive RoleAction (clients : ℕ) where
  | acquire (client : Fin clients)
  /-- The allocator returns an address, or fails. -/
  | create (client : Fin clients) (address : Option ℕ)
  | rollback (client : Fin clients)
  | clear (client : Fin clients)
  | write (client : Fin clients) (allocation : List UInt8) (initialized : List ℕ)
      (prepared : Option ℕ) (wasBound : Bool)
  | destroy (client : Fin clients)
  | free (client : Fin clients)
  /-- The instance store is destroyed. -/
  | close
  deriving DecidableEq

namespace RoleSystem

variable {clients : ℕ}

/-- A new instance store. -/
def init : RoleSystem clients :=
  { cache := [], bytes := 0, leases := 0, closed := false, store := fun _ => default
    created := 0, phase := fun _ => .idle }

def move (system : RoleSystem clients) (client : Fin clients) (phase : RolePhase) :
    RoleSystem clients :=
  { system with phase := Function.update system.phase client phase }

/-- The locked section of `postgamma_backend_state_role_acquire`. -/
def acquire (system : RoleSystem clients) (client : Fin clients) : RoleSystem clients :=
  match system.cache with
  | [] => { system.move client .allocating with leases := (system.leases + 1) % 2 ^ 64 }
  | id :: rest =>
      { system.move client (.clearing id) with
        cache := rest
        bytes := (system.bytes + 2 ^ 64 - (system.store id).charge) % 2 ^ 64
        leases := (system.leases + 1) % 2 ^ 64 }

/-- The locked section of `postgamma_backend_state_context_destroy` for a leased store. -/
def destroy (limit : ℕ) (system : RoleSystem clients) (client : Fin clients) (id : ℕ) :
    Except Violation (RoleSystem clients) :=
  let store := system.store id
  if store.magic = false then .error .contract
  else if system.leases = 0 then .error .contract
  else if store.charge ≤ limit ∧ system.bytes ≤ limit - store.charge then
    .ok
      { system.move client .idle with
        leases := system.leases - 1
        store := Function.update system.store id { store with magic := false }
        cache := id :: system.cache
        bytes := (system.bytes + store.charge) % 2 ^ 64 }
  else .ok { system.move client (.freeing id) with leases := system.leases - 1 }

/-- One step; `none` when the client is elsewhere. -/
def step (config : RoleConfig) (layout : RoleLayout) (system : RoleSystem clients) :
    RoleAction clients → Except Violation (Option (RoleSystem clients))
  | .acquire client =>
      if system.phase client = .idle ∧ system.closed = false then
        .ok (some (system.acquire client))
      else .ok none
  | .create client address =>
      match system.phase client, address with
      | .allocating, none => .ok (some (system.move client .failed))
      | .allocating, some address => do
          let store ← RoleStore.create config layout address
          .ok (some
            { system.move client (.leased system.created) with
              store := Function.update system.store system.created store
              created := system.created + 1 })
      | _, _ => .ok none
  | .rollback client =>
      match system.phase client with
      | .failed =>
          .ok (some
            { system.move client .idle with
              leases := (system.leases + 2 ^ 64 - 1) % 2 ^ 64 })
      | _ => .ok none
  | .clear client =>
      match system.phase client with
      | .clearing id =>
          .ok (some
            { system.move client (.leased id) with
              store := Function.update system.store id (system.store id).recycle })
      | _ => .ok none
  | .write client allocation initialized prepared wasBound =>
      match system.phase client with
      | .leased id =>
          if allocation.length = (system.store id).allocation.length ∧
              initialized.length = (system.store id).initialized.length then
            .ok (some
              { system with
                store := Function.update system.store id
                  ((system.store id).overwrite allocation initialized prepared wasBound) })
          else .ok none
      | _ => .ok none
  | .destroy client =>
      match system.phase client with
      | .leased id => (system.destroy config.limit client id).map some
      | _ => .ok none
  | .free client =>
      match system.phase client with
      | .freeing _ => .ok (some (system.move client .idle))
      | _ => .ok none
  | .close =>
      if system.closed = true then .ok none
      else if system.leases ≠ 0 then .error .contract
      else .ok (some { system with cache := [], bytes := 0, closed := true })

/-- The states that the steps of the clients lead to, in any order. -/
inductive Reachable (config : RoleConfig) (layout : RoleLayout) : RoleSystem clients → Prop
  | init : Reachable config layout init
  | step {system after : RoleSystem clients} {action : RoleAction clients}
      (before : Reachable config layout system)
      (taken : system.step config layout action = .ok (some after)) :
      Reachable config layout after

end RoleSystem

/-- The shape that a store of the layout keeps through all its lives. -/
structure RoleStore.Shaped (layout : RoleLayout) (store : RoleStore) : Prop where
  dataSize : store.dataSize = layout.dataSize
  slotCount : store.slotCount = layout.slotCount
  inside : store.dataSize ≠ 0 → store.padding + store.dataSize ≤ store.allocationSize
  covered : store.allocationSize ≤ store.allocation.length
  flagged : store.slotCount ≤ store.initialized.length

namespace RoleStore

variable {config : RoleConfig} {layout : RoleLayout}

/-- Zeroes up to a length show zeroes in every window inside. -/
theorem window_replicate {before size length : ℕ} (rest : List UInt8)
    (inside : size ≠ 0 → before + size ≤ length) :
    ((List.replicate length (0 : UInt8) ++ rest).drop before).take size = List.replicate size 0 := by
  by_cases empty : size = 0
  · rw [empty, List.take_zero, List.replicate_zero]
  · have fits := inside empty
    rw [List.drop_append_of_le_length (by simp; omega),
      List.take_append_of_le_length (by simp; omega), List.drop_replicate, List.take_replicate]
    congr 1
    omega

theorem length_foldl_set (count : ℕ) (flags : List ℕ) :
    ((List.range count).foldl (fun flags slot => flags.set slot 0) flags).length = flags.length := by
  induction count with
  | zero => rfl
  | succ count induction =>
      rw [List.range_succ, List.foldl_append, List.foldl_cons, List.foldl_nil, List.length_set,
        induction]

/-- The loop over the slots clears all of them. -/
theorem take_foldl_set (count : ℕ) {flags : List ℕ} (enough : count ≤ flags.length) :
    ((List.range count).foldl (fun flags slot => flags.set slot 0) flags).take count =
      List.replicate count 0 := by
  induction count with
  | zero => rfl
  | succ count induction =>
      have before := induction (by omega)
      have long := length_foldl_set count flags
      rw [List.range_succ, List.foldl_append, List.foldl_cons, List.foldl_nil]
      generalize (List.range count).foldl (fun flags slot => flags.set slot 0) flags = cleared
        at before long ⊢
      rw [List.take_add_one, List.take_set_of_le (Nat.le_refl count), before,
        List.getElem?_set_self (by omega), List.replicate_succ']
      rfl

theorem le_round_up {size page : ℕ} (positive : page ≠ 0) :
    size ≤ (size + page - 1) / page * page := by
  have parts := Nat.div_add_mod (size + page - 1) page
  have rest := Nat.mod_lt (size + page - 1) (Nat.pos_of_ne_zero positive)
  rw [Nat.mul_comm] at parts
  omega

theorem create_shaped {address : ℕ} {store : RoleStore}
    (created : create config layout address = .ok store) :
    store.Shaped layout ∧ store.view = .untouched layout := by
  have positive := layout.positive
  have padding := Nat.mod_lt (layout.alignment - address % layout.alignment) positive
  have flagged : layout.slotCount ≤ if layout.slotCount = 0 then 1 else layout.slotCount := by
    split <;> omega
  have inside : layout.dataSize ≠ 0 →
      (layout.alignment - address % layout.alignment) % layout.alignment + layout.dataSize ≤
        if layout.dataSize = 0 then 1 else layout.dataSize + layout.alignment - 1 := by
    intro some
    rw [if_neg some]
    omega
  unfold create at created
  generalize (if layout.dataSize = 0 then 1 else layout.dataSize + layout.alignment - 1) = size
    at created inside
  -- Both branches build the same store over an allocation that covers the size.
  have built {mappingSize length : ℕ} (covered : size ≤ length)
      (same : (⟨true, layout.dataSize, layout.slotCount,
        List.replicate (if layout.slotCount = 0 then 1 else layout.slotCount) 0,
        List.replicate length 0,
        (layout.alignment - address % layout.alignment) % layout.alignment, none, false, size,
        mappingSize⟩ : RoleStore) = store) :
      store.Shaped layout ∧ store.view = .untouched layout := by
    subst same
    refine ⟨⟨rfl, rfl, inside, by simpa using covered, by simpa using flagged⟩, ?_⟩
    simp only [view, RoleView.untouched, RoleView.mk.injEq, true_and, and_true]
    refine ⟨?_, ?_⟩
    · have shown := window_replicate [] fun some => (inside some).trans covered
      rwa [List.append_nil] at shown
    · rw [List.take_replicate, Nat.min_eq_left flagged]
  split at created
  · cases created
  · dsimp only at created
    split at created
    · split at created
      · cases created
      · rename_i small
        exact built (le_round_up (not_or.mp small).1) (Except.ok.inj created)
    · exact built (Nat.le_refl _) (Except.ok.inj created)

theorem recycle_view {store : RoleStore} (shaped : store.Shaped layout) :
    store.recycle.view = .untouched layout := by
  obtain ⟨dataSize, slotCount, inside, covered, flagged⟩ := shaped
  simp only [view, recycle, RoleView.untouched, RoleView.mk.injEq, true_and, and_true]
  refine ⟨dataSize, slotCount, ?_, ?_⟩
  · rw [window_replicate _ inside, dataSize]
  · rw [take_foldl_set _ flagged, slotCount]

theorem recycle_shaped {store : RoleStore} (shaped : store.Shaped layout) :
    store.recycle.Shaped layout := by
  refine
    { dataSize := shaped.dataSize, slotCount := shaped.slotCount, inside := shaped.inside
      covered := ?_, flagged := ?_ }
  · simp [recycle]
  · change store.slotCount ≤ List.length (List.foldl ..)
    rw [length_foldl_set]
    exact shaped.flagged

end RoleStore

namespace RoleSystem

variable {clients : ℕ} {config : RoleConfig} {layout : RoleLayout}

/-- The counters are right, and every store is in one place. -/
structure Sound (config : RoleConfig) (layout : RoleLayout) (system : RoleSystem clients) :
    Prop where
  shaped : ∀ id < system.created, (system.store id).Shaped layout
  magic : ∀ client id, system.phase client = .leased id → (system.store id).magic = true
  placed : ∀ id, system.cache.count id +
    total (fun phase => (RolePhase.holds id phase).toNat) system.phase ≤
      if id < system.created then 1 else 0
  bytes : system.bytes = (system.cache.map fun id => (system.store id).charge).sum
  bytesBound : system.bytes ≤ config.limit
  leases : system.leases = census RolePhase.reserves system.phase

theorem init_sound : (init : RoleSystem clients).Sound config layout := by
  refine
    { shaped := nofun, magic := nofun, placed := fun id => ?_, bytes := rfl
      bytesBound := Nat.zero_le _, leases := ?_ }
  · simp [init, total, RolePhase.holds]
  · simp [init, census, RolePhase.reserves]

section Places

variable {system : RoleSystem clients} {client : Fin clients} {id : ℕ}

/-- A held store was created and is not cached. -/
theorem Sound.held (sound : system.Sound config layout)
    (holds : (system.phase client).holds id = true) : id < system.created ∧ id ∉ system.cache := by
  have placed := sound.placed id
  have here := entry_le_total (fun phase => (RolePhase.holds id phase).toNat) system.phase client
  simp only [holds, Bool.toNat_true] at here
  split at placed
  · rename_i inside
    exact ⟨inside, List.count_eq_zero.mp (by omega)⟩
  · omega

theorem Sound.cached (sound : system.Sound config layout) (member : id ∈ system.cache) :
    id < system.created := by
  have placed := sound.placed id
  have here := List.count_pos_iff.mpr member
  split at placed
  · assumption
  · omega

/-- A store is in the hands of one client. -/
theorem Sound.one_client (sound : system.Sound config layout) {other : Fin clients}
    (here : (system.phase client).holds id = true)
    (there : (system.phase other).holds id = true) : client = other := by
  by_contra apart
  have placed := sound.placed id
  have without := total_update (fun phase => (RolePhase.holds id phase).toNat) system.phase client
    .idle
  have rest := entry_le_total (fun phase => (RolePhase.holds id phase).toNat)
    (Function.update system.phase client .idle) other
  rw [Function.update_of_ne (Ne.symm apart)] at rest
  have none : (RolePhase.holds id .idle).toNat = 0 := rfl
  simp only [here, there, Bool.toNat_true] at without rest
  split at placed <;> omega

end Places

/-- A step of one client that moves the counters with what it moves. -/
structure Changes (config : RoleConfig) (layout : RoleLayout) (system after : RoleSystem clients)
    (client : Fin clients) (phase : RolePhase) : Prop where
  phases : after.phase = Function.update system.phase client phase
  created : system.created ≤ after.created
  shaped : ∀ id < after.created, after.store id = system.store id ∧ id < system.created ∨
    (after.store id).Shaped layout
  own : ∀ id, after.store id = system.store id ∨ system.created ≤ id ∨
    (system.phase client).holds id = true
  magic : ∀ id, phase = .leased id → (after.store id).magic = true
  placed : ∀ id, after.cache.count id + (phase.holds id).toNat +
      (if id < system.created then 1 else 0) ≤
    system.cache.count id + ((system.phase client).holds id).toNat +
      (if id < after.created then 1 else 0)
  bytes : after.bytes = (after.cache.map fun id => (after.store id).charge).sum
  bytesBound : after.bytes ≤ config.limit
  leases : after.leases + (system.phase client).reserves.toNat =
    system.leases + phase.reserves.toNat

theorem Changes.sound {system after : RoleSystem clients} (client : Fin clients)
    (phase : RolePhase) (changes : Changes config layout system after client phase)
    (sound : system.Sound config layout) : after.Sound config layout := by
  refine
    { shaped := fun id inside => ?_, magic := fun other id leased => ?_, placed := fun id => ?_
      bytes := changes.bytes, bytesBound := changes.bytesBound, leases := ?_ }
  · rcases changes.shaped id inside with ⟨same, known⟩ | shaped
    · rw [same]
      exact sound.shaped id known
    · exact shaped
  · rw [changes.phases] at leased
    by_cases here : other = client
    · rw [here, Function.update_self] at leased
      exact changes.magic id leased
    · rw [Function.update_of_ne here] at leased
      have holds : (system.phase other).holds id = true := by simp [leased, RolePhase.holds]
      rcases changes.own id with same | new | mine
      · rw [same]
        exact sound.magic other id leased
      · exact absurd (sound.held holds).1 (Nat.not_lt.mpr new)
      · exact absurd (sound.one_client holds mine) here
  · have counted := total_update (fun phase => (RolePhase.holds id phase).toNat) system.phase
      client phase
    have before := sound.placed id
    have change := changes.placed id
    rw [changes.phases]
    omega
  · have counted := census_update RolePhase.reserves system.phase client phase
    have before := sound.leases
    have change := changes.leases
    rw [changes.phases]
    omega

section Steps

variable {system : RoleSystem clients} {client : Fin clients}

/-- The charges of the cached stores do not change with a store that is not cached. -/
theorem charges_update {store : ℕ → RoleStore} {id : ℕ} {new : RoleStore} {cache : List ℕ}
    (absent : id ∉ cache) :
    (cache.map fun own => (Function.update store id new own).charge).sum =
      (cache.map fun own => (store own).charge).sum := by
  congr 1
  refine List.map_congr_left fun own member => ?_
  rw [Function.update_of_ne]
  rintro rfl
  exact absent member

/-- A change of the phase alone. -/
theorem Sound.pass (sound : system.Sound config layout) {phase : RolePhase} (leases : ℕ)
    (held : ∀ id, phase.holds id = true → (system.phase client).holds id = true)
    (magic : ∀ id, phase = .leased id → (system.store id).magic = true)
    (counted : leases + (system.phase client).reserves.toNat =
      system.leases + phase.reserves.toNat) :
    ({ system.move client phase with leases := leases } : RoleSystem clients).Sound config
      layout := by
  suffices changes : Changes config layout system { system.move client phase with leases := leases }
      client phase from changes.sound _ _ sound
  refine
    { phases := rfl, created := Nat.le_refl _, shaped := fun id inside => .inl ⟨rfl, inside⟩
      own := fun id => .inl rfl, magic := magic, placed := fun id => ?_, bytes := sound.bytes
      bytesBound := sound.bytesBound, leases := counted }
  have less : (phase.holds id).toNat ≤ ((system.phase client).holds id).toNat := by
    cases own : phase.holds id with
    | false => exact Nat.zero_le _
    | true => rw [held id own]
  exact Nat.add_le_add_right (Nat.add_le_add_left less _) _

/-- A change of one store in the hands of its client. -/
theorem Sound.edit (sound : system.Sound config layout) {phase : RolePhase} {id : ℕ}
    {store : RoleStore} (holds : (system.phase client).holds id = true)
    (next : phase = .leased id) (shaped : store.Shaped layout) (magic : store.magic = true)
    (counted : (system.phase client).reserves = true) :
    ({ system.move client phase with store := Function.update system.store id store } :
      RoleSystem clients).Sound config layout := by
  obtain ⟨known, absent⟩ := sound.held holds
  suffices changes : Changes config layout system
      { system.move client phase with store := Function.update system.store id store }
      client phase from changes.sound _ _ sound
  subst next
  refine
    { phases := rfl, created := Nat.le_refl _, shaped := fun own inside => ?_
      own := fun own => ?_, magic := fun own leased => ?_, placed := fun own => ?_, bytes := ?_
      bytesBound := sound.bytesBound, leases := ?_ }
  · by_cases same : own = id
    · right
      change (Function.update system.store id store own).Shaped layout
      rwa [same, Function.update_self]
    · exact .inl ⟨Function.update_of_ne same .., inside⟩
  · by_cases same : own = id
    · exact .inr (.inr (same ▸ holds))
    · exact .inl (Function.update_of_ne same ..)
  · obtain rfl := RolePhase.leased.inj leased
    change (Function.update system.store id store id).magic = true
    rwa [Function.update_self]
  · have less : ((RolePhase.leased id).holds own).toNat ≤
        ((system.phase client).holds own).toNat := by
      by_cases same : id = own
      · rw [← same, holds]
        simp [RolePhase.holds]
      · simp [RolePhase.holds, same]
    exact Nat.add_le_add_right (Nat.add_le_add_left less _) _
  · change system.bytes = _
    rw [sound.bytes]
    exact (charges_update absent).symm
  · rw [counted]
    rfl

theorem Sound.room (sound : system.Sound config layout) (few : clients < 2 ^ 64)
    (idle : (system.phase client).reserves = false) :
    (system.leases + 1) % 2 ^ 64 = system.leases + 1 := by
  have below := census_lt_card idle
  rw [Fintype.card_fin, ← sound.leases] at below
  exact Nat.mod_eq_of_lt (by omega)

/-- A store that leaves the cache takes its charge along without a wrap. -/
theorem Sound.pop (sound : system.Sound config layout) (bound : config.limit < 2 ^ 64) {id : ℕ}
    {rest : List ℕ} (head : system.cache = id :: rest) :
    (system.bytes + 2 ^ 64 - (system.store id).charge) % 2 ^ 64 =
        system.bytes - (system.store id).charge ∧
      system.bytes =
        (system.store id).charge + (rest.map fun own => (system.store own).charge).sum := by
  have sum := sound.bytes
  rw [head, List.map_cons, List.sum_cons] at sum
  exact ⟨sub_no_wrap (sound.bytesBound.trans_lt bound) (by omega), sum⟩

theorem acquire_sound (sound : system.Sound config layout) (bound : config.limit < 2 ^ 64)
    (few : clients < 2 ^ 64) (idle : system.phase client = .idle) :
    (system.acquire client).Sound config layout := by
  have unreserved : (system.phase client).reserves = false := by rw [idle]; rfl
  have room := sound.room few unreserved
  unfold acquire
  split
  · rw [room]
    refine sound.pass _ nofun nofun ?_
    rw [idle]
    rfl
  · rename_i id rest head
    obtain ⟨popped, sum⟩ := sound.pop bound head
    rw [room, popped]
    refine Changes.sound client (.clearing id) ?_ sound
    refine
      { phases := rfl, created := Nat.le_refl _, shaped := fun own inside => .inl ⟨rfl, inside⟩
        own := fun own => .inl rfl, magic := nofun, placed := fun own => ?_, bytes := ?_
        bytesBound := (Nat.sub_le ..).trans sound.bytesBound, leases := ?_ }
    · rw [head, idle, List.count_cons]
      change rest.count own + _ + _ ≤ rest.count own + _ + 0 + _
      by_cases same : id = own
      · simp [RolePhase.holds, same, move]
      · simp only [RolePhase.holds, same, decide_false, Bool.toNat_false, move]
        exact Nat.add_le_add_right (by simp [same]) _
    · change system.bytes - (system.store id).charge =
        (rest.map fun own => (system.store own).charge).sum
      omega
    · rw [idle]
      rfl

/-- A new store joins with its client. -/
theorem create_sound (sound : system.Sound config layout)
    (allocating : system.phase client = .allocating) {address : ℕ} {store : RoleStore}
    (created : RoleStore.create config layout address = .ok store) :
    ({ system.move client (.leased system.created) with
        store := Function.update system.store system.created store
        created := system.created + 1 } : RoleSystem clients).Sound config layout := by
  obtain ⟨shaped, view⟩ := RoleStore.create_shaped created
  have absent : system.created ∉ system.cache :=
    fun member => absurd (sound.cached member) (Nat.lt_irrefl _)
  refine Changes.sound client (.leased system.created) ?_ sound
  refine
    { phases := rfl, created := Nat.le_succ _, shaped := fun own inside => ?_
      own := fun own => ?_, magic := fun own leased => ?_, placed := fun own => ?_, bytes := ?_
      bytesBound := sound.bytesBound, leases := ?_ }
  · by_cases same : own = system.created
    · right
      change (Function.update system.store system.created store own).Shaped layout
      rwa [same, Function.update_self]
    · refine .inl ⟨Function.update_of_ne same .., ?_⟩
      change own < system.created + 1 at inside
      omega
  · by_cases same : own = system.created
    · exact .inr (.inl same.ge)
    · exact .inl (Function.update_of_ne same ..)
  · obtain rfl := RolePhase.leased.inj leased
    change (Function.update system.store system.created store system.created).magic = true
    rw [Function.update_self]
    exact congrArg RoleView.magic view
  · rw [allocating]
    change system.cache.count own + _ + _ ≤ system.cache.count own + 0 +
      if own < system.created + 1 then 1 else 0
    by_cases same : system.created = own
    · simp [RolePhase.holds, same]
    · simp only [RolePhase.holds, same, decide_false, Bool.toNat_false]
      split_ifs <;> omega
  · change system.bytes = _
    rw [sound.bytes]
    exact (charges_update absent).symm
  · rw [allocating]
    rfl

/-- A destroyed store joins the cache within the limit, or stays with its client to be freed. -/
theorem destroy_sound (sound : system.Sound config layout) (bound : config.limit < 2 ^ 64) {id : ℕ}
    (leased : system.phase client = .leased id) :
    ∃ after, system.destroy config.limit client id = .ok after ∧ after.Sound config layout := by
  have holds : (system.phase client).holds id = true := by simp [leased, RolePhase.holds]
  have magic := sound.magic client id leased
  obtain ⟨known, absent⟩ := sound.held holds
  have counted : system.leases ≠ 0 := by
    rw [sound.leases]
    exact (census_pos client (by rw [leased]; rfl)).ne'
  unfold destroy
  dsimp only
  rw [if_neg (by simp [magic]), if_neg counted]
  split
  · rename_i fits
    refine ⟨_, rfl, ?_⟩
    have sum : (system.bytes + (system.store id).charge) % 2 ^ 64 =
        system.bytes + (system.store id).charge :=
      Nat.mod_eq_of_lt (lt_of_le_of_lt (by omega) bound)
    rw [sum]
    refine Changes.sound client .idle ?_ sound
    refine
      { phases := rfl, created := Nat.le_refl _, shaped := fun own inside => ?_
        own := fun own => ?_, magic := nofun, placed := fun own => ?_, bytes := ?_
        bytesBound := ?_, leases := ?_ }
    · by_cases same : own = id
      · right
        change (Function.update system.store id _ own).Shaped layout
        rw [same, Function.update_self]
        have shaped := sound.shaped id known
        exact ⟨shaped.dataSize, shaped.slotCount, shaped.inside, shaped.covered, shaped.flagged⟩
      · exact .inl ⟨Function.update_of_ne same .., inside⟩
    · by_cases same : own = id
      · exact .inr (.inr (same ▸ holds))
      · exact .inl (Function.update_of_ne same ..)
    · rw [leased]
      change (id :: system.cache).count own + 0 + _ ≤ _
      rw [List.count_cons]
      by_cases same : id = own
      · simp only [RolePhase.holds, same, decide_true, Bool.toNat_true, move]
        exact Nat.add_le_add_right (by simp) _
      · simp only [RolePhase.holds, same, decide_false, Bool.toNat_false, move]
        exact Nat.add_le_add_right (by simp [same]) _
    · change system.bytes + (system.store id).charge = _
      rw [List.map_cons, List.sum_cons, charges_update absent, sound.bytes, Nat.add_comm]
      simp only [Function.update_self]
      rfl
    · change system.bytes + (system.store id).charge ≤ config.limit
      omega
    · rw [leased]
      change system.leases - 1 + 1 = system.leases + 0
      omega
  · refine ⟨_, rfl, ?_⟩
    refine sound.pass _ ?_ nofun ?_
    · intro own freed
      rw [leased]
      exact freed
    · rw [leased]
      change system.leases - 1 + 1 = system.leases + 0
      omega

/-- A client that moves on is the only one whose lease may be new. -/
theorem new_lease {after : RoleSystem clients} {phase : RolePhase}
    (moved : after.phase = Function.update system.phase client phase) {other : Fin clients} {id : ℕ}
    (now : after.phase other = .leased id) (before : system.phase other ≠ .leased id) :
    phase = .leased id := by
  rw [moved] at now
  by_cases here : other = client
  · rwa [here, Function.update_self] at now
  · rw [Function.update_of_ne here] at now
    exact absurd now before

/-- A step keeps the accounts, and a store that it hands out is untouched. -/
theorem step_sound (sound : system.Sound config layout) (bound : config.limit < 2 ^ 64)
    (few : clients < 2 ^ 64) {action : RoleAction clients} {after : RoleSystem clients}
    (taken : system.step config layout action = .ok (some after)) :
    after.Sound config layout ∧
      ∀ client id, after.phase client = .leased id → system.phase client ≠ .leased id →
        (after.store id).view = .untouched layout := by
  cases action with
  | acquire client =>
      rw [step] at taken
      split at taken
      · rename_i able
        obtain rfl := Option.some.inj (Except.ok.inj taken)
        refine ⟨acquire_sound sound bound few able.1, fun other id now before => ?_⟩
        unfold acquire at now
        split at now
        · cases new_lease rfl now before
        · cases new_lease rfl now before
      · cases taken
  | create client address =>
      cases phase : system.phase client with
      | allocating =>
          cases address with
          | none =>
              simp only [step, phase, Except.ok.injEq, Option.some.injEq] at taken
              subst taken
              refine ⟨sound.pass system.leases nofun nofun ?_,
                fun other id now before => ?_⟩
              · rw [phase]
                rfl
              · cases new_lease rfl now before
          | some address =>
              simp only [step, phase] at taken
              cases created : RoleStore.create config layout address with
              | error problem =>
                  rw [created] at taken
                  cases taken
              | ok store =>
                  rw [created] at taken
                  obtain rfl := Option.some.inj (Except.ok.inj taken)
                  refine ⟨create_sound sound phase created, fun other id now before => ?_⟩
                  obtain rfl := RolePhase.leased.inj (new_lease rfl now before)
                  change (Function.update system.store _ store _).view = _
                  rw [Function.update_self]
                  exact (RoleStore.create_shaped created).2
      | _ => simp [step, phase] at taken
  | rollback client =>
      cases phase : system.phase client with
      | failed =>
          simp only [step, phase, Except.ok.injEq, Option.some.injEq] at taken
          subst taken
          have reserved : (system.phase client).reserves = true := by rw [phase]; rfl
          have counted := census_pos client reserved
          have below : system.leases ≤ clients := by
            rw [sound.leases, census_eq_card]
            exact (Finset.card_le_univ _).trans_eq (Fintype.card_fin clients)
          rw [← sound.leases] at counted
          rw [sub_no_wrap (below.trans_lt few) counted]
          refine ⟨sound.pass _ nofun nofun ?_, fun other id now before => ?_⟩
          · rw [phase]
            change system.leases - 1 + 1 = system.leases + 0
            omega
          · cases new_lease rfl now before
      | _ => simp [step, phase] at taken
  | clear client =>
      cases phase : system.phase client with
      | clearing id =>
          simp only [step, phase, Except.ok.injEq, Option.some.injEq] at taken
          subst taken
          have holds : (system.phase client).holds id = true := by simp [phase, RolePhase.holds]
          have shaped := sound.shaped id (sound.held holds).1
          refine ⟨sound.edit holds rfl (RoleStore.recycle_shaped shaped) rfl (by rw [phase]; rfl),
            fun other own now before => ?_⟩
          obtain rfl := RolePhase.leased.inj (new_lease rfl now before)
          change (Function.update system.store id _ id).view = _
          rw [Function.update_self]
          exact RoleStore.recycle_view shaped
      | _ => simp [step, phase] at taken
  | write client allocation initialized prepared wasBound =>
      cases phase : system.phase client with
      | leased id =>
          simp only [step, phase] at taken
          split at taken
          · rename_i sizes
            obtain rfl := Option.some.inj (Except.ok.inj taken)
            have holds : (system.phase client).holds id = true := by simp [phase, RolePhase.holds]
            have shaped := sound.shaped id (sound.held holds).1
            have written : ((system.store id).overwrite allocation initialized prepared
                wasBound).Shaped layout :=
              ⟨shaped.dataSize, shaped.slotCount, shaped.inside, sizes.1 ▸ shaped.covered,
                sizes.2 ▸ shaped.flagged⟩
            have edited := sound.edit holds rfl written (sound.magic client id phase)
              (by rw [phase]; rfl)
            have still : system.move client (.leased id) = system := by
              rw [move, ← phase, Function.update_eq_self]
            rw [still] at edited
            exact ⟨edited, fun other own now before => absurd now before⟩
          · cases taken
      | _ => simp [step, phase] at taken
  | destroy client =>
      cases phase : system.phase client with
      | leased id =>
          obtain ⟨next, destroyed, kept⟩ := destroy_sound sound bound phase
          simp only [step, phase, destroyed] at taken
          obtain rfl := Option.some.inj (Except.ok.inj taken)
          refine ⟨kept, fun other own now before => ?_⟩
          unfold destroy at destroyed
          dsimp only at destroyed
          split_ifs at destroyed <;> obtain rfl := Except.ok.inj destroyed
          · cases new_lease rfl now before
          · cases new_lease rfl now before
      | _ => simp [step, phase] at taken
  | free client =>
      cases phase : system.phase client with
      | freeing id =>
          simp only [step, phase, Except.ok.injEq, Option.some.injEq] at taken
          subst taken
          refine ⟨sound.pass system.leases nofun nofun ?_,
            fun other own now before => ?_⟩
          · rw [phase]
            rfl
          · cases new_lease rfl now before
      | _ => simp [step, phase] at taken
  | close =>
      simp only [step] at taken
      split_ifs at taken
      · cases taken
      obtain rfl := Option.some.inj (Except.ok.inj taken)
      refine ⟨?_, fun other own now before => absurd now before⟩
      refine
        { shaped := sound.shaped, magic := sound.magic, placed := fun id => ?_, bytes := rfl
          bytesBound := Nat.zero_le _, leases := sound.leases }
      have placed := sound.placed id
      refine le_trans ?_ placed
      simp

end Steps

theorem Reachable.sound {system : RoleSystem clients} (reached : Reachable config layout system)
    (bound : config.limit < 2 ^ 64) (few : clients < 2 ^ 64) : system.Sound config layout := by
  induction reached with
  | init => exact init_sound
  | step before taken induction => exact (step_sound induction bound few taken).1

/-- The leases are the leased stores and the acquisitions that are under way. -/
theorem census_reserves (phases : Fin clients → RolePhase) : census RolePhase.reserves phases =
    census RolePhase.leases phases + census RolePhase.acquiring phases := by
  unfold census
  rw [← Finset.sum_add_distrib]
  refine Finset.sum_congr rfl fun client _ => ?_
  cases phases client <;> rfl

theorem Sound.nodup {system : RoleSystem clients} (sound : system.Sound config layout) :
    system.cache.Nodup := by
  refine List.nodup_iff_count_le_one.mpr fun id => ?_
  have placed := sound.placed id
  split at placed <;> omega

/-- A recycled store shows nothing of its earlier lives, and the accounts of the cache are right. -/
theorem role_cache_sound (bound : config.limit < 2 ^ 64) (few : clients < 2 ^ 64)
    {system : RoleSystem clients} (reached : Reachable config layout system) :
    (∀ action after client id, system.step config layout action = .ok (some after) →
        after.phase client = .leased id → system.phase client ≠ .leased id →
          (after.store id).view = .untouched layout ∧
            ∀ address fresh, RoleStore.create config layout address = .ok fresh →
              (after.store id).view = fresh.view) ∧
      (∀ client id, (system.phase client).holds id = true → id ∉ system.cache) ∧
      (∀ client other id, (system.phase client).holds id = true →
        (system.phase other).holds id = true → client = other) ∧
      system.cache.Nodup ∧
      system.bytes = (system.cache.map fun id => (system.store id).charge).sum ∧
      system.bytes ≤ config.limit ∧
      (∀ client id rest, system.cache = id :: rest →
        (system.acquire client).bytes + (system.store id).charge = system.bytes) ∧
      (∀ client id after, system.destroy config.limit client id = .ok after →
        after.cache = id :: system.cache →
          after.bytes = system.bytes + (system.store id).charge) ∧
      system.leases =
        census RolePhase.leases system.phase + census RolePhase.acquiring system.phase := by
  have sound := reached.sound bound few
  refine ⟨?_, fun client id holds => (sound.held holds).2, fun client other id here there =>
    sound.one_client here there, sound.nodup, sound.bytes, sound.bytesBound, ?_, ?_, ?_⟩
  · intro action after client id taken now before
    have view := (step_sound sound bound few taken).2 client id now before
    refine ⟨view, fun address fresh created => ?_⟩
    rw [view, (RoleStore.create_shaped created).2]
  · intro client id rest head
    obtain ⟨popped, sum⟩ := sound.pop bound head
    simp only [acquire, head]
    rw [popped]
    omega
  · intro client id after destroyed retained
    unfold destroy at destroyed
    dsimp only at destroyed
    split_ifs at destroyed with _ _ fits <;> obtain rfl := Except.ok.inj destroyed
    · exact Nat.mod_eq_of_lt (lt_of_le_of_lt (by omega) bound)
    · have longer := congrArg List.length retained
      simp [move] at longer
  · rw [sound.leases, census_reserves]

/-- A store that one client has written is recycled for another. -/
theorem role_cache_sound_recycled : ∃ system after : RoleSystem 2,
    Reachable ⟨true, 4096, 1024⟩ ⟨8, 2, 4, by decide⟩ system ∧
      system.step ⟨true, 4096, 1024⟩ ⟨8, 2, 4, by decide⟩ (.clear 1) = .ok (some after) ∧
      (system.store 0).wasBound = true ∧ (after.store 0).view = .untouched ⟨8, 2, 4, by decide⟩ := by
  have facts : (runs (step ⟨true, 4096, 1024⟩ ⟨8, 2, 4, by decide⟩) (init : RoleSystem 2)
      [.acquire 0, .create 0 (some 6), .write 0 (List.replicate 11 7) [1, 2] (some 3) true,
        .destroy 0, .acquire 1]).map (fun system => (system.phase 1, (system.store 0).wasBound)) =
      some (.clearing 0, true) := by decide
  obtain ⟨system, ran, seen⟩ := Option.map_eq_some_iff.mp facts
  obtain ⟨phase, bound⟩ := Prod.mk.inj seen
  have reached : Reachable ⟨true, 4096, 1024⟩ ⟨8, 2, 4, by decide⟩ system :=
    runs_preserves Reachable.step .init ran
  have taken : system.step ⟨true, 4096, 1024⟩ ⟨8, 2, 4, by decide⟩ (.clear 1) = .ok (some
      { system.move 1 (.leased 0) with
        store := Function.update system.store 0 (system.store 0).recycle }) := by
    simp only [step, phase]
  refine ⟨system, _, reached, taken, bound, ?_⟩
  refine ((role_cache_sound (by decide) (by decide) reached).1 _ _ 1 0 taken ?_ ?_).1
  · simp [move]
  · rw [phase]
    nofun

end RoleSystem

end Postgamma.Runtime
