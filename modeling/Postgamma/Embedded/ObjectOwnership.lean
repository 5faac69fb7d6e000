import Mathlib
import Postgamma.Embedded.RequestAccounting
import Postgamma.Library.Census

/-!
# Ownership of the objects

Connections, requests, statements and COPY objects point at each other, and a lease counts its
holders: the request, and the result or COPY object that was handed out for it.
-/

namespace Postgamma.Embedded.Api

/-- A statement of a connection. -/
def belongs (connection : ℕ) : Option PublicStatement → Bool
  | none => false
  | some statement => statement.connection = connection

def resultHolds (lease : ℕ) : Option PublicResult → Bool
  | none => false
  | some result => result.lease = lease

def copyHolds (lease : ℕ) : Option PublicCopy → Bool
  | none => false
  | some copy => copy.lease = some lease

/-- The results and COPY objects that hold a lease. -/
def objects (api : Api) (lease : ℕ) : ℕ :=
  tally (resultHolds lease) api.next api.results + tally (copyHolds lease) api.next api.copies

def statementsOf (api : Api) (connection : ℕ) : ℕ :=
  tally (belongs connection) api.next api.statements

/-- Nothing is behind the next address. -/
structure Fresh (api : Api) : Prop where
  connections : ∀ address, api.next ≤ address → api.connections address = none
  statements : ∀ address, api.next ≤ address → api.statements address = none
  requests : ∀ address, api.next ≤ address → api.requests address = none
  leases : ∀ address, api.next ≤ address → api.leases address = none
  results : ∀ address, api.next ≤ address → api.results address = none
  copies : ∀ address, api.next ≤ address → api.copies address = none

/-- The objects point at live objects that point back; a COPY object that is about to be freed may
be spared. -/
structure Linked (spared : Option ℕ) (api : Api) : Prop where
  active : ∀ address request, api.requests address = some request →
    ∃ connection, api.connections request.connection = some connection ∧
      connection.activeRequest = some address
  pointed : ∀ address connection request, api.connections address = some connection →
    connection.activeRequest = some request →
    ∃ record, api.requests request = some record ∧ record.connection = address
  statementCount : ∀ address connection, api.connections address = some connection →
    connection.statementCount = api.statementsOf address
  homeless : ∀ address, api.connections address = none → api.statementsOf address = 0
  connectionCount : api.connectionCount = tally Option.isSome api.next api.connections
  copies : ∀ address copy, api.copies address = some copy → spared ≠ some address →
    ∃ request, api.requests copy.request = some request ∧
      (copy.released = false → request.activeCopy = some address) ∧
      (copy.released = true → request.activeCopy = none ∧ request.freePending = true)
  activeCopies : ∀ address request copy, api.requests address = some request →
    request.activeCopy = some copy →
    ∃ record, api.copies copy = some record ∧ record.request = address ∧ record.released = false
  single : ∀ first second firstCopy secondCopy, api.copies first = some firstCopy →
    api.copies second = some secondCopy → firstCopy.request = secondCopy.request → first = second
  copyLease : ∀ address copy, api.copies address = some copy →
    copy.lease = if copy.released = true then none else some copy.request

/-- A lease counts its holders, and a lease without holders is freed. -/
def LeaseFits (lease : Option ResultLease) (address : ℕ) (live : Bool) (objects : ℕ)
    (started freed : Prop) : Prop :=
  match lease with
  | none => live = false ∧ objects = 0 ∧ (freed ↔ started)
  | some lease =>
      lease.references = live.toNat + objects ∧ 0 < lease.references ∧
        objects = lease.outstanding.toNat ∧
        lease.owner = (if live = true then some address else none) ∧ started ∧ ¬freed

/-- Every lease counts its holders and is freed once. -/
structure Leased (api : Api) : Prop where
  fits : ∀ address, LeaseFits (api.leases address) address (api.requests address).isSome
    (api.objects address) (address ∈ api.started) (address ∈ api.freed)
  freedNodup : api.freed.Nodup

/-- What every call keeps. -/
structure Sound (spared : Option ℕ) (api : Api) : Prop where
  accounted : api.Accounted
  fresh : api.Fresh
  linked : api.Linked spared
  leased : api.Leased

variable {api : Api} {address : ℕ} {spared : Option ℕ}

theorem found_of_map {α β : Type} {view : α → β} {first second : Option α} {entry : α}
    (same : first.map view = second.map view) (found : first = some entry) :
    ∃ old, second = some old ∧ view old = view entry := by
  rw [found, Option.map_some] at same
  exact Option.map_eq_some_iff.1 same.symm

theorem none_of_map {α β : Type} {view : α → β} {first second : Option α}
    (same : first.map view = second.map view) : first = none ↔ second = none := by
  rw [← Option.map_eq_none_iff (f := view), same, Option.map_eq_none_iff]

theorem isSome_of_map {α β : Type} {view : α → β} {first second : Option α}
    (same : first.map view = second.map view) : first.isSome = second.isSome := by
  rw [← Option.isSome_map (f := view), same, Option.isSome_map]

theorem belongs_of_map {connection : ℕ} {first second : Option PublicStatement}
    (same : first.map statementLinks = second.map statementLinks) :
    belongs connection first = belongs connection second := by
  cases first with
  | none => rw [(none_of_map same).1 rfl]
  | some statement =>
      obtain ⟨old, rfl, links⟩ := found_of_map same rfl
      simp only [belongs]
      exact congrArg (fun home => decide (home = connection)) (Prod.ext_iff.1 links).1.symm

variable {before after : Api}

theorem keeps_fresh (keeps : Keeps address before after) (fresh : before.Fresh) : after.Fresh where
  connections := fun other behind =>
    (none_of_map (keeps.connections other)).2 (fresh.connections other (keeps.next ▸ behind))
  statements := fun other behind =>
    (none_of_map (keeps.statements other)).2 (fresh.statements other (keeps.next ▸ behind))
  requests := fun other behind =>
    (none_of_map (keeps.request other)).2 (fresh.requests other (keeps.next ▸ behind))
  leases := fun other behind => keeps.leases ▸ fresh.leases other (keeps.next ▸ behind)
  results := fun other behind => keeps.results ▸ fresh.results other (keeps.next ▸ behind)
  copies := fun other behind => keeps.copies ▸ fresh.copies other (keeps.next ▸ behind)

theorem keeps_statementsOf (keeps : Keeps address before after)
    (connection : ℕ) : after.statementsOf connection = before.statementsOf connection := by
  rw [statementsOf, statementsOf, keeps.next]
  exact tally_congr fun other _ => belongs_of_map (keeps.statements other)

theorem keeps_linked (keeps : Keeps address before after)
    (linked : before.Linked spared) : after.Linked spared where
  active := by
    intro other request found
    obtain ⟨old, known, links⟩ := found_of_map (keeps.request other) found
    obtain ⟨connection, home, points⟩ := linked.active other old known
    obtain ⟨later, found', links'⟩ := found_of_map (keeps.connections old.connection).symm home
    simp only [requestLinks, connectionLinks, Prod.mk.injEq] at links links'
    exact ⟨later, links.1 ▸ found', links'.2.1.trans points⟩
  pointed := by
    intro other connection request found points
    obtain ⟨old, known, links⟩ := found_of_map (keeps.connections other) found
    simp only [connectionLinks, Prod.mk.injEq] at links
    obtain ⟨record, live, home⟩ := linked.pointed other old request known (links.2.1.trans points)
    obtain ⟨later, found', links'⟩ := found_of_map (keeps.request request).symm live
    simp only [requestLinks, Prod.mk.injEq] at links'
    exact ⟨later, found', links'.1.trans home⟩
  statementCount := by
    intro other connection found
    obtain ⟨old, known, links⟩ := found_of_map (keeps.connections other) found
    simp only [connectionLinks, Prod.mk.injEq] at links
    rw [keeps_statementsOf keeps, ← links.2.2]
    exact linked.statementCount other old known
  homeless := by
    intro other missing
    rw [keeps_statementsOf keeps]
    exact linked.homeless other ((none_of_map (keeps.connections other)).1 missing)
  connectionCount := by
    rw [keeps.connectionCount, linked.connectionCount, keeps.next]
    exact tally_congr fun other _ => (isSome_of_map (keeps.connections other)).symm
  copies := by
    intro other copy found notSpared
    rw [keeps.copies] at found
    obtain ⟨request, live, points, waits⟩ := linked.copies other copy found notSpared
    obtain ⟨later, found', links'⟩ := found_of_map (keeps.request copy.request).symm live
    simp only [requestLinks, Prod.mk.injEq] at links'
    refine ⟨later, found', fun open' => links'.2.2.1.trans (points open'), fun released => ?_⟩
    exact ⟨links'.2.2.1.trans (waits released).1, links'.2.2.2.trans (waits released).2⟩
  activeCopies := by
    intro other request copy found points
    obtain ⟨old, known, links⟩ := found_of_map (keeps.request other) found
    simp only [requestLinks, Prod.mk.injEq] at links
    rw [keeps.copies]
    exact linked.activeCopies other old copy known (links.2.2.1.trans points)
  single := by
    rw [keeps.copies]
    exact linked.single
  copyLease := by
    rw [keeps.copies]
    exact linked.copyLease

theorem keeps_leased (keeps : Keeps address before after)
    (leased : before.Leased) : after.Leased where
  fits := by
    intro other
    have same : after.objects other = before.objects other := by
      rw [objects, objects, keeps.next, keeps.results, keeps.copies]
    rw [keeps.leases, keeps.started, keeps.freed, same, isSome_of_map (keeps.request other)]
    exact leased.fits other
  freedNodup := keeps.freed ▸ leased.freedNodup

theorem advances_sound (advances : Advances address before after)
    (sound : before.Sound spared) : after.Sound spared :=
  ⟨advances.accounted sound.accounted, keeps_fresh advances.toKeeps sound.fresh,
    keeps_linked advances.toKeeps sound.linked, keeps_leased advances.toKeeps sound.leased⟩

/-- A lease loses a holder. -/
theorem leaseRelease_fits {lease : ResultLease} {live : Bool} {objects : ℕ}
    (found : api.leases address = some lease)
    (references : lease.references = live.toNat + objects + 1)
    (outstanding : objects = lease.outstanding.toNat)
    (owner : lease.owner = if live = true then some address else none)
    (started : address ∈ api.started) (kept : address ∉ api.freed) :
    LeaseFits ((api.leaseRelease address).leases address) address live objects
      (address ∈ api.started) (address ∈ (api.leaseRelease address).freed) := by
  simp only [leaseRelease, found]
  split
  · rename_i last
    have none : live.toNat = 0 ∧ objects = 0 := by omega
    simp only [Function.update_self, LeaseFits]
    exact ⟨Bool.toNat_eq_zero.1 none.1, none.2, iff_of_true List.mem_cons_self started⟩
  · rename_i more
    simp only [Function.update_self, LeaseFits]
    exact ⟨by omega, by omega, outstanding, owner, started, kept⟩

theorem leaseRelease_nodup (nodup : api.freed.Nodup) (kept : address ∉ api.freed) :
    (api.leaseRelease address).freed.Nodup := by
  unfold leaseRelease
  split
  · exact nodup
  · split
    · exact List.nodup_cons.2 ⟨kept, nodup⟩
    · exact nodup

theorem leaseRelease_other {other : ℕ} (different : other ≠ address) :
    (api.leaseRelease address).leases other = api.leases other ∧
      (other ∈ (api.leaseRelease address).freed ↔ other ∈ api.freed) := by
  unfold leaseRelease
  split
  · exact ⟨rfl, Iff.rfl⟩
  · split
    · refine ⟨Function.update_of_ne different _ _, ?_⟩
      rw [List.mem_cons]
      exact ⟨fun either => either.resolve_left different, .inr⟩
    · exact ⟨Function.update_of_ne different _ _, Iff.rfl⟩

theorem leaseRelease_shape (api : Api) (address : ℕ) :
    api.leaseRelease address =
      { api with
        leases := (api.leaseRelease address).leases
        freed := (api.leaseRelease address).freed } := by
  unfold leaseRelease
  split
  · rfl
  · split <;> rfl

theorem leased_change (leased : before.Leased) (changed : ℕ)
    (started : after.started = before.started)
    (others : ∀ other, other ≠ changed → after.leases other = before.leases other ∧
      (after.requests other).isSome = (before.requests other).isSome ∧
      after.objects other = before.objects other ∧ (other ∈ after.freed ↔ other ∈ before.freed))
    (own : LeaseFits (after.leases changed) changed (after.requests changed).isSome
      (after.objects changed) (changed ∈ after.started) (changed ∈ after.freed))
    (nodup : after.freed.Nodup) : after.Leased := by
  refine ⟨fun other => ?_, nodup⟩
  by_cases same : other = changed
  · exact same ▸ own
  · obtain ⟨leases, requests, objects, freed⟩ := others other same
    rw [leases, requests, objects, started, propext freed]
    exact leased.fits other

theorem grow_tally {α : Type} {test : Option α → Bool} {bound : ℕ} {table : ℕ → Option α}
    (empty : table bound = none) (none : test none = false) :
    tally test (bound + 1) table = tally test bound table := by
  rw [tally_succ, empty, none]
  rfl

/-- The next address is given away. -/
def grow (api : Api) : Api := { api with next := api.next + 1 }

theorem grow_statementsOf (fresh : api.Fresh) (connection : ℕ) :
    api.grow.statementsOf connection = api.statementsOf connection :=
  grow_tally (fresh.statements _ le_rfl) rfl

theorem grow_objects (fresh : api.Fresh) (lease : ℕ) : api.grow.objects lease = api.objects lease := by
  have results : tally (resultHolds lease) (api.next + 1) api.results =
      tally (resultHolds lease) api.next api.results := grow_tally (fresh.results _ le_rfl) rfl
  have copies : tally (copyHolds lease) (api.next + 1) api.copies =
      tally (copyHolds lease) api.next api.copies := grow_tally (fresh.copies _ le_rfl) rfl
  show tally _ (api.next + 1) api.results + tally _ (api.next + 1) api.copies = _
  rw [results, copies, objects]

theorem grow_sound (sound : api.Sound spared) : api.grow.Sound spared where
  accounted := { sound.accounted with
    startedBelow := fun address member =>
      (sound.accounted.startedBelow address member).trans (Nat.lt_succ_self _) }
  fresh := {
    connections := fun address behind => sound.fresh.connections address (Nat.le_of_succ_le behind)
    statements := fun address behind => sound.fresh.statements address (Nat.le_of_succ_le behind)
    requests := fun address behind => sound.fresh.requests address (Nat.le_of_succ_le behind)
    leases := fun address behind => sound.fresh.leases address (Nat.le_of_succ_le behind)
    results := fun address behind => sound.fresh.results address (Nat.le_of_succ_le behind)
    copies := fun address behind => sound.fresh.copies address (Nat.le_of_succ_le behind) }
  linked := { sound.linked with
    statementCount := fun address connection found => by
      rw [grow_statementsOf sound.fresh]
      exact sound.linked.statementCount address connection found
    homeless := fun address missing => by
      rw [grow_statementsOf sound.fresh]
      exact sound.linked.homeless address missing
    connectionCount := sound.linked.connectionCount.trans
      (grow_tally (sound.fresh.connections _ le_rfl) rfl).symm }
  leased := by
    refine ⟨fun address => ?_, sound.leased.freedNodup⟩
    rw [grow_objects sound.fresh]
    exact sound.leased.fits address

theorem objects_results {after : Api} {place : ℕ} {entry : Option PublicResult}
    (inside : place < api.next) (next : after.next = api.next)
    (results : after.results = Function.update api.results place entry)
    (copies : after.copies = api.copies) (lease : ℕ) :
    after.objects lease + (resultHolds lease (api.results place)).toNat =
      api.objects lease + (resultHolds lease entry).toNat := by
  have moved := @tally_update _ (resultHolds lease) api.next api.results place entry inside
  rw [objects, objects, next, results, copies]
  omega

theorem objects_copies {after : Api} {place : ℕ} {entry : Option PublicCopy}
    (inside : place < api.next) (next : after.next = api.next)
    (results : after.results = api.results)
    (copies : after.copies = Function.update api.copies place entry) (lease : ℕ) :
    after.objects lease + (copyHolds lease (api.copies place)).toNat =
      api.objects lease + (copyHolds lease entry).toNat := by
  have moved := @tally_update _ (copyHolds lease) api.next api.copies place entry inside
  rw [objects, objects, next, results, copies]
  omega

theorem resultHolds_none (lease : ℕ) : (resultHolds lease none).toNat = 0 := rfl

theorem resultHolds_self (lease : ℕ) (kind : ResultKind) :
    (resultHolds lease (some { kind := kind, lease := lease })).toNat = 1 := by
  simp [resultHolds]

theorem resultHolds_other {lease other : ℕ} {result : PublicResult} (owner : result.lease = lease)
    (different : other ≠ lease) : (resultHolds other (some result)).toNat = 0 := by
  simp [resultHolds, owner, different.symm]

/-- The records that a change of leases and results leaves alone. -/
structure SameLinks (before after : Api) : Prop where
  connections : after.connections = before.connections
  statements : after.statements = before.statements
  requests : after.requests = before.requests
  copies : after.copies = before.copies
  next : after.next = before.next
  connectionCount : after.connectionCount = before.connectionCount

theorem SameLinks.linked (same : SameLinks before after)
    (linked : before.Linked spared) : after.Linked spared := by
  obtain ⟨connections, statements, requests, copies, next, count⟩ := same
  have home : after.statementsOf = before.statementsOf := by
    funext connection
    rw [statementsOf, statementsOf, next, statements]
  refine ⟨?_, ?_, ?_, ?_, ?_, ?_, ?_, ?_, ?_⟩
  · rw [requests, connections]
    exact linked.active
  · rw [requests, connections]
    exact linked.pointed
  · rw [home, connections]
    exact linked.statementCount
  · rw [home, connections]
    exact linked.homeless
  · rw [count, next, connections]
    exact linked.connectionCount
  · rw [requests, copies]
    exact linked.copies
  · rw [requests, copies]
    exact linked.activeCopies
  · rw [copies]
    exact linked.single
  · rw [copies]
    exact linked.copyLease

theorem lease_inside (sound : api.Sound spared) {lease : ResultLease}
    (found : api.leases address = some lease) : address < api.next := by
  by_contra behind
  rw [sound.fresh.leases address (not_lt.1 behind)] at found
  cases found

theorem result_inside (sound : api.Sound spared) {result : PublicResult}
    (found : api.results address = some result) : address < api.next := by
  by_contra behind
  rw [sound.fresh.results address (not_lt.1 behind)] at found
  cases found

/-- An update below the bound of a table without entries behind it. -/
theorem update_fresh {α : Type} {table : ℕ → Option α} {bound place : ℕ} {entry : Option α}
    (empty : ∀ other, bound ≤ other → table other = none) (inside : place < bound) (other : ℕ)
    (behind : bound ≤ other) : Function.update table place entry other = none := by
  rw [Function.update_of_ne (inside.trans_le behind).ne']
  exact empty other behind

/-- A result is handed out. -/
theorem attachLease_sound {kind : ResultKind} {given : Api} (sound : api.Sound spared)
    (attached : api.attachLease address kind = some given) : given.Sound spared := by
  have fits := sound.leased.fits address
  unfold attachLease at attached
  split at attached
  · cases attached
  · rename_i lease found
    split at attached
    · cases attached
    · rename_i taken
      rw [found] at fits
      obtain ⟨references, positive, outstanding, owner, started, kept⟩ := fits
      rw [Bool.eq_false_iff.2 taken] at outstanding
      have grown := grow_sound sound
      have inside : api.next < api.grow.next := Nat.lt_succ_self _
      have low := (lease_inside sound found).trans inside
      have shape := Option.some.inj attached
      have objects := fun lease => @objects_results api.grow given api.next
        (some { kind := kind, lease := address }) inside (by rw [← shape]; rfl) (by rw [← shape]; rfl)
        (by rw [← shape]; rfl) lease
      have empty : api.grow.results api.next = none := sound.fresh.results api.next le_rfl
      simp only [empty, resultHolds_none, Nat.add_zero, grow_objects sound.fresh] at objects
      have more := objects address
      rw [resultHolds_self] at more
      have links : SameLinks api.grow given := by
        rw [← shape]
        exact ⟨rfl, rfl, rfl, rfl, rfl, rfl⟩
      have freed : given.freed = api.freed := by rw [← shape]
      refine ⟨?_, ?_, links.linked grown.linked, leased_change sound.leased address ?_ ?_ ?_ ?_⟩
      · rw [← shape]
        exact { grown.accounted with }
      · rw [← shape]
        exact { grown.fresh with
          leases := update_fresh grown.fresh.leases low
          results := update_fresh grown.fresh.results inside }
      · rw [← shape]
      · intro other different
        have same := objects other
        rw [resultHolds_other rfl different] at same
        refine ⟨?_, ?_, same, by rw [freed]⟩
        · rw [← shape]
          exact Function.update_of_ne different _ _
        · rw [← shape]
      · rw [show given.leases address = some { lease with
            outstanding := true, references := lease.references + 1 } by
          rw [← shape]
          exact Function.update_self ..]
        rw [freed, show given.requests = api.requests by rw [← shape],
          show given.started = api.started by rw [← shape], more]
        refine ⟨?_, Nat.succ_pos _, ?_, owner, started, kept⟩
        · show lease.references + 1 = _
          omega
        · rw [outstanding]
          rfl
      · rw [freed]
        exact sound.leased.freedNodup

/-- A result that was handed out holds a lease. -/
theorem held_lease (sound : api.Sound spared) {lease : ℕ} (held : 0 < api.objects lease) :
    ∃ record, api.leases lease = some record ∧ lease < api.next := by
  cases found : api.leases lease with
  | none =>
      have fits := sound.leased.fits lease
      rw [found] at fits
      have empty : api.objects lease = 0 := fits.2.1
      omega
  | some record => exact ⟨record, rfl, lease_inside sound found⟩

theorem giveBack_leased (sound : api.Sound spared) {lease : ℕ}
    (shape : after = { (api.settleLease lease).leaseRelease lease with
      requests := after.requests, results := after.results, copies := after.copies })
    (requests : ∀ other, (after.requests other).isSome = (api.requests other).isSome)
    (own : after.objects lease + 1 = api.objects lease)
    (others : ∀ other, other ≠ lease → after.objects other = api.objects other) :
    after.Leased := by
  obtain ⟨record, found, -⟩ := held_lease sound (show 0 < api.objects lease by omega)
  have fits := sound.leased.fits lease
  rw [found] at fits
  obtain ⟨references, positive, outstanding, owner, started, kept⟩ := fits
  have settled : (api.settleLease lease).leases lease =
      some { record with outstanding := false } := by
    simp [settleLease, found]
  have single : api.objects lease = 1 := by
    have bound := Bool.toNat_le record.outstanding
    omega
  have released := @leaseRelease_fits (api.settleLease lease) lease _ (api.requests lease).isSome 0
    settled (by rw [references, single]) rfl owner started kept
  have leases : after.leases = ((api.settleLease lease).leaseRelease lease).leases := by rw [shape]
  have freed : after.freed = ((api.settleLease lease).leaseRelease lease).freed := by rw [shape]
  have startedSame : after.started = api.started := by
    rw [shape, leaseRelease_shape]
    rfl
  refine leased_change sound.leased lease startedSame ?_ ?_ ?_
  · intro other different
    obtain ⟨same, member⟩ := @leaseRelease_other (api.settleLease lease) lease other different
    refine ⟨?_, requests other, others other different, ?_⟩
    · rw [leases, same]
      exact Function.update_of_ne different _ _
    · rw [freed]
      exact member
  · rw [leases, freed, requests, startedSame, show after.objects lease = 0 by omega]
    exact released
  · rw [freed]
    exact leaseRelease_nodup sound.leased.freedNodup kept

theorem resultFree_sound (sound : api.Sound spared) (place : ℕ) :
    (api.resultFree place).Sound spared := by
  unfold resultFree
  split
  · exact sound
  · rename_i result found
    have inside := result_inside sound found
    have release := leaseRelease_shape (api.settleLease result.lease) result.lease
    generalize made : ({ (api.settleLease result.lease).leaseRelease result.lease with
      results := Function.update api.results place none } : Api) = after
    have objects := fun lease => @objects_results api after place none inside
      (by rw [← made, release]; rfl) (by rw [← made]) (by rw [← made, release]; rfl) lease
    simp only [found, resultHolds_none, Nat.add_zero] at objects
    have requests : after.requests = api.requests := by
      rw [← made, release]
      rfl
    have held : (resultHolds result.lease (some result)).toNat = 1 := by simp [resultHolds]
    have links : SameLinks api after := by
      rw [← made, release]
      exact ⟨rfl, rfl, rfl, rfl, rfl, rfl⟩
    have own := objects result.lease
    rw [held] at own
    obtain ⟨record, -, low⟩ := held_lease sound (show 0 < api.objects result.lease by omega)
    refine ⟨?_, ?_, links.linked sound.linked, giveBack_leased sound ?_ ?_ own ?_⟩
    · rw [← made, release]
      exact { sound.accounted with }
    · rw [← made, release]
      refine { sound.fresh with leases := ?_, results := update_fresh sound.fresh.results inside }
      intro other behind
      have different : other ≠ result.lease := (low.trans_le behind).ne'
      have same := (@leaseRelease_other (api.settleLease result.lease) result.lease other
        different).1
      refine same.trans ?_
      exact update_fresh sound.fresh.leases low other behind
    · rw [← made, release]
    · intro other
      rw [requests]
    · intro other different
      have same := objects other
      rw [resultHolds_other rfl different] at same
      exact same

theorem copy_inside (sound : api.Sound spared) {copy : PublicCopy}
    (found : api.copies address = some copy) : address < api.next := by
  by_contra behind
  rw [sound.fresh.copies address (not_lt.1 behind)] at found
  cases found

theorem request_inside (sound : api.Sound spared) {request : PublicRequest}
    (found : api.requests address = some request) : address < api.next := by
  by_contra behind
  rw [sound.fresh.requests address (not_lt.1 behind)] at found
  cases found

/-- An edit of a request that keeps its connection. -/
theorem edit_active (address : ℕ) (edit : PublicRequest → PublicRequest)
    (linked : api.Linked spared)
    (home : ∀ request, (edit request).connection = request.connection) :
    (∀ other request, (api.editRequest address edit).requests other = some request →
      ∃ connection, api.connections request.connection = some connection ∧
        connection.activeRequest = some other) ∧
    ∀ other connection request, api.connections other = some connection →
      connection.activeRequest = some request →
      ∃ record, (api.editRequest address edit).requests request = some record ∧
        record.connection = other := by
  refine ⟨?_, ?_⟩
  · intro other request found
    obtain ⟨old, rfl, known, rfl⟩ | ⟨-, known⟩ := edited found
    · rw [home]
      exact linked.active other old known
    · exact linked.active other request known
  · intro other connection request found points
    obtain ⟨record, live, own⟩ := linked.pointed other connection request found points
    by_cases same : request = address
    · subst same
      exact ⟨edit record, edit_found edit live, (home record).trans own⟩
    · exact ⟨record, (Function.update_of_ne same _ _).trans live, own⟩

theorem edit_isSome (edit : PublicRequest → PublicRequest) (other : ℕ) :
    ((api.editRequest address edit).requests other).isSome = (api.requests other).isSome := by
  cases found : api.requests other with
  | none =>
      rw [show (api.editRequest address edit).requests other = none from none_edited.2 found]
  | some request =>
      by_cases same : other = address
      · subst same
        rw [edit_found edit found]
        rfl
      · rw [show (api.editRequest address edit).requests other = some request from
          (Function.update_of_ne same _ _).trans found]

theorem edit_requests_fresh {edit : PublicRequest → PublicRequest} (fresh : api.Fresh) (other : ℕ)
    (behind : api.next ≤ other) : (api.editRequest address edit).requests other = none :=
  none_edited.2 (fresh.requests other behind)

/-- The request is given back while its COPY object is alive. -/
theorem freePending_sound (sound : api.Sound none) :
    (api.editRequest address giveBack).Sound none where
  accounted := edit_accounted sound.accounted fun _ _ => ⟨rfl, .inl rfl⟩
  fresh := { sound.fresh with requests := edit_requests_fresh sound.fresh }
  linked := { sound.linked with
    active := (edit_active address giveBack sound.linked fun _ => rfl).1
    pointed := (edit_active address giveBack sound.linked fun _ => rfl).2
    copies := by
      intro other copy found notSpared
      obtain ⟨request, live, points, waits⟩ := sound.linked.copies other copy found notSpared
      by_cases same : copy.request = address
      · subst same
        exact ⟨_, edit_found _ live, points, fun released => ⟨(waits released).1, rfl⟩⟩
      · exact ⟨request, (Function.update_of_ne same _ _).trans live, points, waits⟩
    activeCopies := by
      intro other request copy found points
      obtain ⟨old, rfl, known, rfl⟩ | ⟨-, known⟩ := edited found
      · exact sound.linked.activeCopies other old copy known points
      · exact sound.linked.activeCopies other request copy known points }
  leased := by
    refine ⟨fun other => ?_, sound.leased.freedNodup⟩
    rw [edit_isSome]
    exact sound.leased.fits other

/-- The COPY objects of a request that has none and was not given back. -/
theorem no_copies (sound : api.Sound none) {request : PublicRequest}
    (live : api.requests address = some request) (idle : request.activeCopy = none)
    (held : request.freePending = false) {place : ℕ} {copy : PublicCopy}
    (found : api.copies place = some copy) : copy.request ≠ address := by
  rintro rfl
  obtain ⟨record, known, points, waits⟩ := sound.linked.copies place copy found nofun
  cases live.symm.trans known
  cases released : copy.released with
  | false =>
      rw [points released] at idle
      cases idle
  | true =>
      rw [(waits released).2] at held
      cases held

theorem takeCopy_sound (sound : api.Sound none) (place : ℕ) (possible : Bool) :
    (api.takeCopy place possible).Sound none := by
  unfold takeCopy
  split
  · exact sound
  rename_i result found
  split
  · exact sound
  split
  · exact sound
  rename_i owner owned
  split
  · exact sound
  rename_i request live
  split
  · exact sound
  rename_i guard
  simp only [not_or, Bool.not_eq_true, Option.isSome_eq_false_iff, Option.isNone_iff_eq_none,
    Bool.not_eq_false] at guard
  obtain ⟨idle, held, -, -⟩ := guard
  have inside := result_inside sound found
  have grown := grow_sound sound
  -- The owner of a lease is its request.
  have same : owner = result.lease := by
    obtain ⟨lease, known, rest⟩ := Option.bind_eq_some_iff.1 owned
    have fits := sound.leased.fits result.lease
    rw [known] at fits
    rw [fits.2.2.2.1] at rest
    split at rest
    · exact (Option.some.inj rest).symm
    · cases rest
  have apart := fun {place copy} => @no_copies api owner sound request live idle held place copy
  have low := request_inside sound live
  have new : api.copies api.next = none := sound.fresh.copies _ le_rfl
  dsimp only
  refine ⟨?_, ?_, ?_, ?_⟩
  · have edit := @edit_accounted api owner (setCopy (some api.next)) sound.accounted
      fun _ _ => ⟨rfl, .inl rfl⟩
    exact { edit with
      startedBelow := fun other member =>
        (sound.accounted.startedBelow other member).trans (Nat.lt_succ_self _) }
  · exact { grown.fresh with
      requests := fun other behind =>
        edit_requests_fresh sound.fresh other (Nat.le_of_succ_le behind)
      results := update_fresh grown.fresh.results (inside.trans (Nat.lt_succ_self _))
      copies := update_fresh grown.fresh.copies (Nat.lt_succ_self _) }
  · refine { grown.linked with
      active := (edit_active owner (setCopy (some api.next)) sound.linked fun _ => rfl).1
      pointed := (edit_active owner (setCopy (some api.next)) sound.linked fun _ => rfl).2
      copies := ?_, activeCopies := ?_, single := ?_, copyLease := ?_ }
    · intro other copy known notSpared
      dsimp only at known
      by_cases own : other = api.next
      · rw [own, Function.update_self] at known
        cases known
        exact ⟨_, edit_found _ live, fun _ => own ▸ rfl, nofun⟩
      · rw [Function.update_of_ne own] at known
        obtain ⟨record, lives, rest⟩ := sound.linked.copies other copy known notSpared
        exact ⟨record, (Function.update_of_ne (apart known) _ _).trans lives, rest⟩
    · intro other record copy known points
      obtain ⟨old, rfl, -, rfl⟩ | ⟨different, before⟩ := edited known
      · cases points
        exact ⟨_, Function.update_self .., rfl, rfl⟩
      · obtain ⟨active, lives, own, open'⟩ :=
          sound.linked.activeCopies other record copy before points
        refine ⟨active, (Function.update_of_ne ?_ _ _).trans lives, own, open'⟩
        rintro rfl
        rw [new] at lives
        cases lives
    · intro first second firstCopy secondCopy firstFound secondFound equal
      dsimp only at firstFound secondFound
      by_cases firstOwn : first = api.next
      · by_cases secondOwn : second = api.next
        · rw [firstOwn, secondOwn]
        · rw [firstOwn, Function.update_self] at firstFound
          rw [Function.update_of_ne secondOwn] at secondFound
          cases firstFound
          exact absurd equal.symm (apart secondFound)
      · rw [Function.update_of_ne firstOwn] at firstFound
        by_cases secondOwn : second = api.next
        · rw [secondOwn, Function.update_self] at secondFound
          cases secondFound
          exact absurd equal (apart firstFound)
        · rw [Function.update_of_ne secondOwn] at secondFound
          exact sound.linked.single first second firstCopy secondCopy firstFound secondFound equal
    · intro other copy known
      dsimp only at known
      by_cases own : other = api.next
      · rw [own, Function.update_self] at known
        cases known
        exact congrArg some same.symm
      · rw [Function.update_of_ne own] at known
        exact sound.linked.copyLease other copy known
  · refine ⟨fun other => ?_, sound.leased.freedNodup⟩
    -- The result goes and the COPY object comes, with the same lease.
    have gone := @tally_update _ (resultHolds other) (api.next + 1) api.results place none
      (inside.trans (Nat.lt_succ_self _))
    have come := @tally_push _ (copyHolds other) api.next api.copies
      (some { request := owner, lease := some result.lease, ioEnded := false, released := false })
    have grownResults : tally (resultHolds other) (api.next + 1) api.results =
      tally (resultHolds other) api.next api.results := grow_tally (sound.fresh.results _ le_rfl) rfl
    have holds : resultHolds other (api.results place) = copyHolds other
        (some { request := owner, lease := some result.lease, ioEnded := false
                released := false }) := by
      simp [found, resultHolds, copyHolds]
    rw [grownResults, holds, resultHolds_none] at gone
    have objects : tally (resultHolds other) (api.next + 1) (Function.update api.results place none) +
        tally (copyHolds other) (api.next + 1) (Function.update api.copies api.next (some
          { request := owner, lease := some result.lease, ioEnded := false, released := false })) =
        api.objects other := by
      rw [Api.objects]
      omega
    have fits := sound.leased.fits other
    rw [← objects] at fits
    show LeaseFits _ _ ((api.editRequest owner (setCopy (some api.next))).requests other).isSome _ _ _
    rw [edit_isSome]
    exact fits

theorem copyHolds_none (lease : ℕ) : (copyHolds lease none).toNat = 0 := rfl

theorem copyHolds_closed (lease : ℕ) (copy : PublicCopy) :
    (copyHolds lease (some (closeCopy copy))).toNat = 0 := by
  simp [copyHolds, closeCopy]

/-- The records behind the release of a COPY object that holds its lease. -/
theorem releaseCopy_shape {place : ℕ} {copy : PublicCopy} (api : Api)
    (lease : copy.lease = some copy.request) :
    api.releaseCopy place copy =
      { (api.settleLease copy.request).leaseRelease copy.request with
        requests := (api.editRequest copy.request (setCopy none)).requests
        copies := Function.update api.copies place ((api.copies place).map closeCopy) } := by
  simp only [releaseCopy, lease]
  have first := leaseRelease_shape
    ((api.editRequest copy.request (setCopy none)).settleLease copy.request) copy.request
  have second := leaseRelease_shape (api.settleLease copy.request) copy.request
  have leases : (((api.editRequest copy.request (setCopy none)).settleLease
      copy.request).leaseRelease copy.request).leases =
      ((api.settleLease copy.request).leaseRelease copy.request).leases := by
    simp only [leaseRelease, settleLease, editRequest]
    split
    · rfl
    · split <;> rfl
  have freed : (((api.editRequest copy.request (setCopy none)).settleLease
      copy.request).leaseRelease copy.request).freed =
      ((api.settleLease copy.request).leaseRelease copy.request).freed := by
    simp only [leaseRelease, settleLease, editRequest]
    split
    · rfl
    · split <;> rfl
  rw [first, second, leases, freed]
  rfl

theorem releaseCopy_sound (sound : api.Sound none) {place : ℕ} {copy : PublicCopy}
    (found : api.copies place = some copy) (open' : copy.released = false) :
    ∃ request, api.requests copy.request = some request ∧
      (api.releaseCopy place copy).requests copy.request = some (setCopy none request) ∧
      (api.releaseCopy place copy).copies place = some (closeCopy copy) ∧
      (api.releaseCopy place copy).Sound (some place) ∧
      (request.freePending = true → (api.releaseCopy place copy).Sound none) := by
  obtain ⟨request, live, points, -⟩ := sound.linked.copies place copy found nofun
  have lease : copy.lease = some copy.request := by
    rw [sound.linked.copyLease place copy found, open']
    rfl
  have inside := copy_inside sound found
  have low := request_inside sound live
  have release := leaseRelease_shape (api.settleLease copy.request) copy.request
  have shape := @releaseCopy_shape place copy api lease
  generalize api.releaseCopy place copy = after at shape ⊢
  have requests : after.requests = (api.editRequest copy.request (setCopy none)).requests := by
    rw [shape]
  have copies : after.copies = Function.update api.copies place (some (closeCopy copy)) := by
    rw [shape, found]
    rfl
  have objects := fun lease => @objects_copies api after place (some (closeCopy copy)) inside
    (by rw [shape, release]; rfl) (by rw [shape, release]; rfl) copies lease
  simp only [found, copyHolds_closed, Nat.add_zero] at objects
  have own := objects copy.request
  rw [show (copyHolds copy.request (some copy)).toNat = 1 by simp [copyHolds, lease]] at own
  have known : after.requests copy.request = some (setCopy none request) := by
    rw [requests]
    exact edit_found _ live
  have closed : after.copies place = some (closeCopy copy) := by
    rw [copies, Function.update_self]
  have active := edit_active copy.request (setCopy none) sound.linked fun _ => rfl
  -- Another COPY object belongs to another request.
  have apart : ∀ {other record}, other ≠ place → api.copies other = some record →
      record.request ≠ copy.request := fun different there same =>
    different (sound.linked.single _ _ _ _ there found same)
  have linked : after.Linked (some place) := by
    have connections : after.connections = api.connections := by
      rw [shape, release]
      rfl
    have home : after.statementsOf = api.statementsOf := by
      rw [shape, release]
      rfl
    refine ⟨?_, ?_, ?_, ?_, ?_, ?_, ?_, ?_, ?_⟩
    · rw [requests, connections]
      exact active.1
    · rw [requests, connections]
      exact active.2
    · rw [connections, home]
      exact sound.linked.statementCount
    · rw [connections, home]
      exact sound.linked.homeless
    · rw [shape, release]
      exact sound.linked.connectionCount
    · intro other record there notSpared
      have different : other ≠ place := fun same => notSpared (same ▸ rfl)
      rw [copies, Function.update_of_ne different] at there
      obtain ⟨holder, lives, rest⟩ := sound.linked.copies other record there nofun
      refine ⟨holder, ?_, rest⟩
      rw [requests]
      exact (Function.update_of_ne (apart different there) _ _).trans lives
    · intro other record pointer there pointing
      rw [requests] at there
      obtain ⟨old, rfl, -, rfl⟩ | ⟨different, before⟩ := edited there
      · cases pointing
      · obtain ⟨held, lives, holder, still⟩ :=
          sound.linked.activeCopies other record pointer before pointing
        refine ⟨held, ?_, holder, still⟩
        rw [copies, Function.update_of_ne ?_, lives]
        rintro rfl
        cases found.symm.trans lives
        exact different holder.symm
    · intro first second firstCopy secondCopy firstFound secondFound equal
      have view : ∀ {other record}, after.copies other = some record →
          ∃ old, api.copies other = some old ∧ old.request = record.request := by
        intro other record there
        by_cases same : other = place
        · rw [same, closed] at there
          cases there
          exact ⟨copy, same ▸ found, rfl⟩
        · rw [copies, Function.update_of_ne same] at there
          exact ⟨record, there, rfl⟩
      obtain ⟨firstOld, firstThere, firstSame⟩ := view firstFound
      obtain ⟨secondOld, secondThere, secondSame⟩ := view secondFound
      exact sound.linked.single first second firstOld secondOld firstThere secondThere
        (firstSame.trans (equal.trans secondSame.symm))
    · intro other record there
      by_cases same : other = place
      · rw [same, closed] at there
        cases there
        rfl
      · rw [copies, Function.update_of_ne same] at there
        exact sound.linked.copyLease other record there
  have rest : after.Sound (some place) := by
    refine ⟨?_, ?_, linked, giveBack_leased sound ?_ ?_ own ?_⟩
    · have edit := @edit_accounted api copy.request (setCopy none) sound.accounted
        fun _ _ => ⟨rfl, .inl rfl⟩
      rw [shape, release]
      exact { edit with }
    · rw [shape, release]
      refine { sound.fresh with
        requests := edit_requests_fresh sound.fresh, leases := ?_
        copies := update_fresh sound.fresh.copies inside }
      intro other behind
      have different : other ≠ copy.request := (low.trans_le behind).ne'
      refine ((@leaseRelease_other (api.settleLease copy.request) copy.request other
        different).1).trans ?_
      exact update_fresh sound.fresh.leases low other behind
    · rw [shape, release]
    · intro other
      rw [requests]
      exact edit_isSome _ other
    · intro other different
      have same := objects other
      rw [show (copyHolds other (some copy)).toNat = 0 by
        simp [copyHolds, lease, different.symm]] at same
      exact same
  refine ⟨request, live, known, closed, rest, fun pending => { rest with linked := ?_ }⟩
  refine { linked with copies := fun other record there _ => ?_ }
  by_cases same : other = place
  · rw [same, closed] at there
    cases there
    exact ⟨_, known, nofun, fun _ => ⟨rfl, pending⟩⟩
  · exact linked.copies other record there fun equal => same (Option.some.inj equal).symm

/-- An entry behind the removal of another one. -/
theorem removed {α : Type} {table : ℕ → Option α} {place other : ℕ} {entry : α}
    (after : Function.update table place none other = some entry) :
    other ≠ place ∧ table other = some entry := by
  by_cases same : other = place
  · rw [same, Function.update_self] at after
    cases after
  · rw [Function.update_of_ne same] at after
    exact ⟨same, after⟩

/-- A COPY object without a lease is freed. -/
theorem removeCopy_sound {place : ℕ} {copy : PublicCopy} (sound : api.Sound (some place))
    (found : api.copies place = some copy) (released : copy.released = true) :
    (api.removeCopy place).Sound none := by
  have inside := copy_inside sound found
  have lease : copy.lease = none := by
    rw [sound.linked.copyLease place copy found, released]
    rfl
  refine ⟨{ sound.accounted with },
    { sound.fresh with copies := update_fresh sound.fresh.copies inside }, ?_, ?_⟩
  · refine { sound.linked with
      copies := ?_, activeCopies := ?_, single := ?_, copyLease := ?_ }
    · intro other record there _
      obtain ⟨different, before⟩ := removed there
      exact sound.linked.copies other record before fun equal =>
        different (Option.some.inj equal).symm
    · intro other request pointer there points
      obtain ⟨record, lives, holder, still⟩ :=
        sound.linked.activeCopies other request pointer there points
      refine ⟨record, (Function.update_of_ne ?_ _ _).trans lives, holder, still⟩
      rintro rfl
      cases found.symm.trans lives
      rw [released] at still
      cases still
    · intro first second firstCopy secondCopy firstFound secondFound equal
      exact sound.linked.single first second firstCopy secondCopy (removed firstFound).2
        (removed secondFound).2 equal
    · exact fun other record there => sound.linked.copyLease other record (removed there).2
  · refine ⟨fun other => ?_, sound.leased.freedNodup⟩
    have objects := @objects_copies api (api.removeCopy place) place none inside rfl rfl rfl other
    rw [found, show (copyHolds other (some copy)).toNat = 0 by simp [copyHolds, lease],
      copyHolds_none] at objects
    rw [show (api.removeCopy place).objects other = api.objects other from objects]
    exact sound.leased.fits other

/-! ## The end and the start of a request -/

theorem isSome_edited {α : Type} {table : ℕ → Option α} {edit : α → α} (other : ℕ) :
    (Function.update table address ((table address).map edit) other).isSome =
      (table other).isSome := by
  by_cases same : other = address
  · rw [same, Function.update_self, Option.isSome_map]
  · rw [Function.update_of_ne same]

/-- An edit that keeps the homes of the statements. -/
theorem belongs_edited {table : ℕ → Option PublicStatement} {edit : PublicStatement → PublicStatement}
    (kept : ∀ record, (edit record).connection = record.connection) (connection other : ℕ) :
    belongs connection (Function.update table address ((table address).map edit) other) =
      belongs connection (table other) := by
  by_cases same : other = address
  · rw [same, Function.update_self]
    cases table address with
    | none => rfl
    | some record => exact congrArg (fun home => decide (home = connection)) (kept record)
  · rw [Function.update_of_ne same]

/-- A write of the pointers of a connection and of a statement to a request. -/
theorem pointers_frame (edit : PublicConnection → PublicConnection)
    (own : PublicStatement → PublicStatement)
    (kept : ∀ record, (own record).connection = record.connection) (request : PublicRequest)
    {after : Api}
    (made : (api.editConnection request.connection edit).editOwnStatement request own = after) :
    after = { api with
        connections := (api.editConnection request.connection edit).connections
        statements := after.statements } ∧
      (∀ connection other, belongs connection (after.statements other) =
        belongs connection (api.statements other)) ∧
      ∀ other, after.statements other = none ↔ api.statements other = none := by
  subst made
  unfold editOwnStatement
  split
  · exact ⟨rfl, fun _ _ => rfl, fun _ => Iff.rfl⟩
  · exact ⟨rfl, belongs_edited kept, fun _ => none_edited⟩

theorem clearStatement_home (record : PublicStatement) :
    (clearStatement address record).connection = record.connection := by
  unfold clearStatement
  split <;> rfl

theorem clearConnection_count (record : PublicConnection) :
    (clearConnection address record).statementCount = record.statementCount := by
  unfold clearConnection
  split <;> rfl

theorem removeRequest_sound {request : PublicRequest} (sound : api.Sound spared)
    (found : api.requests address = some request) (ended : request.state.terminal = true)
    (apart : ∀ place copy, api.copies place = some copy → copy.request = address →
      spared = some place) :
    (api.removeRequest address).Sound spared := by
  simp only [removeRequest, found]
  have low := request_inside sound found
  obtain ⟨connection, home, points⟩ := sound.linked.active address request found
  have release := leaseRelease_shape ((api.detach address request).disown address) address
  obtain ⟨shape, homes, missing⟩ := @pointers_frame api (clearConnection address)
    (clearStatement address) clearStatement_home request (api.detach address request) rfl
  generalize api.detach address request = detached at release shape homes missing ⊢
  generalize made : ({ (detached.disown address).leaseRelease address with
    requests := Function.update (detached.disown address).requests address none } : Api) = after
  have requests : after.requests = Function.update api.requests address none := by
    rw [← made, disown, shape]
  have connections : after.connections =
      (api.editConnection request.connection (clearConnection address)).connections := by
    rw [← made, release, disown, shape]
  have statements : after.statements = detached.statements := by
    rw [← made, release]
    rfl
  have others : after.next = api.next ∧ after.copies = api.copies ∧ after.results = api.results ∧
      after.started = api.started ∧ after.connectionCount = api.connectionCount := by
    rw [← made, release, disown, shape]
    exact ⟨rfl, rfl, rfl, rfl, rfl⟩
  obtain ⟨next, copies, results, started, count⟩ := others
  have statementsOf : after.statementsOf = api.statementsOf := by
    funext other
    rw [Api.statementsOf, Api.statementsOf, next, statements]
    exact tally_congr fun place _ => homes other place
  have fits := sound.leased.fits address
  rw [found] at fits
  obtain ⟨lease, leaseFound⟩ : ∃ lease, api.leases address = some lease := by
    cases known : api.leases address with
    | none =>
        rw [known] at fits
        cases fits.1
    | some lease => exact ⟨lease, rfl⟩
  rw [leaseFound] at fits
  obtain ⟨references, -, outstanding, owner, member, kept⟩ := fits
  have leases : ∀ other, after.leases other =
      ((detached.disown address).leaseRelease address).leases other := fun other => by rw [← made]
  have freed : after.freed = ((detached.disown address).leaseRelease address).freed := by
    rw [← made]
  have before : ∀ other, other ≠ address →
      (detached.disown address).leases other = api.leases other := by
    intro other different
    refine (Function.update_of_ne different _ _).trans ?_
    rw [shape]
  refine ⟨?_, ?_, ?_, ?_⟩
  · have ledger : after.ledger = api.ledger := by
      rw [← made, release, disown, shape]
    have listed := (sound.accounted.marked address request found).2.1 ended
    have moved : Accounted { api with requests := after.requests } := by
      rw [requests]
      refine { sound.accounted with live := ?_, gone := ?_, marked := ?_, recorded := ?_ }
      · exact fun other record there => sound.accounted.live other record (removed there).2
      · intro other inside absent
        by_cases same : other = address
        · exact same ▸ listed
        · exact sound.accounted.gone other inside ((Function.update_of_ne same _ _).symm.trans absent)
      · exact fun other record there => sound.accounted.marked other record (removed there).2
      · exact fun other record state there =>
          sound.accounted.recorded other record state (removed there).2
    rw [← made, release, disown, shape]
    rw [requests] at moved
    exact { moved with }
  · refine ⟨?_, ?_, ?_, ?_, ?_, ?_⟩
    · rw [next, connections]
      exact fun other behind => none_edited.2 (sound.fresh.connections other behind)
    · rw [next, statements]
      exact fun other behind => (missing other).2 (sound.fresh.statements other behind)
    · rw [next, requests]
      exact update_fresh sound.fresh.requests low
    · intro other behind
      rw [next] at behind
      have different : other ≠ address := (low.trans_le behind).ne'
      rw [leases, (leaseRelease_other different).1, before other different]
      exact sound.fresh.leases other behind
    · rw [next, results]
      exact sound.fresh.results
    · rw [next, copies]
      exact sound.fresh.copies
  · refine ⟨?_, ?_, ?_, ?_, ?_, ?_, ?_, ?_, ?_⟩
    · intro other record there
      rw [requests] at there
      obtain ⟨different, before⟩ := removed there
      obtain ⟨own, lives, pointing⟩ := sound.linked.active other record before
      have elsewhere : record.connection ≠ request.connection := by
        intro same
        rw [same, home] at lives
        cases lives
        exact different (Option.some.inj (pointing.symm.trans points))
      rw [connections]
      exact ⟨own, (Function.update_of_ne elsewhere _ _).trans lives, pointing⟩
    · intro other own pointer there pointing
      rw [connections] at there
      obtain ⟨old, rfl, known, rfl⟩ | ⟨different, known⟩ := edited there
      · rw [home] at known
        cases known
        simp [clearConnection, points] at pointing
      · obtain ⟨record, lives, back⟩ := sound.linked.pointed other own pointer known pointing
        refine ⟨record, ?_, back⟩
        rw [requests, Function.update_of_ne ?_, lives]
        rintro rfl
        cases found.symm.trans lives
        exact different back.symm
    · intro other own there
      rw [connections] at there
      rw [statementsOf]
      obtain ⟨old, rfl, known, rfl⟩ | ⟨-, known⟩ := edited there
      · rw [clearConnection_count]
        exact sound.linked.statementCount _ old known
      · exact sound.linked.statementCount other own known
    · intro other there
      rw [connections] at there
      rw [statementsOf]
      exact sound.linked.homeless other (none_edited.1 there)
    · rw [count, next, sound.linked.connectionCount, connections]
      refine tally_congr fun other _ => ?_
      exact (isSome_edited other).symm
    · intro place copy there notSpared
      rw [copies] at there
      obtain ⟨record, lives, rest⟩ := sound.linked.copies place copy there notSpared
      refine ⟨record, ?_, rest⟩
      rw [requests, Function.update_of_ne ?_, lives]
      exact fun same => notSpared (apart place copy there same)
    · intro other record pointer there pointing
      rw [requests] at there
      rw [copies]
      exact sound.linked.activeCopies other record pointer (removed there).2 pointing
    · rw [copies]
      exact sound.linked.single
    · rw [copies]
      exact sound.linked.copyLease
  · have same : after.objects = api.objects := by
      funext other
      rw [Api.objects, Api.objects, next, results, copies]
    have disowned : (detached.disown address).leases address =
        some { lease with owner := none } := by
      rw [disown, shape]
      simp [leaseFound]
    have startedSame : (detached.disown address).started = api.started := by
      rw [disown, shape]
    have freedSame : (detached.disown address).freed = api.freed := by
      rw [disown, shape]
    have released := @leaseRelease_fits (detached.disown address) address _ false
      (api.objects address) disowned (references.trans (Nat.add_comm _ _ |>.trans (by simp))) outstanding
      rfl (startedSame ▸ member) (freedSame ▸ kept)
    refine leased_change sound.leased address started ?_ ?_ ?_
    · intro other different
      obtain ⟨leaseSame, freedOther⟩ :=
        @leaseRelease_other (detached.disown address) address other different
      refine ⟨?_, ?_, congrFun same other, ?_⟩
      · rw [leases, leaseSame, before other different]
      · rw [requests, Function.update_of_ne different]
      · rw [freed, freedOther, freedSame]
    · rw [leases, requests, Function.update_self, same, started, freed, ← startedSame]
      exact released
    · rw [freed]
      exact leaseRelease_nodup (freedSame ▸ sound.leased.freedNodup) (freedSame ▸ kept)

/-- A new request is active and in none of the counters yet. -/
theorem start_accounted (accounted : api.Accounted) {request : PublicRequest}
    (state : request.state = .pending) (flag : request.terminalAccounted = false)
    (requests : after.requests = Function.update api.requests api.next (some request))
    (shape : after = { api with
      connections := after.connections, statements := after.statements
      requests := after.requests, leases := after.leases, next := api.next + 1
      requestCount := api.requestCount + 1, activeCount := api.activeCount + 1
      started := api.next :: api.started }) : after.Accounted := by
  have new : api.next ∉ api.started := fun member =>
    (accounted.startedBelow _ member).ne rfl
  have unlisted : api.next ∉ api.ledger.map Prod.fst := by
    intro member
    obtain ⟨entry, listed, same⟩ := List.mem_map.1 member
    exact new (same ▸ accounted.ledgerStarted entry listed)
  have cases : ∀ {other record}, after.requests other = some record →
      other = api.next ∧ record = request ∨ other ≠ api.next ∧ api.requests other = some record := by
    intro other record there
    rw [requests] at there
    by_cases same : other = api.next
    · rw [same, Function.update_self] at there
      exact .inl ⟨same, (Option.some.inj there).symm⟩
    · rw [Function.update_of_ne same] at there
      exact .inr ⟨same, there⟩
  have started : after.started = api.next :: api.started := by rw [shape]
  have ledger : after.ledger = api.ledger := by rw [shape]
  refine ⟨?_, ?_, ?_, ?_, ?_, ?_, ?_, ?_, ?_, ?_, ?_, ?_, ?_, ?_⟩
  · rw [started]
    exact List.nodup_cons.2 ⟨new, accounted.startedNodup⟩
  · intro other member
    rw [started] at member
    rw [show after.next = api.next + 1 by rw [shape]]
    obtain rfl | old := List.mem_cons.1 member
    · exact Nat.lt_succ_self _
    · exact (accounted.startedBelow other old).trans (Nat.lt_succ_self _)
  · intro other record there
    rw [started]
    obtain ⟨rfl, -⟩ | ⟨-, before⟩ := cases there
    · exact List.mem_cons_self
    · exact List.mem_cons_of_mem _ (accounted.live other record before)
  · rw [ledger]
    exact accounted.ledgerNodup
  · rw [ledger, started]
    exact fun entry listed => List.mem_cons_of_mem _ (accounted.ledgerStarted entry listed)
  · rw [ledger]
    exact accounted.ledgerTerminal
  · intro other member absent
    rw [started] at member
    rw [requests] at absent
    rw [ledger]
    obtain rfl | old := List.mem_cons.1 member
    · rw [Function.update_self] at absent
      cases absent
    · by_cases same : other = api.next
      · exact absurd (same ▸ old) new
      · exact accounted.gone other old ((Function.update_of_ne same _ _).symm.trans absent)
  · intro other record there
    rw [ledger]
    obtain ⟨rfl, rfl⟩ | ⟨-, before⟩ := cases there
    · rw [flag, state]
      exact ⟨rfl, nofun, fun listed => absurd listed unlisted⟩
    · exact accounted.marked other record before
  · intro other record recordState there listed
    rw [ledger] at listed
    obtain ⟨rfl, rfl⟩ | ⟨-, before⟩ := cases there
    · exact absurd (List.mem_map_of_mem (f := Prod.fst) listed) unlisted
    · exact accounted.recorded other record recordState before listed
  · rw [started, List.length_cons, ← accounted.requestCount, shape]
  · rw [ledger, show after.activeCount = api.activeCount + 1 by rw [shape],
      show after.requestCount = api.requestCount + 1 by rw [shape]]
    have counted := accounted.activeCount
    omega
  · rw [ledger, ← accounted.completedCount, shape]
  · rw [ledger, ← accounted.canceledCount, shape]
  · rw [ledger, ← accounted.failedCount, shape]

theorem requestStart_sound {connection : ℕ} {mode : RequestMode} {statement : Option ℕ}
    {chunked possible : Bool} (sound : api.Sound spared)
    (started : api.requestStart connection mode statement chunked possible = some after) :
    after.Sound spared := by
  unfold requestStart at started
  split at started
  · cases started
  rename_i record home
  split at started
  · cases started
  rename_i guard
  simp only [not_or, Bool.not_eq_true, Option.isSome_eq_false_iff, Option.isNone_iff_eq_none]
    at guard
  have idle := guard.2.2.1
  dsimp only at started
  generalize own : ({
    connection := connection, statement := statement, mode := mode, chunked := chunked
    state := .pending, operationStatus := .internalError, result := none, activeCopy := none
    cancelRequested := false, sawPostgresError := false, sawCancelError := false
    terminalAccounted := false, freePending := false } : PublicRequest) = request at started
  have homeSame : request.connection = connection := by rw [← own]
  have copyNone : request.activeCopy = none := by rw [← own]
  obtain ⟨shape, homes, missing⟩ := @pointers_frame api (claimConnection api.next)
    (claimStatement api.next) (fun _ => rfl) request _ rfl
  rw [homeSame] at shape homes missing
  generalize (api.editConnection connection (claimConnection api.next)).editOwnStatement request
    (claimStatement api.next) = claimed at started shape homes missing
  have made := Option.some.inj started
  have requests : after.requests = Function.update api.requests api.next (some request) := by
    rw [← made, shape]
  have connections : after.connections =
      (api.editConnection connection (claimConnection api.next)).connections := by
    rw [← made, shape]
  have statements : after.statements = claimed.statements := by rw [← made]
  have leases : after.leases = Function.update api.leases api.next
      (some { references := 1, outstanding := false, owner := some api.next }) := by
    rw [← made, shape]
  have rest : after.next = api.next + 1 ∧ after.copies = api.copies ∧
      after.results = api.results ∧ after.started = api.next :: api.started ∧
      after.freed = api.freed ∧ after.connectionCount = api.connectionCount := by
    rw [← made, shape]
    exact ⟨rfl, rfl, rfl, rfl, rfl, rfl⟩
  obtain ⟨next, copies, results, startedCons, freed, count⟩ := rest
  have grown := grow_sound sound
  have low : api.next < api.next + 1 := Nat.lt_succ_self _
  have empty := sound.fresh.requests api.next le_rfl
  have statementsOf : after.statementsOf = api.grow.statementsOf := by
    funext other
    rw [Api.statementsOf, Api.statementsOf, next, statements]
    exact tally_congr fun place _ => homes other place
  refine ⟨?_, ?_, ?_, ?_⟩
  · refine start_accounted sound.accounted (by rw [← own]) (by rw [← own]) requests ?_
    rw [← made, shape]
  · refine ⟨?_, ?_, ?_, ?_, ?_, ?_⟩
    · rw [next, connections]
      exact fun other behind => none_edited.2 (grown.fresh.connections other behind)
    · rw [next, statements]
      exact fun other behind => (missing other).2 (grown.fresh.statements other behind)
    · rw [next, requests]
      exact update_fresh grown.fresh.requests low
    · rw [next, leases]
      exact update_fresh grown.fresh.leases low
    · rw [next, results]
      exact grown.fresh.results
    · rw [next, copies]
      exact grown.fresh.copies
  · refine ⟨?_, ?_, ?_, ?_, ?_, ?_, ?_, ?_, ?_⟩
    · intro other own there
      rw [requests] at there
      rw [connections]
      by_cases same : other = api.next
      · rw [same, Function.update_self] at there
        cases there
        refine ⟨claimConnection api.next record, ?_, same ▸ rfl⟩
        rw [homeSame, editConnection, home]
        exact Function.update_self ..
      · rw [Function.update_of_ne same] at there
        obtain ⟨old, lives, points⟩ := sound.linked.active other own there
        have elsewhere : own.connection ≠ connection := by
          intro equal
          rw [equal, home] at lives
          cases lives
          rw [idle] at points
          cases points
        exact ⟨old, (Function.update_of_ne elsewhere _ _).trans lives, points⟩
    · intro other own pointer there points
      rw [connections] at there
      rw [requests]
      obtain ⟨old, rfl, -, rfl⟩ | ⟨-, known⟩ := edited there
      · cases points
        exact ⟨request, Function.update_self .., homeSame⟩
      · obtain ⟨record, lives, back⟩ := sound.linked.pointed other own pointer known points
        refine ⟨record, (Function.update_of_ne ?_ _ _).trans lives, back⟩
        rintro rfl
        rw [empty] at lives
        cases lives
    · intro other own there
      rw [connections] at there
      rw [statementsOf]
      obtain ⟨old, rfl, known, rfl⟩ | ⟨-, known⟩ := edited there
      · exact grown.linked.statementCount _ old known
      · exact grown.linked.statementCount other own known
    · intro other there
      rw [connections] at there
      rw [statementsOf]
      exact grown.linked.homeless other (none_edited.1 there)
    · rw [count, next, connections]
      refine grown.linked.connectionCount.trans (tally_congr fun other _ => ?_)
      exact (isSome_edited other).symm
    · intro place copy there notSpared
      rw [copies] at there
      obtain ⟨record, lives, rest⟩ := sound.linked.copies place copy there notSpared
      rw [requests]
      refine ⟨record, (Function.update_of_ne ?_ _ _).trans lives, rest⟩
      intro same
      rw [same, empty] at lives
      cases lives
    · intro other own pointer there points
      rw [requests] at there
      rw [copies]
      by_cases same : other = api.next
      · rw [same, Function.update_self] at there
        cases there
        rw [copyNone] at points
        cases points
      · rw [Function.update_of_ne same] at there
        exact sound.linked.activeCopies other own pointer there points
    · rw [copies]
      exact sound.linked.single
    · rw [copies]
      exact sound.linked.copyLease
  · refine ⟨fun other => ?_, freed ▸ sound.leased.freedNodup⟩
    have objects : after.objects other = api.objects other := by
      rw [Api.objects, next, results, copies]
      exact grow_objects sound.fresh other
    have fits := sound.leased.fits other
    rw [objects, freed, startedCons, leases, requests]
    by_cases same : other = api.next
    · rw [same] at fits ⊢
      rw [sound.fresh.leases _ le_rfl] at fits
      obtain ⟨-, none, freedIff⟩ := fits
      have new : api.next ∉ api.started := fun member =>
        (sound.accounted.startedBelow _ member).ne rfl
      rw [Function.update_self, Function.update_self, none]
      exact ⟨rfl, Nat.one_pos, rfl, rfl, List.mem_cons_self, fun listed => new (freedIff.1 listed)⟩
    · rw [Function.update_of_ne same, Function.update_of_ne same,
        show (other ∈ api.next :: api.started) = (other ∈ api.started) by simp [same]]
      exact fits

/-! ## Connections and statements -/

theorem connection_inside (sound : api.Sound spared) {connection : PublicConnection}
    (found : api.connections address = some connection) : address < api.next := by
  by_contra behind
  rw [sound.fresh.connections address (not_lt.1 behind)] at found
  cases found

theorem statement_inside (sound : api.Sound spared) {statement : PublicStatement}
    (found : api.statements address = some statement) : address < api.next := by
  by_contra behind
  rw [sound.fresh.statements address (not_lt.1 behind)] at found
  cases found

theorem connectionOpen_sound (sound : api.Sound none) : api.connectionOpen.Sound none := by
  have grown := grow_sound sound
  have low : api.next < api.next + 1 := Nat.lt_succ_self _
  have empty := sound.fresh.connections api.next le_rfl
  refine ⟨{ grown.accounted with },
    { grown.fresh with connections := update_fresh grown.fresh.connections low }, ?_,
    ⟨grown.leased.fits, grown.leased.freedNodup⟩⟩
  refine { grown.linked with
    active := ?_, pointed := ?_, statementCount := ?_, homeless := ?_, connectionCount := ?_ }
  · intro other request there
    obtain ⟨connection, lives, points⟩ := sound.linked.active other request there
    refine ⟨connection, (Function.update_of_ne ?_ _ _).trans lives, points⟩
    intro same
    rw [same, empty] at lives
    cases lives
  · intro other connection pointer there points
    by_cases same : other = api.next
    · rw [same] at there
      cases (Function.update_self ..).symm.trans there
      cases points
    · exact sound.linked.pointed other connection pointer
        ((Function.update_of_ne same _ _).symm.trans there) points
  · intro other connection there
    by_cases same : other = api.next
    · have none := grown.linked.homeless api.next empty
      rw [same] at there ⊢
      cases (Function.update_self ..).symm.trans there
      exact none.symm
    · exact grown.linked.statementCount other connection
        ((Function.update_of_ne same _ _).symm.trans there)
  · intro other there
    by_cases same : other = api.next
    · rw [same] at there
      cases (Function.update_self ..).symm.trans there
    · exact grown.linked.homeless other ((Function.update_of_ne same _ _).symm.trans there)
  · show api.connectionCount + 1 = tally _ (api.next + 1) (Function.update api.connections _ _)
    rw [tally_push, sound.linked.connectionCount]
    rfl

theorem connectionClose_sound (sound : api.Sound none) (place : ℕ) (released : Bool) :
    (api.connectionClose place released).Sound none := by
  unfold connectionClose
  split
  · exact sound
  rename_i connection found
  split
  · exact sound
  rename_i guard
  split
  · exact sound
  simp only [not_or, Bool.not_eq_true, Option.isSome_eq_false_iff, Option.isNone_iff_eq_none,
    not_not] at guard
  obtain ⟨-, idle, unused⟩ := guard
  have inside := connection_inside sound found
  refine ⟨{ sound.accounted with },
    { sound.fresh with connections := update_fresh sound.fresh.connections inside }, ?_,
    ⟨sound.leased.fits, sound.leased.freedNodup⟩⟩
  refine { sound.linked with
    active := ?_, pointed := ?_, statementCount := ?_, homeless := ?_, connectionCount := ?_ }
  · intro other request there
    obtain ⟨own, lives, points⟩ := sound.linked.active other request there
    refine ⟨own, (Function.update_of_ne ?_ _ _).trans lives, points⟩
    intro same
    rw [same, found] at lives
    cases lives
    rw [idle] at points
    cases points
  · exact fun other own pointer there points =>
      sound.linked.pointed other own pointer (removed there).2 points
  · exact fun other own there => sound.linked.statementCount other own (removed there).2
  · intro other there
    by_cases same : other = place
    · rw [same]
      exact (sound.linked.statementCount place connection found).symm.trans unused
    · exact sound.linked.homeless other ((Function.update_of_ne same _ _).symm.trans there)
  · have moved := @tally_update _ Option.isSome api.next api.connections place none inside
    have counted := sound.linked.connectionCount
    rw [found] at moved
    simp only [Option.isSome_some, Option.isSome_none, Bool.toNat_true, Bool.toNat_false] at moved
    show api.connectionCount - 1 = tally _ api.next (Function.update api.connections place none)
    omega

/-- A connection counts a change of its statements. -/
theorem counts_linked {after : Api} {home : ℕ} {record : PublicConnection}
    {edit : PublicConnection → PublicConnection} (linked : api.Linked none)
    (found : api.connections home = some record)
    (active : ∀ record, (edit record).activeRequest = record.activeRequest)
    (connections : after.connections = (api.editConnection home edit).connections)
    (requests : after.requests = api.requests) (copies : after.copies = api.copies)
    (count : after.connectionCount = tally Option.isSome after.next api.connections)
    (own : (edit record).statementCount = after.statementsOf home)
    (others : ∀ other, other ≠ home → after.statementsOf other = api.statementsOf other) :
    after.Linked none := by
  refine ⟨?_, ?_, ?_, ?_, ?_, ?_, ?_, ?_, ?_⟩
  · intro other request there
    rw [requests] at there
    obtain ⟨connection, lives, points⟩ := linked.active other request there
    rw [connections]
    by_cases same : request.connection = home
    · rw [same] at lives ⊢
      refine ⟨edit connection, ?_, (active connection).trans points⟩
      rw [editConnection, lives]
      exact Function.update_self ..
    · exact ⟨connection, (Function.update_of_ne same _ _).trans lives, points⟩
  · intro other connection pointer there points
    rw [connections] at there
    rw [requests]
    obtain ⟨old, rfl, known, rfl⟩ | ⟨-, known⟩ := edited there
    · exact linked.pointed _ old pointer known ((active old).symm.trans points)
    · exact linked.pointed other connection pointer known points
  · intro other connection there
    rw [connections] at there
    obtain ⟨old, rfl, known, rfl⟩ | ⟨different, known⟩ := edited there
    · cases found.symm.trans known
      exact own
    · rw [others other different]
      exact linked.statementCount other connection known
  · intro other there
    rw [connections] at there
    have before := none_edited.1 there
    have different : other ≠ home := by
      rintro rfl
      cases before.symm.trans found
    rw [others other different]
    exact linked.homeless other before
  · rw [count, connections]
    exact tally_congr fun other _ => (isSome_edited other).symm
  · rw [copies, requests]
    exact linked.copies
  · rw [copies, requests]
    exact linked.activeCopies
  · rw [copies]
    exact linked.single
  · rw [copies]
    exact linked.copyLease

theorem addStatement_sound (sound : api.Sound none) {home : ℕ} {record : PublicConnection}
    (found : api.connections home = some record) (described : Bool) :
    (api.addStatement home described).Sound none := by
  have grown := grow_sound sound
  have low : api.next < api.next + 1 := Nat.lt_succ_self _
  have pushed := fun other => @tally_push _ (belongs other) api.next api.statements
    (some { connection := home, activeRequest := none, described := described
            remoteClosed := false })
  refine ⟨{ grown.accounted with }, ?_, ?_, ⟨grown.leased.fits, grown.leased.freedNodup⟩⟩
  · exact { grown.fresh with
      connections := fun other behind => none_edited.2 (grown.fresh.connections other behind)
      statements := update_fresh grown.fresh.statements low }
  · refine @counts_linked api (api.addStatement home described) home record countStatement
      sound.linked found (fun _ => rfl) rfl rfl rfl grown.linked.connectionCount ?_ ?_
    · refine Eq.trans ?_ (pushed home).symm
      simp only [belongs, decide_true, Bool.toNat_true]
      exact congrArg (· + 1) (sound.linked.statementCount home record found)
    · intro other different
      refine (pushed other).trans ?_
      simp only [belongs, decide_eq_false different.symm, Bool.toNat_false]
      rfl

theorem statementClose_sound (sound : api.Sound none) (place : ℕ) (closed : Bool) :
    (api.statementClose place closed).Sound none := by
  unfold statementClose
  split
  · exact sound
  rename_i statement found
  split
  · exact sound
  rename_i record home
  split
  · exact sound
  split
  · exact sound
  split
  · exact sound
  rename_i some
  have inside := statement_inside sound found
  have moved := fun other => @tally_update _ (belongs other) api.next api.statements place none
    inside
  simp only [found] at moved
  refine ⟨{ sound.accounted with }, ?_, ?_, ⟨sound.leased.fits, sound.leased.freedNodup⟩⟩
  · exact { sound.fresh with
      connections := fun other behind => none_edited.2 (sound.fresh.connections other behind)
      statements := update_fresh sound.fresh.statements inside }
  · refine @counts_linked api _ statement.connection record uncountStatement sound.linked home
      (fun _ => rfl) rfl rfl rfl sound.linked.connectionCount ?_ ?_
    · have change := moved statement.connection
      rw [show (belongs statement.connection (Option.some statement)).toNat = 1 by
        simp [belongs]] at change
      have counted := sound.linked.statementCount _ record home
      show record.statementCount - 1 = tally _ api.next (Function.update api.statements place none)
      rw [Api.statementsOf] at counted
      rw [show (belongs statement.connection none).toNat = 0 from rfl] at change
      omega
    · intro other different
      have change := moved other
      rw [show (belongs other (Option.some statement)).toNat = 0 by
        simp [belongs, different.symm]] at change
      exact change

end Postgamma.Embedded.Api
