import Mathlib
import Postgamma.Embedded.MemoryTransportStreams

/-!
# The lifetime of memory transports

A transport is destroyed once, by the release that takes the last reference of its two endpoints.
Flags are never taken back, the counters of the module are sums over the transports that live, and
a call with another generation is refused and changes nothing.
-/

namespace Postgamma.Embedded.MemoryTransport

namespace Transport

/-- What is never taken back. -/
structure Lasts (before after : Transport) : Prop where
  generation : after.generation = before.generation
  capacity : after.capacity = before.capacity
  aborted : before.aborted = true → after.aborted = true ∧ after.abortReason = before.abortReason
  writerClosed : ∀ writer, (before.queues writer).writerClosed = true →
    (after.queues writer).writerClosed = true
  readerClosed : ∀ writer, (before.queues writer).readerClosed = true →
    (after.queues writer).readerClosed = true

theorem Lasts.refl (transport : Transport) : transport.Lasts transport :=
  ⟨rfl, rfl, fun aborted => ⟨aborted, rfl⟩, fun _ => id, fun _ => id⟩

theorem Lasts.trans {first second third : Transport} (left : first.Lasts second)
    (right : second.Lasts third) : first.Lasts third where
  generation := right.generation.trans left.generation
  capacity := right.capacity.trans left.capacity
  aborted := fun aborted =>
    have middle := left.aborted aborted
    have last := right.aborted middle.1
    ⟨last.1, last.2.trans middle.2⟩
  writerClosed := fun writer closed => right.writerClosed writer (left.writerClosed writer closed)
  readerClosed := fun writer closed => right.readerClosed writer (left.readerClosed writer closed)

theorem Alike.lasts {before after : Transport} (alike : before.Alike after) :
    before.Lasts after where
  generation := alike.generation
  capacity := alike.capacity
  aborted := fun aborted => ⟨alike.aborted.trans aborted, alike.abortReason⟩
  writerClosed := fun writer closed => by rwa [alike.queues]
  readerClosed := fun writer closed => by rwa [alike.queues]

/-- A queue is replaced by one whose ends are no more open. -/
theorem lasts_putQueue {transport : Transport} {writer : Side} {queue : Queue}
    (written : (transport.queues writer).writerClosed = true → queue.writerClosed = true)
    (read : (transport.queues writer).readerClosed = true → queue.readerClosed = true) :
    transport.Lasts (transport.putQueue writer queue) := by
  refine ⟨rfl, rfl, fun aborted => ⟨aborted, rfl⟩, fun other closed => ?_, fun other closed => ?_⟩
  · obtain rfl | apart := eq_or_ne other writer
    · rw [putQueue_self]
      exact written closed
    · rwa [putQueue_of_ne apart]
  · obtain rfl | apart := eq_or_ne other writer
    · rw [putQueue_self]
      exact read closed
    · rwa [putQueue_of_ne apart]

theorem lasts_putEndpoint (transport : Transport) (side : Side) (endpoint : Endpoint) :
    transport.Lasts (transport.putEndpoint side endpoint) :=
  ⟨rfl, rfl, fun aborted => ⟨aborted, rfl⟩, fun _ => id, fun _ => id⟩

theorem lasts_closeEndpoint (transport : Transport) (side : Side) :
    transport.Lasts (transport.closeEndpoint side) := by
  have written : transport.Lasts
      (transport.putQueue side { transport.outbound side with writerClosed := true }) :=
    lasts_putQueue (fun _ => rfl) id
  have read (half : Transport) : half.Lasts
      (half.putQueue side.other { half.inbound side with readerClosed := true }) :=
    lasts_putQueue id fun _ => rfl
  exact (written.trans (read _)).trans (lasts_putEndpoint _ side _)

theorem lasts_release (globals : Globals) (transport : Transport) (side : Side) :
    transport.Lasts (transport.release globals side).transport := by
  rw [release_transport]
  split_ifs
  · exact (lasts_putEndpoint ..).trans (lasts_closeEndpoint ..)
  · exact lasts_putEndpoint ..

end Transport

theorem Transport.lasts_observeFull (transport : Transport) :
    transport.Lasts transport.observeFull := by
  rw [Transport.observeFull]
  split_ifs
  · exact ⟨rfl, rfl, fun aborted => ⟨aborted, rfl⟩, fun _ => id, fun _ => id⟩
  · exact .refl transport

variable {transport : Transport}

/-- No call takes a flag back. -/
theorem Did.lasts {globals : Globals} {side : Side} {call : Call}
    {effect : Effect} (did : Did globals transport side call effect) :
    transport.Lasts effect.transport := by
  cases did with
  | idle idle => exact idle.alike.lasts
  | retained => exact Transport.lasts_putEndpoint ..
  | released => exact Transport.lasts_release ..
  | received length =>
      obtain ⟨written, read⟩ := (transport.inbound side).read_ends transport.capacity length
      exact Transport.lasts_putQueue (fun closed => written.trans closed)
        fun closed => read.trans closed
  | sent source =>
      obtain ⟨written, read⟩ := (transport.outbound side).write_ends transport.capacity source
      have stored := Transport.lasts_putQueue (fun closed => written.trans closed)
        fun closed => read.trans closed
      exact stored.trans (Transport.lasts_observeFull _)
  | closed => exact Transport.lasts_putQueue (fun _ => rfl) id
  | aborted reason running =>
      refine ⟨rfl, rfl, fun aborted => ?_, fun _ => id, fun _ => id⟩
      rw [running] at aborted
      cases aborted
  | cancelled => exact ⟨rfl, rfl, fun aborted => ⟨aborted, rfl⟩, fun _ => id, fun _ => id⟩

/-- Every transport of one world is found in the other one, with nothing taken back. -/
def World.Lasts (before after : World) : Prop :=
  ∀ (index : ℕ) (slot : Slot), before.slots[index]? = some slot →
    ∃ next, after.slots[index]? = some next ∧ slot.transport.Lasts next.transport ∧
      slot.destructions ≤ next.destructions

theorem World.Lasts.refl (world : World) : world.Lasts world :=
  fun _ slot found => ⟨slot, found, .refl _, le_rfl⟩

theorem World.Lasts.trans {first second third : World} (left : first.Lasts second)
    (right : second.Lasts third) : first.Lasts third := by
  intro index slot found
  obtain ⟨middle, found, lasts, grown⟩ := left index slot found
  obtain ⟨last, found, lasts', grown'⟩ := right index middle found
  exact ⟨last, found, lasts.trans lasts', grown.trans grown'⟩

theorem Stepped.lasts {structSize : ℕ} {world after : World}
    (stepped : Stepped structSize world after) : world.Lasts after := by
  cases stepped with
  | refused => exact .refl world
  | created =>
      intro index slot found
      have less := (List.getElem?_eq_some_iff.1 found).1
      exact ⟨slot, (List.getElem?_append_left less).trans found, .refl _, le_rfl⟩
  | took taken live did =>
      rename_i place thread old side call effect
      intro index slot found
      obtain rfl | apart := eq_or_ne index place
      · cases taken.symm.trans found
        have less := (List.getElem?_eq_some_iff.1 found).1
        exact ⟨_, List.getElem?_set_self less, did.lasts, Nat.le_add_right ..⟩
      · exact ⟨slot, (List.getElem?_set_ne apart.symm).trans found, .refl _, le_rfl⟩

theorem Transport.referenced_of_ne_zero {side : Side}
    (referenced : (transport.endpoints side).references ≠ 0) :
    transport.unreferenced = false := by
  rw [Transport.unreferenced]
  cases side with
  | frontend => simp [referenced]
  | backend => simp [referenced]

theorem Transport.release_destroyed (globals : Globals) (transport : Transport) (side : Side) :
    (transport.release globals side).destroyed =
      (transport.release globals side).transport.unreferenced := by
  rw [release]
  split_ifs with last gone gone
  · exact gone.symm
  · exact (eq_false_of_ne_true gone).symm
  · exact gone.symm
  · exact (eq_false_of_ne_true gone).symm

/-- A call destroys the transport when it leaves no references. -/
theorem Did.destroyed {globals : Globals} {side : Side} {call : Call}
    {effect : Effect} (did : Did globals transport side call effect)
    (referenced : transport.unreferenced = false) :
    effect.destroyed = effect.transport.unreferenced := by
  cases did with
  | idle idle => rw [idle.kept, idle.alike.unreferenced, referenced]
  | retained =>
      have more : ((transport.putEndpoint side
          { transport.endpoints side with
            references := (transport.endpoints side).references + 1 }).endpoints side).references ≠
              0 := by
        rw [Transport.putEndpoint_self]
        exact Nat.succ_ne_zero _
      exact (Transport.referenced_of_ne_zero more).symm
  | released => exact Transport.release_destroyed globals transport side
  | received => exact referenced.symm
  | sent source =>
      refine referenced.symm.trans ?_
      simp only [Transport.announceTo, Transport.unreferenced, Transport.observeFull]
      split_ifs <;> rfl
  | closed => exact referenced.symm
  | aborted => exact referenced.symm
  | cancelled => exact referenced.symm

/-- A transport is destroyed once, when no endpoint has references. -/
def Slot.Accounted (slot : Slot) : Prop :=
  slot.destructions = slot.transport.unreferenced.toNat

theorem Slot.Accounted.after {globals : Globals} {slot : Slot} {thread : ℕ} {side : Side}
    {call : Call} {effect : Effect} (accounted : slot.Accounted) (live : slot.destructions = 0)
    (did : Did globals slot.transport side call effect) :
    (slot.after thread side call effect).Accounted := by
  rw [Slot.Accounted, live] at accounted
  have referenced : slot.transport.unreferenced = false := by
    cases found : slot.transport.unreferenced with
    | false => rfl
    | true =>
        rw [found] at accounted
        cases accounted
  change slot.destructions + effect.destroyed.toNat = effect.transport.unreferenced.toNat
  rw [live, did.destroyed referenced, Nat.zero_add]

/-- A list with one entry replaced. -/
theorem sum_map_set {items : List Slot} {index : ℕ} {item : Slot} (measure : Slot → ℕ)
    (other : Slot) (found : items[index]? = some item) :
    ((items.set index other).map measure).sum + measure item =
      (items.map measure).sum + measure other := by
  induction items generalizing index with
  | nil => cases found
  | cons first rest induction =>
      cases index with
      | zero =>
          cases found
          simp only [List.set_cons_zero, List.map_cons, List.sum_cons]
          omega
      | succ index =>
          have moved : ((rest.set index other).map measure).sum + measure item =
              (rest.map measure).sum + measure other := induction found
          simp only [List.set_cons_succ, List.map_cons, List.sum_cons]
          omega

/-- A measure of a transport that lives. -/
def Slot.worth (measure : Transport → ℕ) (slot : Slot) : ℕ :=
  if slot.destructions = 0 then measure slot.transport else 0

/-- The references of both endpoints. -/
def Transport.references (transport : Transport) : ℕ :=
  (transport.endpoints .frontend).references + (transport.endpoints .backend).references

/-- The transports that live. -/
def World.living (world : World) : List Transport :=
  (world.slots.filter fun slot => slot.destructions = 0).map Slot.transport

theorem World.sum_living (world : World) (measure : Transport → ℕ) :
    (world.living.map measure).sum = (world.slots.map (Slot.worth measure)).sum := by
  rw [living]
  induction world.slots with
  | nil => rfl
  | cons slot rest induction =>
      rw [List.filter_cons, List.map_cons, List.sum_cons, ← induction, Slot.worth]
      split_ifs with live dead dead
      · rfl
      · simp [dead] at live
      · simp [dead] at live
      · exact (Nat.zero_add _).symm

/-- One counter of the module over a measure of the transports. -/
structure Counts (counter : Globals → UInt64) (measure : Transport → ℕ) : Prop where
  start : counter World.initial.globals = 0
  created : ∀ {structSize generation capacity : ℕ} {globals after : Globals}
    {provision : Provision} {transport : Transport},
    create structSize globals generation capacity provision = .ok (after, transport) →
      counter after = counter globals + UInt64.ofNat (measure transport)
  moved : ∀ {globals : Globals} {transport : Transport} {side : Side} {call : Call}
    {effect : Effect}, Did globals transport side call effect →
      counter effect.globals + UInt64.ofNat (measure transport) = counter globals +
        UInt64.ofNat (if effect.destroyed = true then 0 else measure effect.transport)

/-- A counter is the sum of its measure over the transports that live. -/
theorem Counts.sum_living {counter : Globals → UInt64} {measure : Transport → ℕ}
    (counts : Counts counter measure) {structSize : ℕ} {world : World}
    (reached : world.Reached structSize) :
    counter world.globals = UInt64.ofNat (world.living.map measure).sum := by
  obtain ⟨actions, ran⟩ := reached
  rw [World.sum_living]
  refine runs_preserves (motive := fun world => counter world.globals =
    UInt64.ofNat (world.slots.map (Slot.worth measure)).sum) (fun before stepped => ?_)
    counts.start ran
  cases World.step_stepped stepped with
  | refused => exact before
  | created made =>
      rw [counts.created made, before, List.map_append, List.sum_append, UInt64.ofNat_add]
      simp [Slot.worth]
  | took found live did =>
      rename_i world action place thread slot side call effect
      have worth : Slot.worth measure slot = measure slot.transport := if_pos live
      have next : Slot.worth measure (slot.after thread side call effect) =
          if effect.destroyed = true then 0 else measure effect.transport := by
        simp only [Slot.worth, Slot.after, live]
        cases effect.destroyed <;> rfl
      have whole := congrArg UInt64.ofNat
        (sum_map_set (Slot.worth measure) (slot.after thread side call effect) found)
      have moved := counts.moved did
      rw [UInt64.ofNat_add, UInt64.ofNat_add, worth, next] at whole
      change counter effect.globals = UInt64.ofNat ((world.slots.set place _).map _).sum
      grind

theorem create_ok {structSize generation capacity : ℕ} {globals after : Globals}
    {provision : Provision}
    (made : create structSize globals generation capacity provision = .ok (after, transport)) :
    after =
      { activeTransports := globals.activeTransports + 1
        endpointReferences := globals.endpointReferences + 2
        allocatedBytes := globals.allocatedBytes + UInt64.ofNat (structSize + 2 * capacity) } ∧
    transport = .fresh generation capacity (structSize + 2 * capacity) := by
  unfold create at made
  split_ifs at made
  cases provision with
  | granted =>
      cases made
      exact ⟨rfl, rfl⟩
  | noMemory => cases made
  | failed => cases made

/-- The counters behind a release. -/
theorem Transport.release_globals (globals : Globals) (transport : Transport) (side : Side) :
    (transport.release globals side).globals =
      if (transport.release globals side).destroyed = true then
        { activeTransports := globals.activeTransports - 1
          endpointReferences := globals.endpointReferences - 1
          allocatedBytes := globals.allocatedBytes - UInt64.ofNat transport.allocationSize }
      else { globals with endpointReferences := globals.endpointReferences - 1 } := by
  rw [release]
  split_ifs <;> first | rfl | contradiction

theorem Transport.release_allocationSize (globals : Globals) (transport : Transport)
    (side : Side) :
    (transport.release globals side).transport.allocationSize = transport.allocationSize := by
  rw [release_transport]
  split_ifs <;> rfl

theorem Transport.closeEndpoint_references (transport : Transport) (side other : Side) :
    ((transport.closeEndpoint side).endpoints other).references =
      (transport.endpoints other).references := by
  rw [closeEndpoint]
  obtain rfl | apart := eq_or_ne other side
  · rw [putEndpoint_self]
    rfl
  · rw [putEndpoint_of_ne apart]
    rfl

/-- The references behind a release. -/
theorem Transport.release_endpoints (globals : Globals) (transport : Transport)
    (side other : Side) :
    ((transport.release globals side).transport.endpoints other).references =
      ((transport.putEndpoint side
        { transport.endpoints side with
          references := (transport.endpoints side).references - 1 }).endpoints
            other).references := by
  rw [release_transport]
  split_ifs
  · exact closeEndpoint_references ..
  · rfl

theorem Transport.release_references (globals : Globals) {side : Side}
    (referenced : (transport.endpoints side).references ≠ 0) :
    (transport.release globals side).transport.references + 1 = transport.references := by
  rw [references, references, release_endpoints, release_endpoints]
  cases side with
  | frontend =>
      rw [putEndpoint_self, putEndpoint_of_ne (by decide)]
      change _ - 1 + _ + 1 = _
      omega
  | backend =>
      rw [putEndpoint_self, putEndpoint_of_ne (by decide)]
      change _ + (_ - 1) + 1 = _
      omega

/-- One more reference of one endpoint. -/
theorem Transport.retain_references (transport : Transport) (side : Side) :
    (transport.putEndpoint side
      { transport.endpoints side with
        references := (transport.endpoints side).references + 1 }).references =
      transport.references + 1 := by
  rw [references, references]
  cases side with
  | frontend =>
      rw [putEndpoint_self, putEndpoint_of_ne (by decide)]
      exact Nat.add_right_comm ..
  | backend =>
      rw [putEndpoint_self, putEndpoint_of_ne (by decide)]
      rfl

theorem Transport.references_eq_zero
    (unreferenced : transport.unreferenced = true) : transport.references = 0 := by
  rw [Transport.unreferenced, Bool.and_eq_true, decide_eq_true_eq, decide_eq_true_eq]
    at unreferenced
  rw [references, unreferenced.1, unreferenced.2]

theorem Transport.Alike.same_references {before after : Transport} (alike : before.Alike after) :
    after.references = before.references := by
  rw [Transport.references, Transport.references, alike.references, alike.references]

/-- The number of transports that live. -/
theorem counts_activeTransports : Counts Globals.activeTransports fun _ => 1 where
  start := rfl
  created := fun made => by rw [(create_ok made).1]; rfl
  moved := fun did => by
    cases did with
    | idle idle => rw [idle.globals, idle.kept]; rfl
    | released =>
        rw [Transport.release_globals]
        split_ifs
        · change _ - 1 + 1 = _ + 0
          grind
        · rfl
    | retained => rfl
    | received => rfl
    | sent => rfl
    | closed => rfl
    | aborted => rfl
    | cancelled => rfl

/-- The references of the transports that live. -/
theorem counts_endpointReferences :
    Counts Globals.endpointReferences Transport.references where
  start := rfl
  created := fun made => by
    rw [(create_ok made).1, (create_ok made).2]
    rfl
  moved := fun did => by
    cases did with
    | idle idle => rw [idle.globals, idle.kept, idle.alike.same_references]; rfl
    | released referenced =>
        rename_i globals transport side
        have left := Transport.release_references globals referenced
        have rest : (if (transport.release globals side).destroyed = true then 0
            else (transport.release globals side).transport.references) =
            (transport.release globals side).transport.references := by
          split_ifs with destroyed
          · rw [Transport.release_destroyed] at destroyed
            exact (Transport.references_eq_zero destroyed).symm
          · rfl
        have taken : (transport.release globals side).globals.endpointReferences =
            globals.endpointReferences - 1 := by
          rw [Transport.release_globals]
          split_ifs <;> rfl
        rw [rest, taken, ← left, UInt64.ofNat_add]
        change _ - 1 + (_ + 1) = _
        grind
    | retained =>
        rename_i globals transport side referenced
        have more := transport.retain_references side
        simp only [Effect.quiet, Bool.false_eq_true, if_false]
        rw [more, UInt64.ofNat_add]
        change _ + 1 + _ = _ + (_ + 1)
        grind
    | received => rfl
    | sent source =>
        rename_i globals transport side unclosed room
        simp only [Transport.announceTo, Bool.false_eq_true, if_false]
        rw [Transport.references, Transport.observeFull]
        split_ifs <;> rfl
    | closed => rfl
    | aborted => rfl
    | cancelled => rfl

/-- The bytes of the transports that live. -/
theorem counts_allocatedBytes : Counts Globals.allocatedBytes Transport.allocationSize where
  start := rfl
  created := fun made => by
    rw [(create_ok made).1, (create_ok made).2]
    rfl
  moved := fun did => by
    cases did with
    | idle idle => rw [idle.globals, idle.kept, idle.alike.allocationSize]; rfl
    | released =>
        rw [Transport.release_allocationSize, Transport.release_globals]
        split_ifs
        · change _ - _ + _ = _ + 0
          grind
        · rfl
    | retained => rfl
    | received => rfl
    | sent source =>
        simp only [Transport.announceTo, Bool.false_eq_true, if_false, Transport.observeFull]
        split_ifs <;> rfl
    | closed => rfl
    | aborted => rfl
    | cancelled => rfl

def Status.refuses : Status → Bool
  | .invalidArgument => true
  | .contractViolation => true
  | .staleGeneration => true
  | _ => false

/-- A call with another generation is refused. -/
theorem Transport.call_stale {generation : ℕ}
    (stale : transport.generation ≠ generation) (globals : Globals) (side : Side) (call : Call) :
    ∃ status, Status.refuses status = true ∧
      transport.call globals side generation call =
        .quiet globals transport (call.refusal status) := by
  rw [Transport.call, Transport.lockEndpoint]
  split_ifs with invalid gone
  · exact ⟨.invalidArgument, rfl, rfl⟩
  · exact ⟨.contractViolation, rfl, rfl⟩
  · exact ⟨.staleGeneration, rfl, rfl⟩

theorem Slot.signal_false (waiters : ℕ → Option Waiter) : Slot.signal false waiters = waiters := by
  funext thread
  rw [Slot.signal]
  cases waiters thread with
  | none => rfl
  | some waiter => simp

/-- A refused call of a thread that is not asleep leaves a record. -/
theorem Slot.after_quiet {slot : Slot} {thread : ℕ} (awake : slot.waiters thread = none)
    (globals : Globals) (side : Side) (call : Call) (answer : Answer) :
    slot.after thread side call (.quiet globals slot.transport answer) =
      { slot with history := slot.history ++ [⟨side, call, answer⟩] } := by
  have silent : Slot.sleeper side call (some answer) = none := by
    cases call <;> rfl
  have same : Function.update slot.waiters thread none = slot.waiters := by
    rw [← awake, Function.update_eq_self]
  simp only [Slot.after, Effect.quiet, Slot.signal_false, silent, same, Slot.recorded,
    List.append_nil, Bool.toNat_false, Nat.add_zero]

/-- Over every run: a transport is destroyed once, exactly when neither endpoint has references;
nothing is taken back in any later world; the counters of the module are, as 64-bit numbers, the
sums over the transports that live; and a call with another generation returns an error and
changes nothing. -/
theorem transports_counted {structSize : ℕ} {world : World} (reached : world.Reached structSize) :
    (∀ slot ∈ world.slots,
      slot.destructions = if slot.transport.unreferenced = true then 1 else 0) ∧
    (∀ actions after, runs (World.step structSize) world actions = some after →
      world.Lasts after) ∧
    (world.globals.activeTransports = UInt64.ofNat world.living.length ∧
      world.globals.endpointReferences =
        UInt64.ofNat (world.living.map Transport.references).sum ∧
      world.globals.allocatedBytes =
        UInt64.ofNat (world.living.map Transport.allocationSize).sum) ∧
    ∀ index thread side generation call slot after, world.slots[index]? = some slot →
      slot.transport.generation ≠ generation →
      world.step structSize (.call index thread side generation call) = .ok (some after) →
        ∃ status, Status.refuses status = true ∧
          after =
            { world with
              slots := world.slots.set index
                { slot with history := slot.history ++ [⟨side, call, call.refusal status⟩] } } := by
  refine ⟨fun slot member => ?_, fun actions after ran => ?_, ⟨?_,
    counts_endpointReferences.sum_living reached, counts_allocatedBytes.sum_living reached⟩, ?_⟩
  · have accounted := reached.slots (motive := Slot.Accounted)
      (fun made => by rw [(create_ok made).2]; rfl)
      (fun before live did => before.after live did) slot member
    rw [accounted]
    cases slot.transport.unreferenced <;> rfl
  · exact runs_preserves (motive := fun later => world.Lasts later)
      (fun before stepped => before.trans (World.step_stepped stepped).lasts) (.refl world) ran
  · have counted := counts_activeTransports.sum_living reached
    rwa [List.map_const', List.sum_replicate, smul_eq_mul, Nat.mul_one] at counted
  · intro index thread side generation call slot after found stale stepped
    obtain ⟨status, refuses, quiet⟩ :=
      slot.transport.call_stale stale world.globals side call
    refine ⟨status, refuses, ?_⟩
    simp only [World.step, found] at stepped
    split_ifs at stepped with free
    · simp at stepped
    · have awake : slot.waiters thread = none :=
        Option.not_isSome_iff_eq_none.1 (not_or.1 free).2
      rw [← Option.some.inj (Except.ok.inj stepped), quiet, World.take, Slot.after_quiet awake]
      rfl

/-- Two transports, of which the first is retained, aborted and given up by both sides. -/
def givenUpActions : List Action :=
  [.create 7 4 .granted, .create 9 4 .granted, .call 0 1 .frontend 7 .retain,
    .call 0 2 .backend 7 (.abort .protocol), .call 0 1 .frontend 7 .release,
    .call 0 2 .backend 7 .release, .call 0 1 .frontend 7 .release]

def givenUp : World := (runs (World.step 392) World.initial givenUpActions).getD World.initial

/-- The first transport is destroyed once, and the counters are those of the second one. -/
theorem transports_counted_released : (∃ slot ∈ givenUp.slots,
    slot.transport.aborted = true ∧ slot.destructions = 1) ∧
      givenUp.globals.activeTransports = 1 ∧ givenUp.globals.endpointReferences = 2 := by
  have ran : (runs (World.step 392) World.initial givenUpActions).isSome = true := by decide
  obtain ⟨world, found⟩ := Option.isSome_iff_exists.1 ran
  have reached : givenUp.Reached 392 :=
    ⟨givenUpActions, by rw [givenUp, found, Option.getD_some]⟩
  obtain ⟨destroyed, -, ⟨active, references, -⟩, -⟩ := transports_counted reached
  have first : ∃ slot, givenUp.slots[0]? = some slot ∧ slot.transport.aborted = true ∧
      slot.transport.unreferenced = true := ⟨_, rfl, by decide, by decide⟩
  obtain ⟨slot, place, aborted, unreferenced⟩ := first
  have member := List.mem_of_getElem? place
  refine ⟨⟨slot, member, aborted, ?_⟩, ?_, ?_⟩
  · rw [destroyed slot member, if_pos unreferenced]
  · rw [active, show givenUp.living.length = 1 by decide]
    rfl
  · rw [references, show (givenUp.living.map Transport.references).sum = 2 by decide]
    rfl

end Postgamma.Embedded.MemoryTransport
