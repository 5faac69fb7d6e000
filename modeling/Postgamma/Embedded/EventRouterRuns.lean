import Mathlib
import Postgamma.Library.Ring
import Postgamma.Library.Program
import Postgamma.Embedded.EventRouter

/-!
# Runs of the event queue

No event is lost or duplicated along a run, the overflow records add up to what was dropped, and an
event is only overtaken by a take that does not admit it.
-/

namespace Postgamma.Embedded.EventRouter

variable {router : EventRouter}

theorem search_spec {filter : EventFilter} {fuel offset : ℕ} :
    (∀ found, router.search filter fuel offset = some found →
      offset ≤ found ∧ found < offset + fuel ∧
      filter.admits (router.entries ((router.head + found) % router.capacity)) = true ∧
      ∀ other, offset ≤ other → other < found →
        filter.admits (router.entries ((router.head + other) % router.capacity)) = false) := by
  induction fuel generalizing offset with
  | zero => nofun
  | succ fuel induction =>
      intro found search
      rw [EventRouter.search] at search
      split_ifs at search with admitted
      · obtain rfl := Option.some.inj search
        exact ⟨le_rfl, by omega, admitted, fun other low high => absurd low (by omega)⟩
      · obtain ⟨low, high, here, before⟩ := induction found search
        refine ⟨by omega, by omega, here, fun other least most => ?_⟩
        obtain rfl | later := Nat.eq_or_lt_of_le least
        · exact Bool.eq_false_iff.2 admitted
        · exact before other later most

/-- What `take_event_locked` finds: the first event of the queue that the filter admits. -/
theorem search_split {filter : EventFilter} {offset : ℕ}
    (found : router.search filter router.count 0 = some offset) :
    ∃ before event behind, router.queue = before ++ event :: behind ∧ before.length = offset ∧
      event = router.entries ((router.head + offset) % router.capacity) ∧
      filter.admits event = true ∧ ∀ older ∈ before, filter.admits older = false := by
  obtain ⟨-, inside, here, earlier⟩ := search_spec offset found
  rw [Nat.zero_add] at inside
  have length : offset < router.queue.length := by rw [queue, window_length]; exact inside
  have entry : router.queue[offset] =
      router.entries ((router.head + offset) % router.capacity) := by
    simp [queue, window]
  refine ⟨router.queue.take offset, router.queue[offset], router.queue.drop (offset + 1), ?_, ?_,
    entry, entry ▸ here, fun older member => ?_⟩
  · rw [List.getElem_cons_drop, List.take_append_drop]
  · rw [List.length_take, Nat.min_eq_left length.le]
  · obtain ⟨place, bound, rfl⟩ := List.getElem_of_mem member
    rw [List.length_take, Nat.min_eq_left length.le] at bound
    rw [List.getElem_take]
    simpa [queue, window] using earlier place (Nat.zero_le _) bound

theorem removeAt_queue (full : router.count ≤ router.capacity) {offset : ℕ}
    (inside : offset < router.count) :
    (router.removeAt offset).queue = router.queue.eraseIdx offset := by
  rw [queue, queue, ← window_remove router.entries full inside]
  change window _ _ (if router.count - 1 = 0 then 0 else router.head) _ = _
  split_ifs with last
  · rw [removeAt, last, window_zero, window_zero]
  · rfl

/-- Clearing changes the entries only. -/
theorem clearLoop_frame (router : EventRouter) (selected : Event → Bool) (fuel offset : ℕ) :
    ∃ entries, router.clearLoop selected fuel offset = { router with entries := entries } := by
  induction fuel generalizing router offset with
  | zero => exact ⟨router.entries, rfl⟩
  | succ fuel induction =>
      rw [clearLoop]
      split_ifs
      · exact induction _ _
      · exact induction _ _

def clearIf (selected : Event → Bool) (event : Event) : Event :=
  if selected event = true then cleared event else event

theorem clearLoop_queue (full : router.count ≤ router.capacity)
    (selected : Event → Bool) {fuel offset : ℕ} (rest : offset + fuel = router.count) :
    (router.clearLoop selected fuel offset).queue =
      router.queue.take offset ++ (router.queue.drop offset).map (clearIf selected) := by
  induction fuel generalizing router offset with
  | zero =>
      have whole : router.queue.length ≤ offset := by rw [queue, window_length]; omega
      rw [clearLoop, List.drop_eq_nil_of_le whole, List.map_nil, List.append_nil,
        List.take_of_length_le whole]
  | succ fuel induction =>
      have inside : offset < router.count := by omega
      have length : offset < router.queue.length := by rw [queue, window_length]; exact inside
      have entry : router.queue[offset] =
          router.entries ((router.head + offset) % router.capacity) := by
        simp [queue, window]
      have shape : (router.queue.drop offset).map (clearIf selected) =
          clearIf selected router.queue[offset] ::
            (router.queue.drop (offset + 1)).map (clearIf selected) := by
        rw [← List.getElem_cons_drop length, List.map_cons]
      rw [shape, clearLoop]
      split_ifs with chosen
      · set next : EventRouter :=
          { router with
            entries := Function.update router.entries
              ((router.head + offset) % router.capacity)
              (cleared (router.entries ((router.head + offset) % router.capacity))) } with made
        have moved : next.queue = router.queue.set offset (cleared router.queue[offset]) := by
          rw [entry]
          exact window_set router.entries _ full inside
        have looped : (next.clearLoop selected fuel (offset + 1)).queue =
            next.queue.take (offset + 1) ++ (next.queue.drop (offset + 1)).map (clearIf selected) :=
          induction (show next.count ≤ next.capacity from full)
            (show offset + 1 + fuel = next.count by change _ = router.count; omega)
        rw [looped, moved, List.drop_set_of_lt (Nat.lt_succ_self _),
          List.take_succ_eq_append_getElem (by simpa), List.take_set_of_le le_rfl,
          List.getElem_set_self, List.append_assoc, List.singleton_append, clearIf,
          if_pos (entry ▸ chosen)]
      · rw [induction full (by omega), List.take_succ_eq_append_getElem length,
          List.append_assoc, List.singleton_append, clearIf, if_neg (entry ▸ chosen)]

/-- The queue behind a `forget` or the end of a close. -/
theorem clear_queue (full : router.count ≤ router.capacity) (selected : Event → Bool) :
    (router.clearLoop selected router.count 0).queue = router.queue.map (clearIf selected) := by
  rw [clearLoop_queue full selected (Nat.zero_add _), List.take_zero, List.drop_zero,
    List.nil_append]

@[simp] theorem clearIf_kind (selected : Event → Bool) (event : Event) :
    (clearIf selected event).kind = event.kind := by
  unfold clearIf
  split_ifs <;> rfl

@[simp] theorem clearIf_number (selected : Event → Bool) (event : Event) :
    (clearIf selected event).number = event.number := by
  unfold clearIf
  split_ifs <;> rfl

@[simp] theorem clearIf_request (selected : Event → Bool) (event : Event) :
    (clearIf selected event).request = event.request := by
  unfold clearIf
  split_ifs <;> rfl

@[simp] theorem clearIf_connection (selected : Event → Bool) (event : Event) :
    (clearIf selected event).connection = event.connection := by
  unfold clearIf
  split_ifs <;> rfl

theorem clearIf_callback {selected : Event → Bool} {event : Event}
    (kept : (clearIf selected event).callback = true) :
    selected event = false ∧ event.callback = true := by
  unfold clearIf at kept
  split_ifs at kept with chosen
  · exact absurd kept (by simp [cleared])
  · exact ⟨Bool.eq_false_iff.2 chosen, kept⟩

/-- A filter admits no more of an event whose callback was cleared. -/
theorem admits_clearIf {filter : EventFilter} {selected : Event → Bool} {event : Event}
    (refused : filter.admits event = false) (progress : filter ≠ .all) :
    filter.admits (clearIf selected event) = false := by
  cases filter with
  | all => exact absurd rfl progress
  | progress connection request =>
      by_contra admitted
      rw [Bool.not_eq_false] at admitted
      simp only [EventFilter.admits, Bool.and_eq_true, clearIf_connection, clearIf_request]
        at admitted
      have spoken := (clearIf_callback admitted.1.1).2
      simp only [EventFilter.admits, spoken, Bool.true_and] at refused
      rw [Bool.and_eq_false_iff] at refused
      obtain elsewhere | other := refused
      · rw [elsewhere] at admitted
        exact absurd admitted.1.2 nofun
      · rw [other] at admitted
        exact absurd admitted.2 nofun

def countKind (kind : EventKind) (events : List Event) : ℕ :=
  events.countP fun event => event.kind = kind

/-- The dropped events of a kind that overflow records have reported. -/
def reportedSum (kind : EventKind) (handed : List (EventKind × ℕ)) : ℕ :=
  ((handed.filter fun record => record.1 = kind).map Prod.snd).sum

/-- What holds of the event queue at every moment. -/
structure Sound (router : EventRouter) : Prop where
  full : router.count ≤ router.capacity
  conserved : ∀ kind, router.submitted kind =
    countKind kind (router.delivered.map Delivery.event) + countKind kind router.queue +
      router.dropped kind
  reported : ∀ kind, reportedSum kind router.handed = router.reportedDropped kind ∧
    router.reportedDropped kind ≤ router.dropped kind
  ordered : router.queue.Pairwise fun older newer => older.number < newer.number
  known : (∀ event ∈ router.queue, event.number < router.numbers) ∧
    ∀ delivery ∈ router.delivered, delivery.event.number < router.numbers
  once : (router.delivered.map fun delivery => delivery.event.number).Nodup ∧
    ∀ delivery ∈ router.delivered, ∀ event ∈ router.queue, delivery.event.number ≠ event.number
  admitted : ∀ delivery ∈ router.delivered, delivery.filter.admits delivery.event = true
  waiting : ∀ delivery ∈ router.delivered, ∀ event ∈ router.queue,
    event.number < delivery.event.number → delivery.filter.admits event = false
  overtaken : router.delivered.Pairwise fun later earlier =>
    later.event.number < earlier.event.number → earlier.filter.admits later.event = false

theorem create_sound (capacity : ℕ) : (create capacity).Sound where
  full := Nat.zero_le _
  conserved := fun _ => rfl
  reported := fun _ => ⟨rfl, le_rfl⟩
  ordered := .nil
  known := ⟨nofun, nofun⟩
  once := ⟨.nil, nofun⟩
  admitted := nofun
  waiting := nofun
  overtaken := .nil

theorem countKind_append (kind : EventKind) (first second : List Event) :
    countKind kind (first ++ second) = countKind kind first + countKind kind second :=
  List.countP_append

theorem countKind_cons (kind : EventKind) (event : Event) (events : List Event) :
    countKind kind (event :: events) =
      countKind kind events + if event.kind = kind then 1 else 0 := by
  simp [countKind, List.countP_cons]

theorem Sound.drop (sound : router.Sound) (kind : EventKind) :
    ({ router with
        submitted := Function.update router.submitted kind (router.submitted kind + 1)
        numbers := router.numbers + 1 }.recordDrop kind).Sound := by
  refine
    { sound with
      conserved := fun other => ?_, reported := fun other => ?_
      known := ⟨fun event member => Nat.lt_succ_of_lt (sound.known.1 event member),
        fun delivery member => Nat.lt_succ_of_lt (sound.known.2 delivery member)⟩ }
  · change Function.update router.submitted kind (router.submitted kind + 1) other =
      countKind other (router.delivered.map Delivery.event) + countKind other router.queue +
        Function.update router.dropped kind (router.dropped kind + 1) other
    have before := sound.conserved other
    by_cases same : other = kind
    · subst same
      rw [Function.update_self, Function.update_self]
      omega
    · rw [Function.update_of_ne same, Function.update_of_ne same]
      exact before
  · obtain ⟨sum, less⟩ := sound.reported other
    refine ⟨sum, less.trans ?_⟩
    change _ ≤ Function.update router.dropped kind _ other
    by_cases same : other = kind
    · subst same
      rw [Function.update_self]
      exact Nat.le_succ _
    · rw [Function.update_of_ne same]

/-- A submission that is queued. -/
theorem Sound.enqueue {router : EventRouter} (sound : router.Sound) {event : Event}
    (room : router.count ≠ router.capacity) (fresh : event.number = router.numbers) :
    ({ router with
        submitted := Function.update router.submitted event.kind (router.submitted event.kind + 1)
        numbers := router.numbers + 1
        entries := Function.update router.entries
          ((router.head + router.count) % router.capacity) event
        count := router.count + 1 } : EventRouter).Sound := by
  have space : router.count < router.capacity := lt_of_le_of_ne sound.full room
  have pushed : window (Function.update router.entries
      ((router.head + router.count) % router.capacity) event) router.capacity router.head
        (router.count + 1) = router.queue ++ [event] := window_push router.entries event space
  refine
    { full := space, conserved := fun kind => ?_, reported := sound.reported, ordered := ?_
      known := ⟨?_, fun delivery member => Nat.lt_succ_of_lt (sound.known.2 delivery member)⟩
      once := ⟨sound.once.1, ?_⟩, admitted := sound.admitted, waiting := ?_
      overtaken := sound.overtaken }
  · change Function.update router.submitted event.kind (router.submitted event.kind + 1) kind =
      countKind kind (router.delivered.map Delivery.event) +
        countKind kind (window _ _ _ (router.count + 1)) + router.dropped kind
    have before := sound.conserved kind
    rw [pushed, countKind_append, countKind_cons]
    by_cases same : event.kind = kind
    · subst same
      rw [Function.update_self, if_pos rfl]
      change _ = _ + (_ + (0 + 1)) + _
      omega
    · rw [Function.update_of_ne (Ne.symm same), if_neg same]
      exact before
  · change (window _ _ _ (router.count + 1)).Pairwise _
    rw [pushed, List.pairwise_append]
    refine ⟨sound.ordered, List.pairwise_singleton _ _, fun older member newer last => ?_⟩
    rw [List.mem_singleton.1 last, fresh]
    exact sound.known.1 older member
  · change ∀ other ∈ window _ _ _ (router.count + 1), _
    rw [pushed]
    intro other member
    obtain old | last := List.mem_append.1 member
    · exact Nat.lt_succ_of_lt (sound.known.1 other old)
    · rw [List.mem_singleton.1 last, fresh]
      exact Nat.lt_succ_self _
  · change ∀ delivery ∈ router.delivered, ∀ other ∈ window _ _ _ (router.count + 1), _
    rw [pushed]
    intro delivery taken other member
    obtain old | last := List.mem_append.1 member
    · exact sound.once.2 delivery taken other old
    · rw [List.mem_singleton.1 last, fresh]
      exact (sound.known.2 delivery taken).ne
  · change ∀ delivery ∈ router.delivered, ∀ other ∈ window _ _ _ (router.count + 1), _
    rw [pushed]
    intro delivery taken other member older
    obtain old | last := List.mem_append.1 member
    · exact sound.waiting delivery taken other old older
    · rw [List.mem_singleton.1 last, fresh] at older
      exact absurd (sound.known.2 delivery taken) (by omega)

theorem Sound.submit {router : EventRouter} (sound : router.Sound) (kind : EventKind)
    (connection request : ℕ) (callback fits contended : Bool) :
    (router.submit kind connection request callback fits contended).Sound := by
  rw [EventRouter.submit]
  split_ifs with complete
  · rw [enqueueEvent]
    split_ifs with waits full
    · exact sound.drop kind
    · exact sound.drop kind
    · exact sound.enqueue full rfl
  · exact sound.drop kind

theorem Sound.takeEvent (sound : router.Sound) (filter : EventFilter)
    (memory : Bool) : (router.takeEvent filter memory).1.Sound := by
  rw [EventRouter.takeEvent]
  cases found : router.search filter router.count 0 with
  | none => exact sound
  | some offset =>
      dsimp only
      split_ifs with exhausted
      · exact sound
      obtain ⟨before, event, behind, shape, place, entry, admitted, passed⟩ := search_split found
      have inside : offset < router.count := by
        have length := congrArg List.length shape
        rw [queue, window_length] at length
        simp only [List.length_append, List.length_cons] at length
        omega
      have rest : (router.removeAt offset).queue = before ++ behind := by
        rw [removeAt_queue sound.full inside, shape, ← place, List.eraseIdx_append_of_length_le le_rfl,
          Nat.sub_self]
        rfl
      rw [← entry]
      have apart := sound.ordered
      rw [shape, List.pairwise_append, List.pairwise_cons] at apart
      obtain ⟨ordered, ⟨above, orderedBehind⟩, across⟩ := apart
      have member (other : Event) (kept : other ∈ before ++ behind) : other ∈ router.queue := by
        rw [shape]
        obtain low | high := List.mem_append.1 kept
        · exact List.mem_append_left _ low
        · exact List.mem_append_right _ (List.mem_cons_of_mem _ high)
      have own : event ∈ router.queue := by simp [shape]
      refine
        { full := Nat.le_trans (Nat.sub_le _ _) sound.full, conserved := fun kind => ?_
          reported := sound.reported, ordered := ?_, known := ⟨?_, ?_⟩, once := ⟨?_, ?_⟩
          admitted := ?_, waiting := ?_, overtaken := ?_ }
      · change router.submitted kind = countKind kind (event :: router.delivered.map Delivery.event) +
          countKind kind (router.removeAt offset).queue + router.dropped kind
        rw [rest, sound.conserved kind, shape, countKind_cons, countKind_append, countKind_append,
          countKind_cons]
        omega
      · change (router.removeAt offset).queue.Pairwise _
        rw [rest, List.pairwise_append]
        exact ⟨ordered, orderedBehind, fun older low newer high =>
          across older low newer (List.mem_cons_of_mem _ high)⟩
      · change ∀ other ∈ (router.removeAt offset).queue, _
        rw [rest]
        exact fun other kept => sound.known.1 other (member other kept)
      · intro delivery taken
        obtain rfl | old := List.mem_cons.1 taken
        · exact sound.known.1 event own
        · exact sound.known.2 delivery old
      · change (event.number :: router.delivered.map fun delivery => delivery.event.number).Nodup
        refine List.nodup_cons.2 ⟨fun listed => ?_, sound.once.1⟩
        obtain ⟨delivery, taken, same⟩ := List.mem_map.1 listed
        exact sound.once.2 delivery taken event own same
      · change ∀ delivery ∈ _ :: router.delivered, ∀ other ∈ (router.removeAt offset).queue, _
        rw [rest]
        intro delivery taken other kept
        obtain rfl | old := List.mem_cons.1 taken
        · obtain low | high := List.mem_append.1 kept
          · exact (across other low event (List.mem_cons_self ..)).ne'
          · exact (above other high).ne
        · exact sound.once.2 delivery old other (member other kept)
      · intro delivery taken
        obtain rfl | old := List.mem_cons.1 taken
        · exact admitted
        · exact sound.admitted delivery old
      · change ∀ delivery ∈ _ :: router.delivered, ∀ other ∈ (router.removeAt offset).queue, _
        rw [rest]
        intro delivery taken other kept older
        obtain rfl | old := List.mem_cons.1 taken
        · obtain low | high := List.mem_append.1 kept
          · exact passed other low
          · exact absurd older (by have := above other high; change ¬_ < event.number; omega)
        · exact sound.waiting delivery old other (member other kept) older
      · refine List.pairwise_cons.2 ⟨fun earlier old older => ?_, sound.overtaken⟩
        exact sound.waiting earlier old event own older

theorem Sound.takeOverflow (sound : router.Sound) (memory : Bool)
    (kinds : List EventKind) : (router.takeOverflow memory kinds).Sound := by
  induction kinds with
  | nil => exact sound
  | cons kind kinds induction =>
      rw [EventRouter.takeOverflow]
      split_ifs with settled exhausted
      · exact induction
      · exact sound
      · refine { sound with reported := fun other => ?_ }
        obtain ⟨sum, less⟩ := sound.reported other
        change reportedSum other ((kind, _) :: router.handed) =
            Function.update router.reportedDropped kind _ other ∧
          Function.update router.reportedDropped kind _ other ≤ router.dropped other
        by_cases same : other = kind
        · subst same
          rw [Function.update_self]
          refine ⟨?_, le_rfl⟩
          rw [reportedSum, List.filter_cons_of_pos (by simp), List.map_cons, List.sum_cons]
          change _ + reportedSum other router.handed = _
          omega
        · rw [Function.update_of_ne same]
          refine ⟨?_, less⟩
          rw [reportedSum, List.filter_cons_of_neg (by simpa using Ne.symm same)]
          exact sum

theorem Sound.take (sound : router.Sound) (filter : EventFilter)
    (memory overflowMemory : Bool) : (router.take filter memory overflowMemory).1.Sound := by
  have taken := sound.takeEvent filter memory
  rw [EventRouter.take]
  generalize router.takeEvent filter memory = result at taken ⊢
  obtain ⟨next, event⟩ := result
  cases event with
  | some event => exact taken
  | none =>
      dsimp only
      split_ifs
      · exact Sound.takeOverflow taken overflowMemory _
      · exact taken

theorem Sound.clear (sound : router.Sound) (selected : Event → Bool) :
    (router.clearLoop selected router.count 0).Sound := by
  have cleared := clear_queue sound.full selected
  obtain ⟨entries, same⟩ := router.clearLoop_frame selected router.count 0
  rw [same] at cleared ⊢
  have origin (event : Event) (member : event ∈ router.queue.map (clearIf selected)) :
      ∃ old ∈ router.queue, event = clearIf selected old := by
    obtain ⟨old, inside, rfl⟩ := List.mem_map.1 member
    exact ⟨old, inside, rfl⟩
  refine
    { full := sound.full, conserved := fun kind => ?_, reported := sound.reported, ordered := ?_
      known := ⟨?_, sound.known.2⟩, once := ⟨sound.once.1, ?_⟩, admitted := sound.admitted
      waiting := ?_, overtaken := sound.overtaken }
  · have kinds : countKind kind (router.queue.map (clearIf selected)) =
        countKind kind router.queue := by
      rw [countKind, countKind, List.countP_map]
      congr 1
      funext event
      simp
    rw [cleared, kinds]
    exact sound.conserved kind
  · rw [cleared, List.pairwise_map]
    simpa using sound.ordered
  · rw [cleared]
    intro event member
    obtain ⟨old, inside, rfl⟩ := origin event member
    rw [clearIf_number]
    exact sound.known.1 old inside
  · rw [cleared]
    intro delivery taken event member
    obtain ⟨old, inside, rfl⟩ := origin event member
    rw [clearIf_number]
    exact sound.once.2 delivery taken old inside
  · rw [cleared]
    intro delivery taken event member older
    obtain ⟨old, inside, rfl⟩ := origin event member
    rw [clearIf_number] at older
    have refused := sound.waiting delivery taken old inside older
    refine admits_clearIf refused fun everything => ?_
    rw [everything] at refused
    cases refused

theorem step_sound {router after : EventRouter} {action : EventAction} (sound : router.Sound)
    (taken : router.step action = .ok (some after)) : after.Sound := by
  cases action with
  | submit kind connection request callback fits contended =>
      obtain rfl := Option.some.inj (Except.ok.inj taken)
      exact sound.submit ..
  | nextEvent memory overflowMemory =>
      obtain rfl := Option.some.inj (Except.ok.inj taken)
      exact sound.take ..
  | dispatch filter memory overflowMemory =>
      have kept := sound.take filter memory overflowMemory
      rw [step] at taken
      generalize router.take filter memory overflowMemory = result at kept taken
      obtain ⟨next, event⟩ := result
      cases event with
      | none =>
          obtain rfl := Option.some.inj (Except.ok.inj taken)
          exact kept
      | some event =>
          obtain rfl := Option.some.inj (Except.ok.inj taken)
          exact { kept with }
  | invoke event =>
      rw [step] at taken
      split_ifs at taken
      · obtain rfl := Option.some.inj (Except.ok.inj taken)
        exact { sound with }
      · cases Except.ok.inj taken
  | forget request =>
      obtain rfl := Option.some.inj (Except.ok.inj taken)
      exact sound.clear _
  | finishClose connection =>
      obtain rfl := Option.some.inj (Except.ok.inj taken)
      exact sound.clear _

/-- Behind the clearing of some events, only an event that was in flight then or was submitted later
still has its callback, and no other callback is invoked. -/
structure Quiet (selected : Event → Bool) (start router : EventRouter) : Prop where
  queued : ∀ event ∈ router.queue, selected event = true → event.callback = true →
    start.numbers ≤ event.number
  inFlight : ∀ event ∈ router.inFlight, selected event = true → event.callback = true →
    event ∈ start.inFlight ∨ start.numbers ≤ event.number
  later : start.numbers ≤ router.numbers
  invoked : ∃ recent, router.invoked = recent ++ start.invoked ∧
    ∀ event ∈ recent, selected event = true →
      event ∈ start.inFlight ∨ start.numbers ≤ event.number

/-- What a take leaves as it was. -/
structure Taken (router after : EventRouter) (event : Option Event) : Prop where
  queue : ∀ other ∈ after.queue, other ∈ router.queue
  event : ∀ taken, event = some taken → taken ∈ router.queue
  inFlight : after.inFlight = router.inFlight
  invoked : after.invoked = router.invoked
  numbers : after.numbers = router.numbers

theorem takeEvent_taken (sound : router.Sound) (filter : EventFilter) (memory : Bool) :
    Taken router (router.takeEvent filter memory).1 (router.takeEvent filter memory).2 := by
  rw [EventRouter.takeEvent]
  cases found : router.search filter router.count 0 with
  | none => exact ⟨fun _ => id, nofun, rfl, rfl, rfl⟩
  | some offset =>
      dsimp only
      split_ifs with exhausted
      · exact ⟨fun _ => id, nofun, rfl, rfl, rfl⟩
      obtain ⟨-, inside, -, -⟩ := search_spec offset found
      rw [Nat.zero_add] at inside
      refine ⟨fun other member => ?_, fun taken same => ?_, rfl, rfl, rfl⟩
      · change other ∈ (router.removeAt offset).queue at member
        rw [removeAt_queue sound.full inside] at member
        exact List.mem_of_mem_eraseIdx member
      · obtain rfl := Option.some.inj same
        exact List.mem_map.2 ⟨offset, List.mem_range.2 inside, rfl⟩

theorem takeOverflow_frame (router : EventRouter) (memory : Bool) (kinds : List EventKind) :
    ∃ reported handed, router.takeOverflow memory kinds =
      { router with reportedDropped := reported, handed := handed } := by
  induction kinds with
  | nil => exact ⟨_, _, rfl⟩
  | cons kind kinds induction =>
      rw [EventRouter.takeOverflow]
      split_ifs
      · exact induction
      · exact ⟨_, _, rfl⟩
      · exact ⟨_, _, rfl⟩

theorem take_taken (sound : router.Sound) (filter : EventFilter) (memory overflowMemory : Bool) :
    Taken router (router.take filter memory overflowMemory).1
      (router.take filter memory overflowMemory).2 := by
  have taken := takeEvent_taken sound filter memory
  rw [EventRouter.take]
  generalize router.takeEvent filter memory = result at taken ⊢
  obtain ⟨next, event⟩ := result
  cases event with
  | some event => exact taken
  | none =>
      dsimp only
      split_ifs
      · obtain ⟨reported, handed, same⟩ :=
          next.takeOverflow_frame overflowMemory [.log, .notice, .notification]
        rw [same]
        exact { taken with }
      · exact taken

section Quiet

variable {selected : Event → Bool} {start router : EventRouter}

theorem Quiet.taken (quiet : Quiet selected start router) {after : EventRouter}
    {event : Option Event} (taken : Taken router after event) : Quiet selected start after := by
  refine ⟨fun other member => quiet.queued other (taken.queue other member), ?_, ?_, ?_⟩
  · rw [taken.inFlight]
    exact quiet.inFlight
  · rw [taken.numbers]
    exact quiet.later
  · rw [taken.invoked]
    exact quiet.invoked

theorem Quiet.submit (quiet : Quiet selected start router) (sound : router.Sound) (kind : EventKind)
    (connection request : ℕ) (callback fits contended : Bool) :
    Quiet selected start (router.submit kind connection request callback fits contended) := by
  have dropped : Quiet selected start
      ({ router with
          submitted := Function.update router.submitted kind (router.submitted kind + 1)
          numbers := router.numbers + 1 }.recordDrop kind) :=
    ⟨quiet.queued, quiet.inFlight, Nat.le_succ_of_le quiet.later, quiet.invoked⟩
  rw [EventRouter.submit]
  split_ifs with complete
  · rw [enqueueEvent]
    split_ifs with waits full
    · exact dropped
    · exact dropped
    · refine ⟨?_, quiet.inFlight, Nat.le_succ_of_le quiet.later, quiet.invoked⟩
      change ∀ event ∈ window (Function.update router.entries
        ((router.head + router.count) % router.capacity) _) router.capacity router.head
          (router.count + 1), _
      rw [window_push router.entries _ (lt_of_le_of_ne sound.full full)]
      intro event member chosen spoken
      obtain old | last := List.mem_append.1 member
      · exact quiet.queued event old chosen spoken
      · rw [List.mem_singleton.1 last]
        exact quiet.later
  · exact dropped

theorem Quiet.clear (quiet : Quiet selected start router) (sound : router.Sound)
    (others : Event → Bool) :
    Quiet selected start (router.clearLoop others router.count 0) := by
  have queue := clear_queue sound.full others
  obtain ⟨entries, same⟩ := router.clearLoop_frame others router.count 0
  rw [same] at queue ⊢
  refine ⟨?_, quiet.inFlight, quiet.later, quiet.invoked⟩
  rw [queue]
  intro event member chosen spoken
  obtain ⟨old, inside, rfl⟩ := List.mem_map.1 member
  obtain ⟨unchosen, kept⟩ := clearIf_callback spoken
  rw [clearIf, if_neg (by rw [unchosen]; nofun)] at chosen ⊢
  exact quiet.queued old inside chosen kept

theorem Quiet.invoke (quiet : Quiet selected start router) {event : Event}
    (member : event ∈ router.inFlight) : Quiet selected start (router.invoke event) := by
  obtain ⟨recent, shape, clean⟩ := quiet.invoked
  refine ⟨quiet.queued, fun other kept => quiet.inFlight other (List.mem_of_mem_erase kept),
    quiet.later, ?_⟩
  rw [EventRouter.invoke]
  by_cases spoken : event.callback = true
  · refine ⟨event :: recent, by simp [spoken, shape], fun other listed chosen => ?_⟩
    obtain rfl | old := List.mem_cons.1 listed
    · exact quiet.inFlight other member chosen spoken
    · exact clean other old chosen
  · exact ⟨recent, by simp [spoken, shape], clean⟩

theorem Quiet.step (quiet : Quiet selected start router) (sound : router.Sound)
    {action : EventAction} {after : EventRouter} (taken : router.step action = .ok (some after)) :
    Quiet selected start after := by
  cases action with
  | submit kind connection request callback fits contended =>
      obtain rfl := Option.some.inj (Except.ok.inj taken)
      exact quiet.submit sound ..
  | nextEvent memory overflowMemory =>
      obtain rfl := Option.some.inj (Except.ok.inj taken)
      exact quiet.taken (take_taken sound .all memory overflowMemory)
  | dispatch filter memory overflowMemory =>
      have found := take_taken sound filter memory overflowMemory
      rw [EventRouter.step] at taken
      generalize router.take filter memory overflowMemory = result at found taken
      obtain ⟨next, event⟩ := result
      have kept := quiet.taken found
      cases event with
      | none =>
          obtain rfl := Option.some.inj (Except.ok.inj taken)
          exact kept
      | some event =>
          obtain rfl := Option.some.inj (Except.ok.inj taken)
          refine ⟨kept.queued, fun other member chosen spoken => ?_, kept.later, kept.invoked⟩
          obtain rfl | old := List.mem_cons.1 member
          · exact .inr (quiet.queued other (found.event other rfl) chosen spoken)
          · exact kept.inFlight other old chosen spoken
  | invoke event =>
      rw [EventRouter.step] at taken
      split_ifs at taken with member
      · obtain rfl := Option.some.inj (Except.ok.inj taken)
        exact quiet.invoke member
      · cases Except.ok.inj taken
  | forget request =>
      obtain rfl := Option.some.inj (Except.ok.inj taken)
      exact quiet.clear sound _
  | finishClose connection =>
      obtain rfl := Option.some.inj (Except.ok.inj taken)
      exact quiet.clear sound _

theorem Quiet.runs (quiet : Quiet selected start router) (sound : router.Sound)
    {actions : List EventAction} {last : EventRouter} (ran : Postgamma.runs EventRouter.step router actions = some last) :
    Quiet selected start last := by
  have both : last.Sound ∧ Quiet selected start last := by
    refine runs_preserves (motive := fun router => router.Sound ∧ Quiet selected start router)
      (fun before taken => ?_) ⟨sound, quiet⟩ ran
    exact ⟨step_sound before.1 taken, before.2.step before.1 taken⟩
  exact both.2

end Quiet

/-! ## The event queue -/

end Postgamma.Embedded.EventRouter
