import Mathlib
import Postgamma.Embedded.MemoryTransportStreams

/-!
# Wakeups of the memory transport

A thread that sleeps unsignalled has nothing to wait for but the others, and an endpoint whose
readiness appears is notified.  Both follow from what one call does: without a broadcast it leaves
every test of a wait as it is, and a change of the queues notifies the other side.
-/

namespace Postgamma.Embedded.MemoryTransport

/-- A wait has a reason to return. -/
def Waiter.Exits (waiter : Waiter) (transport : Transport) : Prop :=
  transport.aborted = true ∨ transport.cancelEpoch ≠ waiter.observed ∨
    (∃ readiness : Readiness, readiness.requested waiter.events = true ∧
      transport.holds waiter.side readiness = true) ∨
    (Readiness.readable.requested waiter.events = true ∧
      (transport.inbound waiter.side).length = 0 ∧
        (transport.inbound waiter.side).writerClosed = true) ∨
    (Readiness.writable.requested waiter.events = true ∧
      ((transport.outbound waiter.side).readerClosed = true ∨
        (transport.outbound waiter.side).writerClosed = true))

namespace Transport

variable {transport : Transport} {side : Side}

/-- The three bits do not overlap. -/
theorem requested_bits : ∀ readable writable peer : Bool,
    let bits : UInt32 := (if readable = true then 1 else 0) |||
      (if writable = true then 2 else 0) ||| (if peer = true then 4 else 0)
    Readiness.readable.requested bits = readable ∧ Readiness.writable.requested bits = writable ∧
      Readiness.peerClosed.requested bits = peer := by
  decide

theorem requested_readyEvents (events : UInt32) (readiness : Readiness) :
    readiness.requested (transport.readyEvents side events) =
      (readiness.requested events && transport.holds side readiness) := by
  obtain ⟨readable, writable, peer⟩ := requested_bits
    (Readiness.readable.requested events && transport.holds side .readable)
    (Readiness.writable.requested events && transport.holds side .writable)
    (Readiness.peerClosed.requested events && transport.holds side .peerClosed)
  cases readiness with
  | readable => exact readable
  | writable => exact writable
  | peerClosed => exact peer

theorem readyEvents_ne_zero (events : UInt32) :
    transport.readyEvents side events ≠ 0 ↔ ∃ readiness : Readiness,
      readiness.requested events = true ∧ transport.holds side readiness = true := by
  refine ⟨fun ready => ?_, fun ⟨readiness, asked, holds⟩ none_ready => ?_⟩
  · by_contra no_event
    refine ready ?_
    have bit (readiness : Readiness) : transport.readyBit side events readiness = 0 := by
      rw [readyBit, if_neg]
      exact fun both => no_event ⟨readiness, by simpa using both⟩
    rw [readyEvents, bit, bit, bit]
    rfl
  · have found : readiness.requested (transport.readyEvents side events) = (true && true) := by
      rw [requested_readyEvents, asked, holds]
    rw [none_ready] at found
    cases readiness <;> exact absurd found (by decide)

/-- The loop of a wait goes to sleep without a reason to return. -/
theorem not_exits_of_waitTest {waiter : Waiter}
    (asleep : transport.waitTest waiter.side waiter.events waiter.observed = none) :
    ¬ waiter.Exits transport := by
  rw [waitTest] at asleep
  split_ifs at asleep with running epoch unready ended peer closed
  rintro (aborted | changed | ready | ended' | ⟨asked, left | right⟩)
  · exact running aborted
  · exact epoch changed
  · exact unready ((readyEvents_ne_zero _).2 ready)
  · exact ended ended'
  · exact peer ⟨asked, left⟩
  · exact closed ⟨asked, right⟩

variable {readiness : Readiness}

theorem notifyEndpoint_hears {callback : Callback}
    (listens : (transport.endpoints side).notify = some callback)
    (ready : transport.holds side readiness = true) :
    ∃ notification ∈ transport.notifyEndpoint side, notification.side = side ∧
      notification.callback = callback ∧ readiness.requested notification.events = true := by
  refine ⟨⟨side, callback, transport.readyEvents side waitAll⟩, ?_, rfl, rfl, ?_⟩
  · rw [notifyEndpoint, listens]
    exact List.mem_singleton_self _
  · change readiness.requested (transport.readyEvents side waitAll) = true
    rw [requested_readyEvents, ready]
    cases readiness <;> decide

theorem notifyEndpoint_subset_both (transport : Transport) (side : Side) :
    transport.notifyEndpoint side ⊆ transport.notifyBoth := by
  cases side with
  | frontend => exact List.subset_append_left ..
  | backend => exact List.subset_append_right ..

theorem closeEndpoint_endpoints_other (transport : Transport) (side : Side) :
    (transport.closeEndpoint side).endpoints side.other = transport.endpoints side.other := by
  rw [closeEndpoint, putEndpoint_of_ne side.other_ne]
  rfl

theorem closeEndpoint_self (transport : Transport) (side : Side) :
    (transport.closeEndpoint side).queues side =
      { transport.queues side with writerClosed := true } := by
  rw [closeEndpoint, putEndpoint_queues, putQueue_of_ne side.ne_other, putQueue_self, outbound]

theorem closeEndpoint_other (transport : Transport) (side : Side) :
    (transport.closeEndpoint side).queues side.other =
      { transport.queues side.other with readerClosed := true } := by
  rw [closeEndpoint, putEndpoint_queues, putQueue_self, inbound, putQueue_of_ne side.other_ne]

theorem closeEndpoint_unready (unready : transport.holds side readiness = false) :
    (transport.closeEndpoint side).holds side readiness = false := by
  cases readiness with
  | readable =>
      rw [holds, inbound, closeEndpoint_other]
      exact unready
  | writable =>
      rw [holds, outbound, closeEndpoint_self]
      simp
  | peerClosed =>
      rw [holds, inbound, outbound, closeEndpoint_other, closeEndpoint_self]
      exact unready

/-- A release either changes no test of a wait, or closes an endpoint and tells the other one. -/
theorem release_cases (globals : Globals) (transport : Transport) (side : Side) :
    (∃ endpoint, (transport.release globals side).transport =
      transport.putEndpoint side endpoint) ∨
    (transport.release globals side).broadcast = true ∧
      ∃ endpoint, (transport.release globals side).transport =
        (transport.putEndpoint side endpoint).closeEndpoint side ∧
      (transport.release globals side).notified =
        ((transport.putEndpoint side endpoint).closeEndpoint side).notifyEndpoint side.other := by
  simp only [release]
  split_ifs
  · exact .inr ⟨rfl, _, rfl, rfl⟩
  · exact .inr ⟨rfl, _, rfl, rfl⟩
  · exact .inl ⟨_, rfl⟩
  · exact .inl ⟨_, rfl⟩

/-- A read makes nothing ready for its own side. -/
theorem receive_unready (length : ℕ) (filled : (transport.inbound side).length ≠ 0)
    (unready : transport.holds side readiness = false) :
    (transport.putQueue side.other
      ((transport.inbound side).read transport.capacity length).2.2).holds side readiness =
        false := by
  have shut : ((transport.inbound side).read transport.capacity length).2.2.writerClosed =
      (transport.inbound side).writerClosed := (Queue.read_ends ..).1
  generalize ((transport.inbound side).read transport.capacity length).2.2 = queue at shut ⊢
  cases readiness with
  | readable =>
      rw [holds, decide_eq_false_iff_not, not_not] at unready
      exact absurd unready filled
  | writable =>
      rw [holds, outbound, putQueue_of_ne side.ne_other]
      exact unready
  | peerClosed =>
      rw [holds, inbound, outbound, putQueue_self, putQueue_of_ne side.ne_other, shut]
      exact unready

/-- A write makes nothing ready for its own side. -/
theorem send_unready (source : List UInt8)
    (unclosed : (transport.outbound side).writerClosed = false)
    (space : (transport.outbound side).length < transport.capacity)
    (unready : transport.holds side readiness = false) :
    (transport.putQueue side
      ((transport.outbound side).write transport.capacity source).2).holds side readiness =
        false := by
  have shut : ((transport.outbound side).write transport.capacity source).2.readerClosed =
      (transport.outbound side).readerClosed := (Queue.write_ends ..).2
  generalize ((transport.outbound side).write transport.capacity source).2 = queue at shut ⊢
  cases readiness with
  | readable =>
      rw [holds, inbound, putQueue_of_ne side.other_ne]
      exact unready
  | writable =>
      rw [holds, decide_eq_true space, unclosed, Bool.not_false, Bool.and_true, Bool.true_and]
        at unready
      rw [holds, outbound, putQueue_self, shut, unready, Bool.and_false]
  | peerClosed =>
      rw [holds, inbound, outbound, putQueue_self, putQueue_of_ne side.other_ne, shut]
      exact unready

theorem observeFull_holds (transport : Transport) (side : Side) (readiness : Readiness) :
    transport.observeFull.holds side readiness = transport.holds side readiness := by
  rw [observeFull]
  split_ifs <;> rfl

theorem observeFull_endpoints (transport : Transport) :
    transport.observeFull.endpoints = transport.endpoints := by
  rw [observeFull]
  split_ifs <;> rfl

end Transport

theorem Did.waitTest {globals : Globals} {transport : Transport} {side : Side} {call : Call}
    {effect : Effect} (did : Did globals transport side call effect)
    (silent : effect.broadcast = false) (sleeper : Side) (events : UInt32) (observed : UInt64) :
    effect.transport.waitTest sleeper events observed =
      transport.waitTest sleeper events observed := by
  cases did with
  | idle idle => exact idle.alike.waitTest sleeper events observed
  | retained => rfl
  | released =>
      obtain ⟨endpoint, kept⟩ | ⟨loud, -⟩ := transport.release_cases globals side
      · rw [kept]
        rfl
      · rw [loud] at silent
        cases silent
  | received => cases silent
  | sent => cases silent
  | closed => cases silent
  | aborted => cases silent
  | cancelled => cases silent

/-- A call without an answer is a wait that found no reason to return. -/
theorem Did.asleep {globals : Globals} {transport : Transport} {side : Side} {call : Call}
    {effect : Effect} (did : Did globals transport side call effect)
    (silent : effect.answer = none) : ∃ events observed deadline,
      call = .wait events observed deadline ∧
        effect.transport.waitTest side events observed = none := by
  cases did with
  | idle idle =>
      obtain ⟨events, observed, deadline, rfl, test⟩ := idle.asleep silent
      exact ⟨events, observed, deadline, rfl, idle.alike.waitTest side events observed ▸ test⟩
  | released =>
      rw [transport.release_answer] at silent
      cases silent
  | retained => cases silent
  | received => cases silent
  | sent => cases silent
  | closed => cases silent
  | aborted => cases silent
  | cancelled => cases silent

/-- Threads that sleep unsignalled have no reason to return. -/
def Slot.Drowsy (slot : Slot) : Prop :=
  ∀ thread waiter, slot.waiters thread = some waiter → waiter.signalled = false →
    slot.transport.waitTest waiter.side waiter.events waiter.observed = none

theorem Slot.Drowsy.after {globals : Globals} {slot : Slot} {thread : ℕ} {side : Side}
    {call : Call} {effect : Effect} (drowsy : slot.Drowsy)
    (did : Did globals slot.transport side call effect) :
    (slot.after thread side call effect).Drowsy := by
  intro other waiter found unsignalled
  simp only [Slot.after] at found ⊢
  obtain rfl | apart := eq_or_ne other thread
  · rw [Function.update_self] at found
    cases answered : effect.answer with
    | none =>
        obtain ⟨events, observed, deadline, rfl, test⟩ := did.asleep answered
        rw [answered, Slot.sleeper] at found
        rw [← Option.some.inj found]
        exact test
    | some answer =>
        rw [answered] at found
        cases call <;> cases found
  · rw [Function.update_of_ne apart, Slot.signal] at found
    obtain ⟨asleep, before, rfl⟩ := Option.map_eq_some_iff.1 found
    obtain ⟨quiet, silent⟩ := Bool.or_eq_false_iff.1 unsignalled
    exact (did.waitTest silent ..).trans (drowsy other asleep before quiet)

/-- A call that makes an endpoint ready for something notifies it. -/
theorem Did.notifies {globals : Globals} {transport : Transport} {side listener : Side}
    {call : Call} {effect : Effect} (did : Did globals transport side call effect)
    (sound : ∀ writer, (transport.queues writer).Sound transport.capacity) {readiness : Readiness}
    {callback : Callback} (listens : (transport.endpoints listener).notify = some callback)
    (unready : transport.holds listener readiness = false)
    (ready : effect.transport.holds listener readiness = true) :
    ∃ notification ∈ effect.notified, notification.side = listener ∧
      notification.callback = callback ∧ readiness.requested notification.events = true := by
  cases did with
  | idle idle =>
      rw [idle.alike.holds, unready] at ready
      cases ready
  | retained =>
      change transport.holds listener readiness = true at ready
      rw [unready] at ready
      cases ready
  | released =>
      obtain ⟨endpoint, kept⟩ | ⟨-, endpoint, closed, told⟩ := transport.release_cases globals side
      · rw [kept] at ready
        change transport.holds listener readiness = true at ready
        rw [unready] at ready
        cases ready
      · rw [closed] at ready
        obtain rfl | rfl := listener.eq_or_eq_other side
        · have still : ((transport.putEndpoint listener endpoint).closeEndpoint listener).holds
              listener readiness = false := Transport.closeEndpoint_unready unready
          rw [still] at ready
          cases ready
        · rw [told]
          refine Transport.notifyEndpoint_hears ?_ ready
          rw [Transport.closeEndpoint_endpoints_other,
            Transport.putEndpoint_of_ne side.other_ne]
          exact listens
  | received length filled =>
      obtain rfl | rfl := listener.eq_or_eq_other side
      · have still := Transport.receive_unready length filled unready
        exact absurd (ready.symm.trans still) (by decide)
      · exact Transport.notifyEndpoint_hears listens ready
  | sent source unclosed room =>
      obtain rfl | rfl := listener.eq_or_eq_other side
      · have space := lt_of_le_of_ne (sound listener).length room
        have still := Transport.send_unready source unclosed space unready
        rw [← Transport.observeFull_holds] at still
        exact absurd (ready.symm.trans still) (by decide)
      · refine Transport.notifyEndpoint_hears ?_ ready
        rw [Transport.observeFull_endpoints]
        exact listens
  | closed =>
      have kept : ((transport.putQueue side
          { transport.outbound side with writerClosed := true }).endpoints listener).notify =
            some callback := listens
      obtain ⟨notification, member, heard⟩ := Transport.notifyEndpoint_hears kept ready
      exact ⟨notification, Transport.notifyEndpoint_subset_both _ listener member, heard⟩
  | aborted reason =>
      change transport.holds listener readiness = true at ready
      rw [unready] at ready
      cases ready
  | cancelled =>
      change transport.holds listener readiness = true at ready
      rw [unready] at ready
      cases ready

/-- In every reachable world a thread that sleeps unsignalled in a wait has no reason to return,
and every step that makes an endpoint ready for something invokes the callback of the endpoint with
that event. -/
theorem wakeups_not_lost {structSize : ℕ} {world : World} (reached : world.Reached structSize) :
    (∀ slot ∈ world.slots, ∀ thread waiter, slot.waiters thread = some waiter →
      waiter.signalled = false → ¬ waiter.Exits slot.transport) ∧
    ∀ action after, world.step structSize action = .ok (some after) →
      ∀ (index : ℕ) (slot next : Slot), world.slots[index]? = some slot →
        after.slots[index]? = some next → ∀ side readiness callback,
          (slot.transport.endpoints side).notify = some callback →
          slot.transport.holds side readiness = false →
          next.transport.holds side readiness = true →
            ∃ notification ∈ next.notified.drop slot.notified.length,
              notification.side = side ∧ notification.callback = callback ∧
                readiness.requested notification.events = true := by
  have drowsy := reached.slots (motive := Slot.Drowsy) (fun _ _ _ found => by cases found)
    fun before _ did => before.after did
  have sound := reached.slots (motive := fun slot => ∀ writer, slot.Streams writer)
    (fun made writer => create_streams made writer)
    fun before _ did writer => (before writer).after did
  refine ⟨fun slot member thread waiter found unsignalled =>
    Transport.not_exits_of_waitTest (drowsy slot member thread waiter found unsignalled), ?_⟩
  intro action after stepped index slot next before behind side readiness callback listens unready
    ready
  have unchanged (same : slot = next) : False := by
    rw [same, ready] at unready
    cases unready
  cases World.step_stepped stepped with
  | refused => exact (unchanged (Option.some.inj (before.symm.trans behind))).elim
  | created =>
      have less := (List.getElem?_eq_some_iff.1 before).1
      rw [List.getElem?_append_left less] at behind
      exact (unchanged (Option.some.inj (before.symm.trans behind))).elim
  | took found live did =>
      rename_i place thread taken other call effect
      obtain rfl | apart := eq_or_ne index place
      · have less := (List.getElem?_eq_some_iff.1 before).1
        rw [World.take, List.getElem?_set_self less] at behind
        cases found.symm.trans before
        rw [← Option.some.inj behind] at ready ⊢
        rw [Slot.after, List.drop_left]
        exact did.notifies (fun writer => (sound slot (List.mem_of_getElem? before) writer).sound)
          listens unready ready
      · rw [World.take, List.getElem?_set_ne apart.symm] at behind
        exact (unchanged (Option.some.inj (before.symm.trans behind))).elim

/-- The thread of the backend sleeps on an empty queue. -/
theorem wakeups_not_lost_wrapped : ∃ slot ∈ wrapped.slots, ∃ waiter, slot.waiters 2 = some waiter ∧
    waiter.signalled = false ∧ ¬ waiter.Exits slot.transport := by
  have asleep : ∃ slot, wrapped.slots[0]? = some slot ∧ ∃ waiter,
      slot.waiters 2 = some waiter ∧ waiter.signalled = false := ⟨_, rfl, _, rfl, rfl⟩
  obtain ⟨slot, found, waiter, sleeps, unsignalled⟩ := asleep
  have member := List.mem_of_getElem? found
  exact ⟨slot, member, waiter, sleeps, unsignalled,
    (wakeups_not_lost wrapped_reached).1 slot member 2 waiter sleeps unsignalled⟩

end Postgamma.Embedded.MemoryTransport
