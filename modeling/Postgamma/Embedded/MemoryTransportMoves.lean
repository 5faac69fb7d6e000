import Mathlib
import Postgamma.Embedded.MemoryTransport

/-!
# What the calls of the memory transport do

A call leaves the queues, the references, the epoch and the flags alone, or it does one of seven
things.  The invariants of the transport are proved from this list.
-/

namespace Postgamma.Embedded.MemoryTransport

/-- The bytes of a write that went into the queue. -/
def acceptedBy : Call → Answer → List UInt8
  | .write source, .written result => source.take result.bytes
  | _, _ => []

/-- The bytes that a read returned. -/
def returnedBy : Answer → List UInt8
  | .read _ data => data
  | _ => []

namespace Transport

/-- Everything that the calls wait for, count or move is the same. -/
structure Alike (before after : Transport) : Prop where
  generation : after.generation = before.generation
  capacity : after.capacity = before.capacity
  allocationSize : after.allocationSize = before.allocationSize
  queues : after.queues = before.queues
  references : ∀ side, (after.endpoints side).references = (before.endpoints side).references
  cancelEpoch : after.cancelEpoch = before.cancelEpoch
  aborted : after.aborted = before.aborted
  abortReason : after.abortReason = before.abortReason

theorem Alike.refl (transport : Transport) : transport.Alike transport :=
  ⟨rfl, rfl, rfl, rfl, fun _ => rfl, rfl, rfl, rfl⟩

variable {before after : Transport}

theorem Alike.holds (alike : before.Alike after) (side : Side) (readiness : Readiness) :
    after.holds side readiness = before.holds side readiness := by
  cases readiness with
  | readable => rw [Transport.holds, Transport.holds, inbound, alike.queues, inbound]
  | writable =>
      rw [Transport.holds, Transport.holds, outbound, alike.queues, alike.capacity, outbound]
  | peerClosed =>
      rw [Transport.holds, Transport.holds, inbound, outbound, alike.queues, inbound, outbound]

theorem Alike.readyEvents (alike : before.Alike after) (side : Side) (requested : UInt32) :
    after.readyEvents side requested = before.readyEvents side requested := by
  simp only [Transport.readyEvents, readyBit, alike.holds]

theorem Alike.waitTest (alike : before.Alike after) (side : Side) (events : UInt32)
    (observed : UInt64) :
    after.waitTest side events observed = before.waitTest side events observed := by
  rw [Transport.waitTest, Transport.waitTest, alike.readyEvents, inbound, outbound, alike.queues,
    alike.cancelEpoch, alike.aborted, inbound, outbound]

theorem Alike.unreferenced (alike : before.Alike after) :
    after.unreferenced = before.unreferenced := by
  simp only [Transport.unreferenced, alike.references]

/-- The end of a stream is answered when the stream is closed and empty. -/
theorem waitTest_eof {transport : Transport} {side : Side} {events ready : UInt32}
    {observed : UInt64} (ended : transport.waitTest side events observed = some (.eof, ready)) :
    (transport.inbound side).length = 0 ∧ (transport.inbound side).writerClosed = true := by
  rw [waitTest] at ended
  split_ifs at ended with _ _ _ found
  · simp at ended
  · simp at ended
  · simp at ended
  · exact found.2
  · simp at ended
  · simp at ended

end Transport

/-- A call that moves nothing. -/
structure Effect.Idle (globals : Globals) (transport : Transport) (side : Side) (call : Call)
    (effect : Effect) : Prop where
  alike : transport.Alike effect.transport
  globals : effect.globals = globals
  kept : effect.destroyed = false
  accepted : ∀ answer ∈ effect.answer, acceptedBy call answer = []
  returned : ∀ answer ∈ effect.answer, returnedBy answer = []
  ended : ∀ answer ∈ effect.answer, answer.code = .eof →
    (transport.inbound side).length = 0 ∧ (transport.inbound side).writerClosed = true
  asleep : effect.answer = none → ∃ events observed deadline,
    call = .wait events observed deadline ∧ transport.waitTest side events observed = none

namespace Effect

variable {globals : Globals} {transport after : Transport} {side : Side} {call : Call}
  {answer : Answer}

/-- A call that wakes nobody and moves nothing. -/
theorem quiet_idle (alike : transport.Alike after) (accepted : acceptedBy call answer = [])
    (returned : returnedBy answer = []) (ended : answer.code = .eof →
      (transport.inbound side).length = 0 ∧ (transport.inbound side).writerClosed = true) :
    (quiet globals after answer).Idle globals transport side call where
  alike := alike
  globals := rfl
  kept := rfl
  accepted := fun _ found => Option.some.inj found ▸ accepted
  returned := fun _ found => Option.some.inj found ▸ returned
  ended := fun _ found => Option.some.inj found ▸ ended
  asleep := fun asleep => by cases asleep

end Effect

theorem acceptedBy_refusal (call : Call) (status : Status) :
    acceptedBy call (call.refusal status) = [] := by
  cases call <;> rfl

theorem returnedBy_refusal (call : Call) (status : Status) :
    returnedBy (call.refusal status) = [] := by
  cases call <;> rfl

@[simp] theorem code_refusal (call : Call) (status : Status) :
    (call.refusal status).code = status := by
  cases call <;> rfl

/-- A refused call moves nothing. -/
theorem refusal_idle (globals : Globals) (transport : Transport) (side : Side) (call : Call)
    {status : Status} (refused : status ≠ .eof) :
    (Effect.quiet globals transport (call.refusal status)).Idle globals transport side call :=
  Effect.quiet_idle (.refl transport) (acceptedBy_refusal call status)
    (returnedBy_refusal call status) fun ended => absurd (code_refusal call status ▸ ended) refused

theorem endWait_idle {globals : Globals} {transport counted : Transport} {side : Side}
    {events : UInt32} {observed : UInt64} {deadline : ℤ} {status : Status} (ready : UInt32)
    (alike : transport.Alike counted) (ended : status = .eof →
      (transport.inbound side).length = 0 ∧ (transport.inbound side).writerClosed = true) :
    (counted.endWait globals status ready).Idle globals transport side
      (.wait events observed deadline) :=
  Effect.quiet_idle alike rfl rfl ended

theorem waitRound_idle {globals : Globals} {transport counted : Transport} {side : Side}
    (events : UInt32) (observed : UInt64) (deadline : ℤ) (alike : transport.Alike counted) :
    (counted.waitRound globals side events observed).Idle globals transport side
      (.wait events observed deadline) := by
  have same := alike.waitTest side events observed
  rw [Transport.waitRound]
  split
  · rename_i asleep
    exact
      { alike := alike, globals := rfl, kept := rfl, accepted := fun _ found => (by cases found),
        returned := fun _ found => (by cases found), ended := fun _ found => (by cases found),
        asleep := fun _ => ⟨events, observed, deadline, rfl, same ▸ asleep⟩ }
  · rename_i status ready found
    refine endWait_idle ready ?_ fun ended => ?_
    · split_ifs
      · exact ⟨alike.generation, alike.capacity, alike.allocationSize, alike.queues,
          alike.references, alike.cancelEpoch, alike.aborted, alike.abortReason⟩
      · exact alike
    · rw [ended, same] at found
      exact Transport.waitTest_eof found

/-- What a call does. -/
inductive Did (globals : Globals) (transport : Transport) (side : Side) : Call → Effect → Prop where
  | idle {call : Call} {effect : Effect} (idle : effect.Idle globals transport side call) :
      Did globals transport side call effect
  | retained (referenced : (transport.endpoints side).references ≠ 0) :
      Did globals transport side .retain
        (.quiet { globals with endpointReferences := globals.endpointReferences + 1 }
          (transport.putEndpoint side
            { transport.endpoints side with
              references := (transport.endpoints side).references + 1 })
          (.status .ok))
  | released (referenced : (transport.endpoints side).references ≠ 0) :
      Did globals transport side .release (transport.release globals side)
  | received (length : ℕ) (filled : (transport.inbound side).length ≠ 0) :
      Did globals transport side (.read length)
        (Transport.announceTo globals
          (transport.putQueue side.other
            ((transport.inbound side).read transport.capacity length).2.2) side.other
          (.read
            ⟨.progress, ((transport.inbound side).read transport.capacity length).1, .none⟩
            ((transport.inbound side).read transport.capacity length).2.1))
  | sent (source : List UInt8) (unclosed : (transport.outbound side).writerClosed = false)
      (room : (transport.outbound side).length ≠ transport.capacity) :
      Did globals transport side (.write source)
        (Transport.announceTo globals
          (transport.putQueue side
            ((transport.outbound side).write transport.capacity source).2).observeFull side.other
          (.written
            ⟨.progress, ((transport.outbound side).write transport.capacity source).1, .none⟩))
  | closed :
      Did globals transport side .halfCloseWrite
        (Transport.announce globals
          (transport.putQueue side { transport.outbound side with writerClosed := true })
          (.status .ok))
  | aborted (reason : AbortReason) (running : transport.aborted = false) :
      Did globals transport side (.abort reason)
        (Transport.announce globals { transport with aborted := true, abortReason := reason }
          (.status .ok))
  | cancelled :
      Did globals transport side .cancelWaits
        (Transport.announce globals { transport with cancelEpoch := transport.cancelEpoch + 1 }
          (.epoch .ok (some (transport.cancelEpoch + 1))))

namespace Did

variable {globals : Globals} {transport : Transport} {side : Side}

theorem of_read (length : ℕ) :
    Did globals transport side (.read length) (transport.read globals side length) := by
  rw [Transport.read]
  split_ifs with aborted empty closed
  · exact .idle (Effect.quiet_idle (.refl _) rfl rfl fun ended => by cases ended)
  · exact .idle (Effect.quiet_idle (.refl _) rfl rfl fun _ => ⟨empty, closed⟩)
  · exact .idle (Effect.quiet_idle (.refl _) rfl rfl fun ended => by cases ended)
  · exact .received length empty

theorem of_write (source : List UInt8) :
    Did globals transport side (.write source) (transport.write globals side source) := by
  rw [Transport.write]
  split_ifs with aborted closed peer full
  · exact .idle (Effect.quiet_idle (.refl _) rfl rfl fun ended => by cases ended)
  · exact .idle (Effect.quiet_idle (.refl _) rfl rfl fun ended => by cases ended)
  · exact .idle (Effect.quiet_idle (.refl _) rfl rfl fun ended => by cases ended)
  · exact .idle (Effect.quiet_idle (.refl _) rfl rfl fun ended => by cases ended)
  · exact .sent source (by simpa using closed) full

theorem of_setNotify (notify : Option ℕ) (argument : ℕ) :
    Did globals transport side (.setNotify notify argument)
      (transport.setNotify globals side notify argument) := by
  refine .idle
    { alike := ⟨rfl, rfl, rfl, rfl, fun other => ?_, rfl, rfl, rfl⟩, globals := rfl, kept := rfl,
      accepted := fun _ _ => rfl, returned := fun _ found => Option.some.inj found ▸ rfl,
      ended := fun _ found ended => ?_, asleep := fun asleep => by cases asleep }
  · change (Function.update transport.endpoints side _ other).references = _
    by_cases same : other = side
    · rw [same, Function.update_self]
    · rw [Function.update_of_ne same]
  · rw [← Option.some.inj found] at ended
    cases ended

theorem of_setResultPolicy (policy : ResultPolicy) :
    Did globals transport side (.setResultPolicy policy)
      (transport.setResultPolicy globals side policy) := by
  rw [Transport.setResultPolicy]
  split_ifs
  · exact .idle (Effect.quiet_idle (.refl _) rfl rfl fun ended => by cases ended)
  · refine .idle
      { alike := ⟨rfl, rfl, rfl, rfl, fun _ => rfl, rfl, rfl, rfl⟩, globals := rfl, kept := rfl,
        accepted := fun _ _ => rfl, returned := fun _ found => Option.some.inj found ▸ rfl,
        ended := fun _ found ended => ?_, asleep := fun asleep => by cases asleep }
    rw [← Option.some.inj found] at ended
    cases ended

/-- What a call does inside of its critical section. -/
theorem of_perform (referenced : (transport.endpoints side).references ≠ 0) (call : Call) :
    Did globals transport side call (transport.perform globals side call) := by
  cases call with
  | retain =>
      simp only [Transport.perform, Transport.retain]
      split_ifs
      · exact .idle (Effect.quiet_idle (.refl _) rfl rfl fun ended => by cases ended)
      · exact .retained referenced
  | setNotify notify argument => exact of_setNotify notify argument
  | release => exact .released referenced
  | read length => exact of_read length
  | write source => exact of_write source
  | wait events observed deadline =>
      exact .idle (waitRound_idle events observed deadline
        ⟨rfl, rfl, rfl, rfl, fun _ => rfl, rfl, rfl, rfl⟩)
  | ready =>
      simp only [Transport.perform, Transport.ready]
      split_ifs
      · exact .idle (Effect.quiet_idle (.refl _) rfl rfl fun ended => by cases ended)
      · exact .idle (Effect.quiet_idle (.refl _) rfl rfl fun ended => by cases ended)
  | halfCloseWrite =>
      simp only [Transport.perform, Transport.halfCloseWrite]
      split_ifs
      · exact .idle (Effect.quiet_idle (.refl _) rfl rfl fun ended => by cases ended)
      · exact .idle (Effect.quiet_idle (.refl _) rfl rfl fun ended => by cases ended)
      · exact .closed
  | abort reason =>
      simp only [Transport.perform, Transport.abort]
      split_ifs with aborted
      · exact .idle (Effect.quiet_idle (.refl _) rfl rfl fun ended => by cases ended)
      · exact .aborted reason (by simpa using aborted)
  | cancelWaits =>
      simp only [Transport.perform, Transport.cancelWaits]
      split_ifs
      · exact .idle (Effect.quiet_idle (.refl _) rfl rfl fun ended => by cases ended)
      · exact .cancelled
  | setSessionStatus pinReasons carrierRetained =>
      simp only [Transport.perform, Transport.setSessionStatus]
      split_ifs
      · exact .idle (Effect.quiet_idle (.refl _) rfl rfl fun ended => by cases ended)
      · exact .idle (Effect.quiet_idle ⟨rfl, rfl, rfl, rfl, fun _ => rfl, rfl, rfl, rfl⟩ rfl rfl
          fun ended => by cases ended)
  | setResultPolicy policy => exact of_setResultPolicy policy
  | getResultPolicy =>
      exact .idle (Effect.quiet_idle (.refl _) rfl rfl fun ended => by cases ended)
  | snapshot => exact .idle (Effect.quiet_idle (.refl _) rfl rfl fun ended => by cases ended)

theorem of_call (generation : ℕ) (call : Call) :
    Did globals transport side call (transport.call globals side generation call) := by
  rw [Transport.call]
  split_ifs with valid
  · exact .idle (refusal_idle globals transport side call (by decide))
  · split
    · rename_i status locked
      refine .idle (refusal_idle globals transport side call fun ended => ?_)
      rw [Transport.lockEndpoint, ended] at locked
      split_ifs at locked
      · simp at locked
      · simp at locked
    · rename_i locked
      refine of_perform (fun dead => ?_) call
      rw [Transport.lockEndpoint, if_pos dead] at locked
      cases locked

end Did

/-- The rest of a wait moves nothing. -/
theorem resume_idle (waiter : Waiter) (globals : Globals) (transport : Transport)
    (wakeup : Wakeup) :
    (waiter.resume globals transport wakeup).Idle globals transport waiter.side waiter.call := by
  have counted (wakeups timeouts : UInt64) : transport.Alike
      { transport with waitWakeups := wakeups, waitTimeouts := timeouts } :=
    ⟨rfl, rfl, rfl, rfl, fun _ => rfl, rfl, rfl, rfl⟩
  cases wakeup with
  | woken => exact waitRound_idle _ _ _ (counted _ transport.waitTimeouts)
  | timedOut => exact endWait_idle 0 (counted transport.waitWakeups _) fun ended => by cases ended
  | failed => exact endWait_idle 0 (.refl transport) fun ended => by cases ended

/-- What a step does to the world: a transport is created, or nothing, or one slot that is not
destroyed takes the effect of a call. -/
inductive Stepped (structSize : ℕ) (world : World) : World → Prop where
  | refused : Stepped structSize world world
  | created {generation capacity : ℕ} {provision : Provision} {globals : Globals}
      {transport : Transport}
      (made : create structSize world.globals generation capacity provision =
        .ok (globals, transport)) :
      Stepped structSize world
        { globals
          slots := world.slots ++
            [{ transport, waiters := fun _ => none, destructions := 0, history := []
               notified := [] }] }
  | took {index thread : ℕ} {slot : Slot} {side : Side} {call : Call} {effect : Effect}
      (found : world.slots[index]? = some slot) (live : slot.destructions = 0)
      (did : Did world.globals slot.transport side call effect) :
      Stepped structSize world (world.take index slot thread side call effect)

theorem World.step_stepped {structSize : ℕ} {world after : World} {action : Action}
    (stepped : world.step structSize action = .ok (some after)) :
    Stepped structSize world after := by
  cases action with
  | create generation capacity provision =>
      simp only [World.step] at stepped
      split at stepped
      · rw [← Option.some.inj (Except.ok.inj stepped)]
        exact .refused
      · rename_i made
        rw [← Option.some.inj (Except.ok.inj stepped)]
        exact .created made
  | call index thread side generation call =>
      simp only [World.step] at stepped
      split at stepped
      · cases stepped
      · rename_i slot found
        split_ifs at stepped with free
        · simp at stepped
        · rw [← Option.some.inj (Except.ok.inj stepped)]
          exact .took found (not_not.1 (not_or.1 free).1) (Did.of_call generation call)
  | resume index thread wakeup =>
      simp only [World.step] at stepped
      split at stepped
      · cases stepped
      · rename_i slot found
        split at stepped
        · cases stepped
        · rename_i waiter asleep
          split_ifs at stepped with free
          · simp at stepped
          · rw [← Option.some.inj (Except.ok.inj stepped)]
            exact .took found (not_not.1 (not_or.1 free).1)
              (.idle (resume_idle waiter world.globals slot.transport wakeup))

theorem World.Reached.slots {structSize : ℕ} {motive : Slot → Prop}
    (start : ∀ {globals after : Globals} {generation capacity : ℕ} {provision : Provision}
      {transport : Transport},
      create structSize globals generation capacity provision = .ok (after, transport) →
        motive { transport, waiters := fun _ => none, destructions := 0, history := []
                 notified := [] })
    (next : ∀ {globals : Globals} {slot : Slot} {thread : ℕ} {side : Side} {call : Call}
      {effect : Effect}, motive slot → slot.destructions = 0 →
        Did globals slot.transport side call effect →
          motive (slot.after thread side call effect))
    {world : World} (reached : world.Reached structSize) : ∀ slot ∈ world.slots, motive slot := by
  obtain ⟨actions, ran⟩ := reached
  refine runs_preserves (motive := fun world => ∀ slot ∈ world.slots, motive slot)
    (fun before stepped => ?_) (fun _ member => absurd member List.not_mem_nil) ran
  cases World.step_stepped stepped with
  | refused => exact before
  | created made =>
      intro slot member
      obtain old | new := List.mem_append.1 member
      · exact before slot old
      · rw [List.mem_singleton.1 new]
        exact start made
  | took found live did =>
      intro slot member
      obtain old | rfl := List.mem_or_eq_of_mem_set member
      · exact before slot old
      · exact next (before _ (List.mem_of_getElem? found)) live did

end Postgamma.Embedded.MemoryTransport
