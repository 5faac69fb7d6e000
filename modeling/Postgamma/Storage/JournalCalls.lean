import Postgamma.Storage.Journal

/-!
# The calls of an append

How far an append gets is decided before it starts: by the change, the journal object and the
outcomes of the calls to come. `recordRest` works it out. It is `none` where the append stops
before its record is complete, and else the outcomes that are left for the flush behind it.
-/

namespace Postgamma
namespace Storage

open Text Json LittleEndian CrashFile

/-- A call of the journal on one of its files. -/
inductive FileCall where
  /-- The calls that write so many bytes. -/
  | write (length : Nat)
  /-- A truncation or a flush. -/
  | single
  deriving DecidableEq, Repr

/-- The outcomes behind the calls that write so many bytes, unless one fails. -/
def writeRest : List Outcome → Nat → Option (List Outcome)
  | script, 0 => some script
  | [], _ => some []
  | .full :: script, _ => some script
  | .short 0 :: _, _ => none
  | .short (count + 1) :: script, length => writeRest script (length - (count + 1))
  | .fail _ :: _, _ => none

/-- The outcomes behind a call, unless it fails. -/
def FileCall.rest : FileCall → List Outcome → Option (List Outcome)
  | .write length, script => writeRest script length
  | .single, [] => some []
  | .single, .fail _ :: _ => none
  | .single, _ :: script => some script

/-- The outcomes behind a sequence of calls, unless one fails. -/
def callsRest (script : List Outcome) (calls : List FileCall) : Option (List Outcome) :=
  calls.foldlM (fun script call => call.rest script) script

/-- The calls of `retire`. -/
def retireCalls : List FileCall := [.write 32, .single, .single, .single]

/-- The calls of `checkpoint` with a snapshot of so many bytes. -/
def checkpointCalls (size : Nat) : List FileCall :=
  retireCalls ++ ([.write size] ++ ([.single] ++ retireCalls))

/-- The outcomes that are left when the record of a change is complete. -/
def recordRest (change : Change) (journal : Journal) (script : List Outcome) :
    Option (List Outcome) := do
  let record ← (encode change (journal.ns.sequence + 1)).toOption
  if replayRecordLimit ≤ journal.ns.sequence ∨
      slotLimit < journal.sizes journal.active + record.length then
    let bytes ← (Checkpoint.snapshot journal.ns (journal.generation + 1)).toOption
    let script ← callsRest script (checkpointCalls bytes.length)
    let record ← (encode change 1).toOption
    if slotLimit < bytes.length + record.length then none
    else writeRest script record.length
  else writeRest script record.length

variable {script rest : List Outcome}

theorem writeRest_suffix {length : Nat}
    (taken : writeRest script length = some rest) : rest <:+ script := by
  fun_induction writeRest script length with
  | case1 script => rw [← Option.some.inj taken]
  | case2 => simpa using taken.symm
  | case3 script => exact Option.some.inj taken ▸ List.suffix_cons _ _
  | case4 => exact absurd taken.symm (Option.some_ne_none _)
  | case5 length count script _ induction => exact (induction taken).trans (List.suffix_cons _ _)
  | case6 => exact absurd taken.symm (Option.some_ne_none _)

theorem FileCall.rest_suffix {call : FileCall}
    (taken : call.rest script = some rest) : rest <:+ script := by
  cases call with
  | write length => exact writeRest_suffix taken
  | single =>
      cases script with
      | nil => simpa [FileCall.rest] using taken.symm
      | cons outcome script =>
          cases outcome with
          | full | short count => exact Option.some.inj taken ▸ List.suffix_cons _ _
          | fail count => exact absurd taken.symm (Option.some_ne_none _)

theorem callsRest_suffix {calls : List FileCall}
    (taken : callsRest script calls = some rest) : rest <:+ script := by
  induction calls generalizing script with
  | nil => exact Option.some.inj taken ▸ List.suffix_refl _
  | cons call calls induction =>
      rw [callsRest, List.foldlM_cons] at taken
      obtain ⟨middle, first, others⟩ := Option.bind_eq_some_iff.mp taken
      exact (induction others).trans (call.rest_suffix first)

theorem recordRest_suffix {change : Change} {journal : Journal}
    (taken : recordRest change journal script = some rest) : rest <:+ script := by
  simp only [recordRest, Option.bind_eq_bind, Option.bind_eq_some_iff] at taken
  obtain ⟨record, -, taken⟩ := taken
  split_ifs at taken
  · simp only [Option.bind_eq_some_iff] at taken
    obtain ⟨bytes, -, middle, checkpointed, record', -, taken⟩ := taken
    split_ifs at taken
    exact (writeRest_suffix taken).trans (callsRest_suffix checkpointed)
  · exact writeRest_suffix taken

variable {β α γ : Type}

/-- A program takes the outcomes of a sequence of calls, and throws when one of them fails. -/
def Consumes (program : Action β α) (calls : List FileCall) (session : Session β) : Prop :=
  Yields program session
    (fun _ after => callsRest session.world.script calls = some after.world.script)
    (fun _ _ => callsRest session.world.script calls = none)

theorem callsRest_append (script : List Outcome) (first second : List FileCall) :
    callsRest script (first ++ second) =
      (callsRest script first).bind fun rest => callsRest rest second := by
  simp only [callsRest, List.foldlM_append]
  rfl

theorem callsRest_single (script : List Outcome) (call : FileCall) :
    callsRest script [call] = call.rest script := by
  cases found : call.rest script <;> simp [callsRest, found]

theorem Consumes.bind {first : Action β γ} {next : γ → Action β α} {calls more : List FileCall}
    {session : Session β} (head : Consumes first calls session)
    (tail : ∀ value after, Consumes (next value) more after) :
    Consumes (first >>= next) (calls ++ more) session := by
  refine Yields.seq head ?_ ?_
  · intro _ _ stopped
    rw [callsRest_append, stopped]
    rfl
  · intro value after reached
    refine (tail value after).weaken ?_ ?_
    · intro _ final taken
      rw [callsRest_append, reached]
      exact taken
    · intro _ final stopped
      rw [callsRest_append, reached]
      exact stopped

theorem Consumes.modified (change : Session β → Session β)
    (same : ∀ session, (change session).world.script = session.world.script)
    (session : Session β) : Consumes (modify change) [] session :=
  Yields.modified (congrArg some (same session).symm)

theorem outcome_takes (session : Session β) :
    Yields outcome session
      (fun result after => session.world.script = result :: after.world.script ∨
        session.world.script = [] ∧ result = .full ∧ after.world.script = [])
      (fun _ _ => False) := by
  unfold Yields outcome
  cases script : session.world.script with
  | nil => exact .inr ⟨rfl, rfl, script⟩
  | cons result rest => exact .inl rfl

/-- A call that throws where its outcome is a failure. -/
theorem Consumes.single {next : Outcome → Action β α} {session : Session β}
    (succeeds : ∀ result after, (∀ count, result ≠ .fail count) →
      Yields (next result) after
        (fun _ final => final.world.script = after.world.script) (fun _ _ => False))
    (fails : ∀ count after, Yields (next (.fail count)) after (fun _ _ => False)
      (fun _ _ => True)) :
    Consumes (outcome >>= next) [.single] session := by
  unfold Consumes
  rw [callsRest_single]
  refine Yields.seq (outcome_takes session) (fun _ _ => False.elim) ?_
  intro result after taken
  by_cases failure : ∃ count, result = .fail count
  · obtain ⟨count, rfl⟩ := failure
    rcases taken with taken | ⟨-, wrong, -⟩
    · rw [taken]
      exact (fails count after).weaken (fun _ _ => False.elim) (fun _ _ _ => rfl)
    · exact absurd wrong Outcome.noConfusion
  · have success : ∀ count, result ≠ .fail count := fun count same => failure ⟨count, same⟩
    have rest : FileCall.rest .single session.world.script = some after.world.script := by
      rcases taken with taken | ⟨empty, -, empty'⟩
      · rw [taken]
        cases result with
        | full | short count => rfl
        | fail count => exact absurd rfl (success count)
      · rw [empty, empty']
        rfl
    rw [rest]
    exact (succeeds result after success).weaken (fun _ _ same => congrArg some same.symm)
      (fun _ _ => False.elim)

theorem handleFlush_consumes (slot : Slot) (session : Session β) :
    Consumes (AccessHandle.flush slot) [.single] session := by
  apply Consumes.single
  · intro result after success
    cases result with
    | full | short count => exact rfl
    | fail count => exact absurd rfl (success count)
  · intro count after
    cases count <;> exact trivial

theorem truncate_consumes (slot : Slot) (size : Nat) (session : Session β) :
    Consumes (Journal.truncate slot size) [.single] session := by
  have inner : Consumes (AccessHandle.truncate slot size) [.single] session := by
    apply Consumes.single
    · intro result after success
      cases result with
      | full | short count => exact rfl
      | fail count => exact absurd rfl (success count)
    · intro count after
      cases count <;> exact trivial
  exact Consumes.bind inner fun _ after => Consumes.modified _ (fun _ => rfl) after

theorem writeRest_zero (script : List Outcome) : writeRest script 0 = some script := by
  cases script <;> rfl

theorem writeRest_full (script : List Outcome) {length : Nat} (positive : 0 < length) :
    writeRest (.full :: script) length = some script := by
  cases length with
  | zero => omega
  | succ length => rfl

theorem writeRest_nil (length : Nat) : writeRest [] length = some [] := by
  cases length <;> rfl

theorem writeRest_short (script : List Outcome) {count length : Nat} (positive : 0 < length) :
    writeRest (.short count :: script) length =
      if count = 0 then none else writeRest script (length - count) := by
  cases length with
  | zero => omega
  | succ length => cases count <;> rfl

theorem writeRest_fail (script : List Outcome) (count : Nat) {length : Nat}
    (positive : 0 < length) : writeRest (.fail count :: script) length = none := by
  cases length with
  | zero => omega
  | succ length => rfl

/-- What one call to write takes, and what is left to do behind it. -/
theorem handleWrite_consumes (slot : Slot) {data : Bytes} (nonempty : data ≠ []) (offset : Nat)
    (session : Session β) :
    Yields (AccessHandle.write slot data offset) session
      (fun count after => count ≤ data.length ∧ writeRest session.world.script data.length =
        if count = 0 then none else writeRest after.world.script (data.length - count))
      (fun _ _ => writeRest session.world.script data.length = none) := by
  have positive := List.length_pos_iff.mpr nonempty
  have all (script : List Outcome) : some script =
      if data.length = 0 then none else writeRest script (data.length - data.length) := by
    rw [if_neg (by omega), Nat.sub_self, writeRest_zero]
  refine Yields.seq (outcome_takes session) (fun _ _ => False.elim) ?_
  rintro result after (taken | ⟨empty, rfl, empty'⟩)
  · rw [taken]
    cases result with
    | full => exact ⟨le_rfl, (writeRest_full _ positive).trans (all _)⟩
    | short count =>
        have length : (data.take count).length = min count data.length := List.length_take
        refine ⟨by omega, ?_⟩
        rw [writeRest_short _ positive, length]
        by_cases none : count = 0
        · rw [if_pos none, if_pos (by omega)]
        · rw [if_neg none, if_neg (by omega)]
          exact congrArg (writeRest after.world.script) (by omega)
    | fail count => exact writeRest_fail _ count positive
  · rw [empty, writeRest_nil]
    refine ⟨le_rfl, ?_⟩
    have left : (Session.setSlot after slot ((after.file slot).edit (.write offset data))).world.script =
        [] := empty'
    exact left ▸ all []

theorem write_consumes (slot : Slot) (bytes : Bytes) (offset : Nat) (session : Session β) :
    Consumes (Journal.write slot bytes offset) [.write bytes.length] session := by
  unfold Consumes
  rw [callsRest_single]
  show Yields (Journal.write slot bytes offset) session
    (fun _ after => writeRest session.world.script bytes.length = some after.world.script)
    (fun _ _ => writeRest session.world.script bytes.length = none)
  induction length : bytes.length using Nat.strong_induction_on generalizing bytes offset
    session with
  | _ size induction =>
      subst length
      rw [Journal.write]
      by_cases done : bytes = []
      · rw [if_pos done, done]
        exact writeRest_zero _
      rw [if_neg done]
      have positive := List.length_pos_iff.mpr done
      refine Yields.bind (handleWrite_consumes slot done offset session) ?_
      rintro count after ⟨bound, step⟩
      rw [step]
      split_ifs with stuck zero zero
      · exact rfl
      · omega
      · omega
      · apply Yields.modify_bind
        have tail := induction (bytes.drop count).length (by rw [List.length_drop]; omega)
          (bytes.drop count) (offset + count)
          (after.setSize slot (max (after.journal.sizes slot) (offset + count))) rfl
        rw [List.length_drop] at tail
        exact tail

theorem retire_consumes (slot : Slot) (session : Session β) :
    Consumes (Journal.retire slot) retireCalls session :=
  Consumes.bind (write_consumes slot marker 0 session) fun _ after =>
    Consumes.bind (handleFlush_consumes slot after) fun _ after =>
      Consumes.bind (truncate_consumes slot marker.length after) fun _ after =>
        handleFlush_consumes slot after

theorem ofExcept_bind {session : Session β} {value : α} {next : α → Action β γ} {returns : γ → Session β → Prop}
    {throws : Thrown → Session β → Prop} {result : Except Thrown α} (isOk : result = .ok value)
    (holds : Yields (next value) session returns throws) :
    Yields (Journal.ofExcept result >>= next) session returns throws := by
  rw [isOk]
  exact holds

theorem checkpoint_consumes {session : Session β} {bytes : Bytes}
    (taken : Checkpoint.snapshot session.journal.ns (session.journal.generation + 1) = .ok bytes) :
    Consumes Journal.checkpoint (checkpointCalls bytes.length) session := by
  apply Yields.get_bind
  refine ofExcept_bind taken ?_
  refine Consumes.bind (retire_consumes _ session) fun _ after =>
    Consumes.bind (write_consumes _ bytes 0 after) fun _ after =>
      Consumes.bind (handleFlush_consumes _ after) fun _ after => ?_
  have last := Consumes.bind (retire_consumes session.journal.active after) fun _ final =>
    Consumes.modified (Journal.publish · session.journal.active.other) (fun _ => rfl) final
  rwa [List.append_nil] at last

theorem flush_consumes (session : Session β) : Consumes Journal.flush [.single] session :=
  Yields.get_bind (handleFlush_consumes session.journal.active session)

end Storage
end Postgamma
