import Mathlib
import Postgamma.Library.TwosComplement

/-!
# The deadlines of the waiting calls

A timeout in milliseconds becomes a deadline in an unsigned word of nanoseconds and, for the memory
transport, one in a signed word.  An operation on words whose result does not fit has no result, and
neither has a conversion that changes the number.
-/

namespace Postgamma.Embedded

open TwosComplement (Signed checked most)

/-- `UINT64_MAX`, which is also `POSTGAMMA_SUPERVISOR_NO_DEADLINE`. -/
def uint64Max : ℤ := 2 ^ 64 - 1

/-- `INT64_MAX`, which is also `POSTGAMMA_MEMORY_NO_DEADLINE`. -/
def int64Max : ℤ := most 64

/-- The result of an operation on unsigned words. -/
def unsignedWord (number : ℤ) : Option ℤ :=
  if 0 ≤ number ∧ number ≤ uint64Max then some number else none

/-- `PGM_NO_TIMEOUT`. -/
def noTimeout : ℤ := -1

/-- A reading of the monotonic clock. -/
structure ClockReading where
  sec : ℤ
  nsec : ℤ
  nsec_nonneg : 0 ≤ nsec
  nsec_lt : nsec < 1000000000

/-- A reading of the wall clock. -/
structure WallReading where
  sec : ℤ
  usec : ℤ
  usec_nonneg : 0 ≤ usec
  usec_lt : usec < 1000000

/-- The errors of the conversions. -/
inductive DeadlineError
  | invalid
  | overflow
  | internal
  deriving DecidableEq

/-- The microseconds of a reading, as both conversions compute them. -/
def WallReading.microseconds (reading : WallReading) : Option ℤ := do
  let whole ← checked 64 (reading.sec * 1000000)
  checked 64 (whole + reading.usec)

/-- `postgamma_monotonic_now_ns`; a clock that fails reads zero. -/
def monotonicNow : Option ClockReading → Option ℤ
  | none => some 0
  | some reading => do
      let whole ← unsignedWord (reading.sec * 1000000000)
      unsignedWord (whole + reading.nsec)

def deadlineAfter (interval : ℤ) (clock : Option ClockReading) :
    Option (Except DeadlineError ℤ) := do
  let now ← monotonicNow clock
  if now = 0 ∨ uint64Max - interval < now then return .error .overflow
  let deadline ← unsignedWord (now + interval)
  return .ok deadline

def deadlineFromTimeout (timeout : ℤ) (clock : Option ClockReading) :
    Option (Except DeadlineError ℤ) :=
  if timeout < noTimeout then some (.error .invalid)
  else if timeout = noTimeout then some (.ok uint64Max)
  else if uint64Max / 1000000 < timeout then some (.error .overflow)
  else do
    let interval ← unsignedWord (timeout * 1000000)
    deadlineAfter interval clock

/-- `postgamma_memory_clock_now`. -/
def memoryClockNow : Option ClockReading → Option (Except DeadlineError ℤ)
  | none => some (.error .internal)
  | some reading =>
      if reading.sec < 0 ∨ int64Max / 1000000000 < reading.sec then some (.error .internal)
      else do
        let whole ← checked 64 (reading.sec * 1000000000)
        let now ← checked 64 (whole + reading.nsec)
        return .ok now

def privateDeadlineAfter (interval : ℤ) (clock : Option ClockReading) :
    Option (Except DeadlineError ℤ) :=
  if interval < 0 then some (.error .overflow)
  else do
    match ← memoryClockNow clock with
    | .error _ => return .error .overflow
    | .ok now =>
        if int64Max - interval < now then return .error .overflow
        let deadline ← checked 64 (now + interval)
        return .ok deadline

/-- `postgamma_private_deadline`, whose end is in microseconds of the wall clock. -/
def privateDeadline (endTime : ℤ) (clock : Option ClockReading) (wall : Option WallReading) :
    Option (Except DeadlineError ℤ) :=
  if endTime < 0 then some (.ok int64Max)
  else do
    match ← memoryClockNow clock with
    | .error status => return .error status
    | .ok now =>
        if endTime = 0 then return .ok now
        match wall with
        | none => return .error .internal
        | some reading =>
            if reading.sec < 0 ∨ 9223372036854 < reading.sec then return .error .internal
            let wallMicroseconds ← reading.microseconds
            let remaining ←
              if wallMicroseconds < endTime then checked 64 (endTime - wallMicroseconds)
              else some 0
            if (int64Max - now) / 1000 < remaining then return .error .overflow
            let more ← checked 64 (remaining * 1000)
            let deadline ← checked 64 (now + more)
            return .ok deadline

def transportDeadline (deadline : ℤ) : Option ℤ :=
  if deadline = uint64Max then some int64Max else checked 64 deadline

/-- What ends a wait on the condition of the memory transport. -/
inductive WaitEnding
  | signal
  | failure
  /-- The clock comes to a time. -/
  | clock (time : ℤ)

/-- What a wait of the memory transport returns. -/
inductive TransportWait
  | failed
  | woken
  | timeout (time : ℤ)
  deriving DecidableEq

/-- `postgamma_memory_endpoint_wait`.  A timed wait on the condition gives up when the clock has
come to its deadline, and a wait without a deadline does not look at the clock. -/
def endpointWait (deadline : ℤ) (ending : WaitEnding) : TransportWait :=
  if deadline < 0 then .failed
  else
    match ending with
    | .signal => .woken
    | .failure => .failed
    | .clock time =>
        if deadline = int64Max then .woken
        else if deadline ≤ time then .timeout time
        else .woken

/-- One round of the loop of a waiting call: the reading of the clock and the wait behind it. -/
structure WaitRound where
  clock : Option ClockReading
  ending : WaitEnding

/-- What a waiting call comes to. -/
inductive CallResult
  | refused (status : DeadlineError)
  /-- What the call waits for has come. -/
  | settled
  | failed
  | timeout (time : ℤ)
  deriving DecidableEq

/-- The nanoseconds of a reading, which are zero for a clock that fails. -/
def clockTime : Option ClockReading → ℤ
  | none => 0
  | some reading => reading.sec * 1000000000 + reading.nsec

/-- The microseconds of a reading of the wall clock. -/
def wallTime : Option WallReading → ℤ
  | none => 0
  | some reading => reading.sec * 1000000 + reading.usec

/-- The loops of `pgm_request_wait`, `pgm_request_next_result` and the calls of COPY; the request
has settled when the rounds are used up. -/
def waitLoop (deadline : ℤ) : List WaitRound → Option CallResult
  | [] => some .settled
  | round :: rest => do
      if deadline ≠ uint64Max then
        let now ← monotonicNow round.clock
        if deadline ≤ now then return .timeout (clockTime round.clock)
      let transport ← transportDeadline deadline
      match endpointWait transport round.ending with
      | .failed => return .failed
      | .timeout time => return .timeout time
      | .woken => waitLoop deadline rest

def timedCall (timeout : ℤ) (clock : Option ClockReading) (rounds : List WaitRound) :
    Option CallResult := do
  match ← deadlineFromTimeout timeout clock with
  | .error status => return .refused status
  | .ok deadline => waitLoop deadline rounds

/-- The waits of the memory transport behind a deadline of its own. -/
def transportLoop (deadline : ℤ) : List WaitEnding → CallResult
  | [] => .settled
  | ending :: rest =>
      match endpointWait deadline ending with
      | .failed => .failed
      | .timeout time => .timeout time
      | .woken => transportLoop deadline rest

/-- `postgamma_libpq_memory_socket_check` with the end of the wait in wall time. -/
def socketCheck (endTime : ℤ) (clock : Option ClockReading) (wall : Option WallReading)
    (endings : List WaitEnding) : Option CallResult := do
  match ← privateDeadline endTime clock wall with
  | .error _ => return .failed
  | .ok deadline => return transportLoop deadline endings

/-- What `postgamma_private_wait` meets: its own readings, the later ones of the socket check behind
it, and the wait. -/
structure PrivateRound where
  clock : Option ClockReading
  wall : Option WallReading
  laterClock : Option ClockReading
  laterWall : Option WallReading
  endings : List WaitEnding

/-- The socket check behind the end in wall time. -/
def PrivateRound.check (round : PrivateRound) (endTime : ℤ) : Option CallResult :=
  socketCheck endTime round.laterClock round.laterWall round.endings

/-- `postgamma_private_wait`. -/
def privateWait (deadline : ℤ) (round : PrivateRound) : Option CallResult :=
  if deadline = int64Max then round.check (-1)
  else do
    match ← memoryClockNow round.clock with
    | .error _ => return .failed
    | .ok now =>
        match round.wall with
        | none => return .failed
        | some reading =>
            if reading.sec < 0 ∨ 9223372036854 < reading.sec then return .failed
            if deadline ≤ now then return .timeout now
            let wallMicroseconds ← reading.microseconds
            let remaining ← checked 64 (deadline - now)
            if int64Max - wallMicroseconds < remaining / 1000 then return .failed
            let endTime ← checked 64 (wallMicroseconds + remaining / 1000)
            round.check endTime

/-- A wait of `pgm_statement_prepare` or `pgm_statement_close`; all waits of such a call have the
deadline that it has set at the beginning. -/
def statementWait (interval : ℤ) (clock : Option ClockReading) (round : PrivateRound) :
    Option CallResult := do
  match ← privateDeadlineAfter interval clock with
  | .error status => return .refused status
  | .ok deadline => privateWait deadline round

/-- A wait with a bound on its time: a call with a timeout, a wait for the answer about a statement
with an interval, or a wait for the socket to an end in wall time. -/
inductive TimedWait
  | call (timeout : Signed 64) (clock : Option ClockReading) (rounds : List WaitRound)
  | statement (interval : Signed 64) (clock : Option ClockReading) (round : PrivateRound)
  | socket (endTime : Signed 64) (clock : Option ClockReading) (wall : Option WallReading)
      (endings : List WaitEnding)

/-- The memory transport takes the reading of its clock. -/
def Accepted (clock : Option ClockReading) : Prop :=
  ∃ reading, clock = some reading ∧ 0 ≤ reading.sec ∧ reading.sec ≤ int64Max / 1000000000

/-- The conversions take the reading of the wall clock. -/
def WallAccepted (wall : Option WallReading) : Prop :=
  ∃ reading, wall = some reading ∧ 0 ≤ reading.sec ∧ reading.sec ≤ 9223372036854

/-- The nanoseconds of a reading that is taken fit the signed word. -/
def ClockFits (clock : Option ClockReading) : Prop := Accepted clock → clockTime clock ≤ int64Max

/-- The microseconds of a reading that is taken fit the signed word. -/
def WallFits (wall : Option WallReading) : Prop := WallAccepted wall → wallTime wall ≤ int64Max

/-- The nanoseconds of a reading fit the unsigned word. -/
def MonotonicFits (clock : Option ClockReading) : Prop :=
  0 ≤ clockTime clock ∧ clockTime clock ≤ uint64Max

/-- In each round that a call comes to, the reading of the clock fits, and so does the deadline when
it has not passed. -/
def RoundsFit (deadline : ℤ) : List WaitRound → Prop
  | [] => True
  | round :: rest =>
      MonotonicFits round.clock ∧
        (clockTime round.clock < deadline → deadline ≤ int64Max ∧
          (endpointWait deadline round.ending = .woken → RoundsFit deadline rest))

/-- The time that a socket check waits for. -/
def socketLimit (endTime : ℤ) (clock : Option ClockReading) (wall : Option WallReading) : ℤ :=
  clockTime clock + if endTime = 0 then 0 else max 0 (endTime - wallTime wall) * 1000

/-- The readings of a socket check fit. -/
def SocketFits (endTime : ℤ) (clock : Option ClockReading) (wall : Option WallReading) : Prop :=
  ClockFits clock ∧ (endTime ≠ 0 → Accepted clock → WallFits wall)

/-- A socket check takes its readings, and they leave room for the limit. -/
def SocketLimited (endTime : ℤ) (clock : Option ClockReading) (wall : Option WallReading) : Prop :=
  Accepted clock ∧ (endTime ≠ 0 → WallAccepted wall) ∧ socketLimit endTime clock wall ≤ int64Max

/-- The clock stops a wait between its limit and the deadline. -/
def StopsEarly (limit deadline : ℤ) : List WaitEnding → Prop
  | [] => False
  | .failure :: _ => False
  | .signal :: rest => StopsEarly limit deadline rest
  | .clock time :: rest =>
      if limit ≤ time then time < deadline else StopsEarly limit deadline rest

namespace PrivateRound

/-- The end in wall time that a wait computes: the rest of the time in whole microseconds. -/
def endTime (round : PrivateRound) (deadline : ℤ) : ℤ :=
  wallTime round.wall + (deadline - clockTime round.clock) / 1000

/-- All readings of a wait fit, and the clock does not stop it before the deadline. -/
def Fits (round : PrivateRound) (deadline : ℤ) : Prop :=
  ClockFits round.clock ∧
    (Accepted round.clock → WallAccepted round.wall → clockTime round.clock < deadline →
      wallTime round.wall ≤ int64Max ∧
        (round.endTime deadline ≤ int64Max →
          SocketFits (round.endTime deadline) round.laterClock round.laterWall ∧
            (SocketLimited (round.endTime deadline) round.laterClock round.laterWall →
              ¬StopsEarly (socketLimit (round.endTime deadline) round.laterClock round.laterWall)
                deadline round.endings)))

end PrivateRound

namespace TimedWait

/-- What the wait comes to. -/
def result : TimedWait → Option CallResult
  | call timeout clock rounds => timedCall timeout clock rounds
  | statement interval clock round => statementWait interval clock round
  | socket endTime clock wall endings => socketCheck endTime clock wall endings

/-- The nanoseconds that the wait is meant to last, from the reading of the clock in the call. -/
def duration : TimedWait → Option ℤ
  | call timeout _ _ => if timeout.1 = noTimeout then none else some (timeout.1 * 1000000)
  | statement interval _ _ => some interval.1
  | socket endTime _ wall _ =>
      if endTime.1 < 0 then none
      else some (if endTime.1 = 0 then 0 else max 0 (endTime.1 - wallTime wall) * 1000)

/-- The clock of the call. -/
def start : TimedWait → ℤ
  | call _ clock _ | statement _ clock _ | socket _ clock _ _ => clockTime clock

/-- Every number of the wait fits, and a timeout is not before its time. -/
def Meets (wait : TimedWait) : Prop :=
  ∃ result, wait.result = some result ∧
    ∀ time, result = .timeout time →
      ∃ duration, wait.duration = some duration ∧ wait.start + duration ≤ time

/-- The condition under which all numbers of the wait fit and its timeout is not early. -/
def Fits : TimedWait → Prop
  | call timeout clock rounds =>
      0 ≤ timeout.1 → timeout.1 ≤ uint64Max / 1000000 →
        MonotonicFits clock ∧
          (0 < clockTime clock → clockTime clock + timeout.1 * 1000000 < uint64Max →
            RoundsFit (clockTime clock + timeout.1 * 1000000) rounds)
  | statement interval clock round =>
      0 ≤ interval.1 →
        ClockFits clock ∧
          (Accepted clock → clockTime clock + interval.1 < int64Max →
            round.Fits (clockTime clock + interval.1))
  | socket endTime clock wall _ => 0 ≤ endTime.1 → SocketFits endTime.1 clock wall

end TimedWait

theorem int64Max_eq : int64Max = 9223372036854775807 := rfl

theorem uint64Max_eq : uint64Max = 18446744073709551615 := rfl

theorem unsigned_fits {number : ℤ} (nonneg : 0 ≤ number) (small : number ≤ uint64Max) :
    unsignedWord number = some number :=
  if_pos ⟨nonneg, small⟩

theorem checked_small {number : ℤ} (nonneg : 0 ≤ number) (small : number ≤ int64Max) :
    checked 64 number = some number :=
  TwosComplement.checked_fits (TwosComplement.fits_of_nonneg nonneg small)

theorem checked_large {number : ℤ} (large : int64Max < number) : checked 64 number = none :=
  TwosComplement.checked_overflow large

variable {clock : Option ClockReading}

theorem monotonicNow_fits (fits : MonotonicFits clock) :
    monotonicNow clock = some (clockTime clock) := by
  cases clock with
  | none => rfl
  | some reading =>
      have nonneg := reading.nsec_nonneg
      have less := reading.nsec_lt
      obtain ⟨low, high⟩ := fits
      rw [clockTime] at low high ⊢
      rw [monotonicNow, unsigned_fits (by omega) (by omega)]
      exact unsigned_fits low high

theorem monotonicNow_overflow (large : ¬MonotonicFits clock) : monotonicNow clock = none := by
  cases clock with
  | none => exact absurd ⟨le_rfl, by decide⟩ large
  | some reading =>
      rw [monotonicNow]
      by_cases whole : 0 ≤ reading.sec * 1000000000 ∧ reading.sec * 1000000000 ≤ uint64Max
      · rw [unsigned_fits whole.1 whole.2]
        exact if_neg large
      · rw [unsignedWord, if_neg whole]
        rfl

theorem memoryClockNow_refused (refused : ¬Accepted clock) :
    memoryClockNow clock = some (.error .internal) := by
  cases clock with
  | none => rfl
  | some reading =>
      refine if_pos ?_
      by_contra inside
      rw [not_or, not_lt, not_lt] at inside
      exact refused ⟨reading, rfl, inside⟩

theorem memoryClockNow_accepted (accepted : Accepted clock) :
    0 ≤ clockTime clock ∧
      memoryClockNow clock = (checked 64 (clockTime clock)).map Except.ok := by
  obtain ⟨reading, rfl, early, late⟩ := accepted
  have nonneg := reading.nsec_nonneg
  refine ⟨by rw [clockTime]; omega, ?_⟩
  rw [memoryClockNow, if_neg (not_or.mpr ⟨not_lt.mpr early, not_lt.mpr late⟩),
    checked_small (by omega) (by rw [int64Max_eq] at *; omega)]
  change (checked 64 (clockTime (some reading))).bind _ = _
  cases checked 64 (clockTime (some reading)) <;> rfl

theorem memoryClockNow_fits (accepted : Accepted clock)
    (fits : ClockFits clock) : memoryClockNow clock = some (.ok (clockTime clock)) := by
  obtain ⟨nonneg, read⟩ := memoryClockNow_accepted accepted
  rw [read, checked_small nonneg (fits accepted)]
  rfl

theorem memoryClockNow_overflow (large : ¬ClockFits clock) : memoryClockNow clock = none := by
  obtain ⟨accepted, large⟩ := Classical.not_imp.mp large
  rw [(memoryClockNow_accepted accepted).2, checked_large (not_le.mp large)]
  rfl

theorem wall_refused {wall : Option WallReading} (refused : ¬WallAccepted wall) :
    wall = none ∨
      ∃ reading, wall = some reading ∧ (reading.sec < 0 ∨ 9223372036854 < reading.sec) := by
  cases wall with
  | none => exact .inl rfl
  | some reading =>
      refine .inr ⟨reading, rfl, ?_⟩
      by_contra inside
      rw [not_or, not_lt, not_lt] at inside
      exact refused ⟨reading, rfl, inside⟩

/-- A reading of the wall clock that is taken has its microseconds when they fit. -/
theorem microseconds_accepted {reading : WallReading} (early : 0 ≤ reading.sec)
    (late : reading.sec ≤ 9223372036854) :
    0 ≤ wallTime (some reading) ∧ reading.microseconds = checked 64 (wallTime (some reading)) := by
  have usec := reading.usec_nonneg
  refine ⟨by rw [wallTime]; omega, ?_⟩
  rw [WallReading.microseconds, checked_small (by omega) (by rw [int64Max_eq]; omega)]
  rfl

theorem deadlineFromTimeout_eq {timeout : ℤ} (nonneg : 0 ≤ timeout) (fits : MonotonicFits clock) :
    deadlineFromTimeout timeout clock =
      some (if uint64Max / 1000000 < timeout ∨ clockTime clock = 0 ∨
          uint64Max < clockTime clock + timeout * 1000000 then .error .overflow
        else .ok (clockTime clock + timeout * 1000000)) := by
  have first : ¬timeout < noTimeout := by
    rw [noTimeout]
    omega
  have second : timeout ≠ noTimeout := by
    rw [noTimeout]
    omega
  have time := fits.1
  rw [deadlineFromTimeout, if_neg first, if_neg second]
  by_cases long : uint64Max / 1000000 < timeout
  · rw [if_pos long, if_pos (.inl long)]
  rw [if_neg long, unsigned_fits (by omega) (by rw [uint64Max_eq] at *; omega)]
  simp only [Option.bind_eq_bind, Option.bind_some, deadlineAfter, monotonicNow_fits fits, long,
    false_or]
  by_cases refused : clockTime clock = 0 ∨ uint64Max - timeout * 1000000 < clockTime clock
  · rw [if_pos refused, if_pos (refused.imp_right fun less => by omega)]
    rfl
  · rw [if_neg refused, if_neg (fun other => refused (other.imp_right fun less => by omega))]
    rw [not_or] at refused
    simp only [unsigned_fits (show 0 ≤ clockTime clock + timeout * 1000000 by omega)
      (show clockTime clock + timeout * 1000000 ≤ uint64Max by omega)]
    rfl

theorem endpointWait_timeout {deadline time : ℤ} {ending : WaitEnding}
    (waited : endpointWait deadline ending = .timeout time) :
    deadline ≠ int64Max ∧ deadline ≤ time := by
  cases ending with
  | signal =>
      simp only [endpointWait] at waited
      split_ifs at waited
  | failure =>
      simp only [endpointWait] at waited
      split_ifs at waited
  | clock other =>
      simp only [endpointWait] at waited
      split_ifs at waited with negative unlimited late
      cases waited
      exact ⟨unlimited, late⟩

theorem transportLoop_timeout {deadline time : ℤ} {endings : List WaitEnding}
    (waited : transportLoop deadline endings = .timeout time) :
    deadline ≠ int64Max ∧ deadline ≤ time := by
  induction endings with
  | nil => cases waited
  | cons ending rest induction =>
      rw [transportLoop] at waited
      cases ended : endpointWait deadline ending with
      | failed =>
          rw [ended] at waited
          cases waited
      | timeout other =>
          rw [ended] at waited
          cases waited
          exact endpointWait_timeout ended
      | woken =>
          rw [ended] at waited
          exact induction waited

/-- A wait to a limit is early for a deadline exactly when the clock stops it in between. -/
theorem transportLoop_early {limit deadline : ℤ} (nonneg : 0 ≤ limit)
    (small : deadline ≤ int64Max) (endings : List WaitEnding) :
    (∀ time, transportLoop limit endings = .timeout time → deadline ≤ time) ↔
      ¬StopsEarly limit deadline endings := by
  induction endings with
  | nil => exact iff_of_true (fun time other => by cases other) id
  | cons ending rest induction =>
      rw [transportLoop]
      cases ending with
      | signal => simpa only [endpointWait, if_neg (not_lt.mpr nonneg), StopsEarly] using induction
      | failure =>
          simp only [endpointWait, if_neg (not_lt.mpr nonneg)]
          exact iff_of_true (fun time other => by cases other) id
      | clock reached =>
          simp only [endpointWait, if_neg (not_lt.mpr nonneg), StopsEarly]
          by_cases unlimited : limit = int64Max
          · rw [if_pos unlimited]
            split_ifs with late
            · refine iff_of_true (fun time waited => ?_) (by omega)
              exact absurd unlimited (transportLoop_timeout waited).1
            · exact induction
          · rw [if_neg unlimited]
            split_ifs with late
            · rw [not_lt]
              refine ⟨fun meets => meets reached rfl, fun less time same => ?_⟩
              cases same
              exact less
            · exact induction

/-- A call without an end waits without one. -/
theorem waitLoop_infinite (rounds : List WaitRound) :
    ∃ result, waitLoop uint64Max rounds = some result ∧ ∀ time, result ≠ .timeout time := by
  induction rounds with
  | nil => exact ⟨.settled, rfl, nofun⟩
  | cons round rest induction =>
      have shape : waitLoop uint64Max (round :: rest) =
          match endpointWait int64Max round.ending with
          | .failed => some .failed
          | .timeout time => some (.timeout time)
          | .woken => waitLoop uint64Max rest := rfl
      rw [shape]
      cases ended : endpointWait int64Max round.ending with
      | failed => exact ⟨.failed, rfl, nofun⟩
      | timeout time => exact absurd rfl (endpointWait_timeout ended).1
      | woken => exact induction

/-- A computation that overflows meets nothing. -/
theorem none_meets {meets : CallResult → Prop} {condition : Prop} (fails : ¬condition) :
    (∃ result, none = some result ∧ meets result) ↔ condition :=
  iff_of_false (by rintro ⟨_, same, -⟩; cases same) fails

/-- The rounds of a call with a deadline. -/
theorem waitLoop_meets {deadline : ℤ} (nonneg : 0 ≤ deadline) (finite : deadline < uint64Max)
    (rounds : List WaitRound) :
    (∃ result, waitLoop deadline rounds = some result ∧
        ∀ time, result = .timeout time → deadline ≤ time) ↔ RoundsFit deadline rounds := by
  induction rounds with
  | nil => exact iff_of_true ⟨.settled, rfl, nofun⟩ trivial
  | cons round rest induction =>
      rw [waitLoop, RoundsFit]
      simp only [ne_eq, finite.ne, not_false_eq_true, if_true]
      by_cases read : MonotonicFits round.clock
      swap
      · rw [monotonicNow_overflow read]
        exact none_meets fun other => read other.1
      rw [monotonicNow_fits read]
      simp only [read, true_and, Option.bind_eq_bind, Option.bind_some]
      by_cases passed : deadline ≤ clockTime round.clock
      · rw [if_pos passed]
        refine iff_of_true ⟨_, rfl, fun time same => ?_⟩ fun early =>
          absurd passed (not_le.mpr early)
        cases same
        exact passed
      rw [if_neg passed]
      simp only [not_le.mp passed, true_imp_iff, transportDeadline, if_neg finite.ne]
      by_cases large : int64Max < deadline
      · rw [checked_large large]
        exact none_meets fun other => absurd other.1 (not_le.mpr large)
      rw [checked_small nonneg (not_lt.mp large)]
      simp only [Option.bind_some, not_lt.mp large, true_and]
      cases ended : endpointWait deadline round.ending with
      | failed => exact iff_of_true ⟨.failed, rfl, nofun⟩ nofun
      | timeout reached =>
          refine iff_of_true ⟨.timeout reached, rfl, fun time same => ?_⟩ nofun
          cases same
          exact (endpointWait_timeout ended).2
      | woken => exact induction.trans ⟨fun fits _ => fits, fun fits => fits rfl⟩

/-- The end of a wait in wall time on readings that are taken. -/
theorem privateDeadline_eq {endTime now : ℤ} {reading : WallReading}
    (positive : 0 < endTime) (read : memoryClockNow clock = some (.ok now))
    (early : 0 ≤ reading.sec) (late : reading.sec ≤ 9223372036854) :
    privateDeadline endTime clock (some reading) =
      reading.microseconds.bind fun wall =>
        (if wall < endTime then checked 64 (endTime - wall) else some 0).bind fun remaining =>
          if (int64Max - now) / 1000 < remaining then some (.error .overflow)
          else
            (checked 64 (remaining * 1000)).bind fun more =>
              (checked 64 (now + more)).bind fun deadline => some (.ok deadline) := by
  simp only [privateDeadline, if_neg (not_lt.mpr positive.le), read, Option.bind_eq_bind,
    Option.bind_some, if_neg positive.ne',
    if_neg (not_or.mpr ⟨not_lt.mpr early, not_lt.mpr late⟩)]
  congr 1
  funext wall
  by_cases passed : wall < endTime
  · simp only [if_pos passed]
    rfl
  · simp only [if_neg passed]
    rfl

theorem privateDeadline_overflow {endTime : ℤ}
    {wall : Option WallReading} (nonneg : 0 ≤ endTime) (large : ¬SocketFits endTime clock wall) :
    privateDeadline endTime clock wall = none := by
  by_cases fits : ClockFits clock
  swap
  · rw [privateDeadline, if_neg (not_lt.mpr nonneg), memoryClockNow_overflow fits]
    rfl
  have other : ¬(endTime ≠ 0 → Accepted clock → WallFits wall) := fun rest => large ⟨fits, rest⟩
  obtain ⟨later, rest⟩ := Classical.not_imp.mp other
  obtain ⟨accepted, unfit⟩ := Classical.not_imp.mp rest
  obtain ⟨⟨reading, rfl, early, late⟩, large⟩ := Classical.not_imp.mp unfit
  rw [privateDeadline_eq (lt_of_le_of_ne nonneg (Ne.symm later)) (memoryClockNow_fits accepted fits)
    early late, (microseconds_accepted early late).2, checked_large (not_le.mp large)]
  rfl

/-- Readings that fit give the limit exactly when they are taken and leave room for it. -/
theorem privateDeadline_fits {endTime : ℤ} {wall : Option WallReading}
    (nonneg : 0 ≤ endTime) (word : endTime ≤ int64Max) (fits : SocketFits endTime clock wall) :
    (SocketLimited endTime clock wall → 0 ≤ socketLimit endTime clock wall ∧
        privateDeadline endTime clock wall = some (.ok (socketLimit endTime clock wall))) ∧
      (¬SocketLimited endTime clock wall →
        ∃ status, privateDeadline endTime clock wall = some (.error status)) := by
  have first := not_lt.mpr nonneg
  by_cases accepted : Accepted clock
  swap
  · refine ⟨fun limited => absurd limited.1 accepted, fun _ => ⟨.internal, ?_⟩⟩
    rw [privateDeadline, if_neg first, memoryClockNow_refused accepted]
    rfl
  have time := (memoryClockNow_accepted accepted).1
  have read := memoryClockNow_fits accepted fits.1
  by_cases instant : endTime = 0
  · have limit : socketLimit endTime clock wall = clockTime clock := by
      rw [socketLimit, if_pos instant, add_zero]
    refine ⟨fun _ => ⟨limit ▸ time, ?_⟩, fun unlimited => absurd ?_ unlimited⟩
    · rw [limit, privateDeadline, if_neg first, read]
      simp only [Option.bind_eq_bind, Option.bind_some, if_pos instant]
      rfl
    · exact ⟨accepted, fun other => absurd instant other, limit ▸ fits.1 accepted⟩
  by_cases taken : WallAccepted wall
  swap
  · refine ⟨fun limited => absurd (limited.2.1 instant) taken, fun _ => ⟨.internal, ?_⟩⟩
    rcases wall_refused taken with rfl | ⟨reading, rfl, range⟩
    · simp only [privateDeadline, if_neg first, read, Option.bind_eq_bind, Option.bind_some,
        if_neg instant]
      rfl
    · simp only [privateDeadline, if_neg first, read, Option.bind_eq_bind, Option.bind_some,
        if_neg instant, if_pos range]
      rfl
  have small := fits.2 instant accepted taken
  obtain ⟨reading, rfl, early, late⟩ := id taken
  obtain ⟨low, micros⟩ := microseconds_accepted early late
  have limit : socketLimit endTime clock (some reading) =
      clockTime clock + max 0 (endTime - wallTime (some reading)) * 1000 := by
    rw [socketLimit, if_neg instant]
  have remaining : (if wallTime (some reading) < endTime
        then checked 64 (endTime - wallTime (some reading)) else some 0) =
      some (max 0 (endTime - wallTime (some reading))) := by
    split_ifs with more
    · rw [checked_small (by omega) (by omega), max_eq_right (by omega)]
    · rw [max_eq_left (by omega)]
  rw [privateDeadline_eq (lt_of_le_of_ne nonneg (Ne.symm instant)) read early late, micros,
    checked_small low small, Option.bind_some, remaining, Option.bind_some, limit]
  have rest := le_max_left 0 (endTime - wallTime (some reading))
  generalize max 0 (endTime - wallTime (some reading)) = more at rest limit ⊢
  by_cases long : (int64Max - clockTime clock) / 1000 < more
  · refine ⟨fun limited => absurd limited.2.2 ?_, fun _ => ⟨.overflow, if_pos long⟩⟩
    rw [limit]
    omega
  · rw [if_neg long, checked_small (by omega) (by omega), Option.bind_some,
      checked_small (by omega) (by omega), Option.bind_some]
    exact ⟨fun _ => ⟨by omega, rfl⟩, fun unlimited => absurd
      ⟨accepted, fun _ => taken, by rw [limit]; omega⟩ unlimited⟩

theorem socketCheck_eq (endTime : ℤ) (clock : Option ClockReading) (wall : Option WallReading)
    (endings : List WaitEnding) :
    socketCheck endTime clock wall endings =
      (privateDeadline endTime clock wall).bind fun answer =>
        match answer with
        | .error _ => some .failed
        | .ok deadline => some (transportLoop deadline endings) :=
  rfl

theorem socketCheck_meets {endTime deadline : ℤ} (nonneg : 0 ≤ endTime) (word : endTime ≤ int64Max)
    (small : deadline ≤ int64Max) (clock : Option ClockReading) (wall : Option WallReading)
    (endings : List WaitEnding) :
    (∃ result, socketCheck endTime clock wall endings = some result ∧
        ∀ time, result = .timeout time → deadline ≤ time) ↔
      SocketFits endTime clock wall ∧ (SocketLimited endTime clock wall →
        ¬StopsEarly (socketLimit endTime clock wall) deadline endings) := by
  rw [socketCheck_eq]
  by_cases fits : SocketFits endTime clock wall
  swap
  · rw [privateDeadline_overflow nonneg fits]
    exact none_meets fun other => fits other.1
  obtain ⟨limits, refuses⟩ := privateDeadline_fits nonneg word fits
  by_cases limited : SocketLimited endTime clock wall
  · obtain ⟨low, same⟩ := limits limited
    have early := transportLoop_early low small endings
    rw [same, Option.bind_some]
    refine ⟨?_, fun condition => ⟨_, rfl, early.mpr (condition.2 limited)⟩⟩
    rintro ⟨result, ended, meets⟩
    obtain rfl := Option.some.inj ended
    exact ⟨fits, fun _ => early.mp meets⟩
  · obtain ⟨status, refused⟩ := refuses limited
    rw [refused, Option.bind_some]
    exact iff_of_true ⟨.failed, rfl, nofun⟩ ⟨fits, fun other => absurd other limited⟩

theorem privateWait_eq {deadline now : ℤ} {round : PrivateRound} {reading : WallReading}
    (finite : deadline ≠ int64Max) (read : memoryClockNow round.clock = some (.ok now))
    (wall : round.wall = some reading) (early : 0 ≤ reading.sec)
    (late : reading.sec ≤ 9223372036854) (before : now < deadline) :
    privateWait deadline round =
      reading.microseconds.bind fun wall =>
        (checked 64 (deadline - now)).bind fun remaining =>
          if int64Max - wall < remaining / 1000 then some .failed
          else (checked 64 (wall + remaining / 1000)).bind round.check := by
  simp only [privateWait, if_neg finite, read, wall, Option.bind_eq_bind, Option.bind_some,
    if_neg (not_or.mpr ⟨not_lt.mpr early, not_lt.mpr late⟩), if_neg (not_le.mpr before)]
  rfl

/-- A wait about a statement with a deadline. -/
theorem privateWait_meets {deadline : ℤ} (finite : deadline < int64Max) (round : PrivateRound) :
    (∃ result, privateWait deadline round = some result ∧
        ∀ time, result = .timeout time → deadline ≤ time) ↔ round.Fits deadline := by
  by_cases fits : ClockFits round.clock
  swap
  · rw [privateWait, if_neg finite.ne, memoryClockNow_overflow fits]
    exact none_meets fun other => fits other.1
  by_cases accepted : Accepted round.clock
  swap
  · rw [privateWait, if_neg finite.ne, memoryClockNow_refused accepted]
    exact iff_of_true ⟨.failed, rfl, nofun⟩ ⟨fits, fun other => absurd other accepted⟩
  have time := (memoryClockNow_accepted accepted).1
  have read := memoryClockNow_fits accepted fits
  by_cases taken : WallAccepted round.wall
  swap
  · refine iff_of_true ⟨.failed, ?_, nofun⟩ ⟨fits, fun _ other => absurd other taken⟩
    rcases wall_refused taken with wall | ⟨reading, wall, range⟩
    · simp only [privateWait, if_neg finite.ne, read, wall, Option.bind_eq_bind, Option.bind_some]
      rfl
    · simp only [privateWait, if_neg finite.ne, read, wall, Option.bind_eq_bind, Option.bind_some,
        if_pos range]
      rfl
  obtain ⟨reading, wall, early, late⟩ := id taken
  by_cases passed : deadline ≤ clockTime round.clock
  · refine iff_of_true ⟨.timeout (clockTime round.clock), ?_, fun other same => ?_⟩
      ⟨fits, fun _ _ before => absurd passed (not_le.mpr before)⟩
    · simp only [privateWait, if_neg finite.ne, read, wall, Option.bind_eq_bind, Option.bind_some,
        if_neg (not_or.mpr ⟨not_lt.mpr early, not_lt.mpr late⟩), if_pos passed]
      rfl
    · cases same
      exact passed
  have before := not_le.mp passed
  obtain ⟨low, micros⟩ := microseconds_accepted early late
  rw [privateWait_eq finite.ne read wall early late before, micros, PrivateRound.Fits]
  rw [wall] at taken
  simp only [fits, accepted, taken, before, true_imp_iff, true_and, PrivateRound.endTime, wall]
  by_cases large : int64Max < wallTime (some reading)
  · rw [checked_large large]
    exact none_meets fun other => absurd other.1 (not_le.mpr large)
  rw [checked_small low (not_lt.mp large), Option.bind_some, checked_small (by omega) (by omega),
    Option.bind_some]
  simp only [not_lt.mp large, true_and]
  by_cases long : int64Max - wallTime (some reading) < (deadline - clockTime round.clock) / 1000
  · rw [if_pos long]
    exact iff_of_true ⟨.failed, rfl, nofun⟩ fun other => absurd other (by omega)
  · have word : wallTime (some reading) + (deadline - clockTime round.clock) / 1000 ≤ int64Max := by
      omega
    rw [if_neg long, checked_small (by omega) word, Option.bind_some]
    simp only [word, true_imp_iff]
    exact socketCheck_meets (by omega) word finite.le ..

namespace TimedWait

theorem call_accepted {deadline : ℤ} {timeout : Signed 64} {rounds : List WaitRound}
    (accepted : deadlineFromTimeout timeout.1 clock = some (.ok deadline)) :
    (call timeout clock rounds).result = waitLoop deadline rounds := by
  rw [result, timedCall, accepted]
  rfl

theorem meets_refused {wait : TimedWait} {status : DeadlineError}
    (refused : wait.result = some (.refused status)) : wait.Meets :=
  ⟨.refused status, refused, fun time other => by cases other⟩

theorem not_meets {wait : TimedWait} (overflows : wait.result = none) : ¬wait.Meets := by
  rintro ⟨result, same, -⟩
  rw [overflows] at same
  cases same

/-- With a duration, a wait meets its deadline when its result does. -/
theorem meets_iff {wait : TimedWait} {result : Option CallResult} {duration deadline : ℤ}
    (same : wait.result = result) (lasts : wait.duration = some duration)
    (ends : wait.start + duration = deadline) :
    wait.Meets ↔ ∃ answer, result = some answer ∧
      ∀ time, answer = .timeout time → deadline ≤ time := by
  subst ends
  simp only [Meets, same, lasts, Option.some.injEq, exists_eq_left']

theorem call_meets (timeout : Signed 64) (clock : Option ClockReading) (rounds : List WaitRound) :
    (call timeout clock rounds).Meets ↔ (call timeout clock rounds).Fits := by
  have refuses {status : DeadlineError}
      (refused : deadlineFromTimeout timeout.1 clock = some (.error status)) :
      (call timeout clock rounds).Meets := by
    have came : (call timeout clock rounds).result = some (.refused status) := by
      rw [result, timedCall, refused]
      rfl
    exact meets_refused came
  have endless (accepted : deadlineFromTimeout timeout.1 clock = some (.ok uint64Max)) :
      (call timeout clock rounds).Meets := by
    obtain ⟨result, same, never⟩ := waitLoop_infinite rounds
    exact ⟨result, (call_accepted accepted).trans same,
      fun time waited => absurd waited (never time)⟩
  by_cases negative : timeout.1 < 0
  · -- Only the timeout without an end is accepted, and it takes the deadline without a time.
    refine iff_of_true ?_ fun nonneg => absurd negative (not_lt.mpr nonneg)
    by_cases invalid : timeout.1 < noTimeout
    · exact refuses (if_pos invalid)
    have infinite : timeout.1 = noTimeout := by
      rw [noTimeout] at *
      omega
    exact endless ((if_neg invalid).trans (if_pos infinite))
  have nonneg := not_lt.mp negative
  have finite : timeout.1 ≠ noTimeout := by
    rw [noTimeout]
    omega
  by_cases long : uint64Max / 1000000 < timeout.1
  · refine iff_of_true (@refuses .overflow ?_) fun _ short =>
      absurd long (not_lt.mpr short)
    rw [deadlineFromTimeout, if_neg (by rw [noTimeout]; omega), if_neg finite, if_pos long]
  have short := not_lt.mp long
  by_cases read : MonotonicFits clock
  swap
  · refine iff_of_false (not_meets ?_) fun condition => read (condition nonneg short).1
    rw [result, timedCall, deadlineFromTimeout, if_neg (by rw [noTimeout]; omega), if_neg finite,
      if_neg long, unsigned_fits (by omega) (by rw [uint64Max_eq] at *; omega)]
    simp only [Option.bind_eq_bind, Option.bind_some, deadlineAfter, monotonicNow_overflow read]
    rfl
  have computed := deadlineFromTimeout_eq nonneg read
  split_ifs at computed with refused
  · refine iff_of_true (refuses computed) fun _ _ => ⟨read, fun running small => ?_⟩
    omega
  rw [not_or, not_or, not_lt, not_lt] at refused
  obtain ⟨-, running, small⟩ := refused
  have first := read.1
  by_cases last : clockTime clock + timeout.1 * 1000000 = uint64Max
  · exact iff_of_true (endless (last ▸ computed)) fun _ _ =>
      ⟨read, fun _ less => absurd last less.ne⟩
  have less := lt_of_le_of_ne small last
  rw [meets_iff (call_accepted computed) (if_neg finite) rfl, start,
    waitLoop_meets (by omega) less rounds]
  exact ⟨fun fits _ _ => ⟨read, fun _ _ => fits⟩, fun condition =>
    (condition nonneg short).2 (lt_of_le_of_ne first (Ne.symm running)) less⟩

theorem statement_meets (interval : Signed 64) (clock : Option ClockReading)
    (round : PrivateRound) :
    (statement interval clock round).Meets ↔ (statement interval clock round).Fits := by
  have refuses (refused : privateDeadlineAfter interval.1 clock = some (.error .overflow)) :
      (statement interval clock round).Meets := by
    have came : (statement interval clock round).result = some (.refused .overflow) := by
      rw [result, statementWait, refused]
      rfl
    exact meets_refused came
  by_cases negative : interval.1 < 0
  · exact iff_of_true (refuses (if_pos negative)) fun nonneg => absurd negative (not_lt.mpr nonneg)
  have nonneg := not_lt.mp negative
  by_cases fits : ClockFits clock
  swap
  · refine iff_of_false (not_meets ?_) fun condition => fits (condition nonneg).1
    rw [result, statementWait, privateDeadlineAfter, if_neg negative, memoryClockNow_overflow fits]
    rfl
  by_cases accepted : Accepted clock
  swap
  · refine iff_of_true (refuses ?_) fun _ => ⟨fits, fun other => absurd other accepted⟩
    rw [privateDeadlineAfter, if_neg negative, memoryClockNow_refused accepted]
    rfl
  have time := (memoryClockNow_accepted accepted).1
  have word := TwosComplement.fits_le interval.2
  have set : privateDeadlineAfter interval.1 clock =
      if int64Max - interval.1 < clockTime clock then some (.error .overflow)
      else
        (checked 64 (clockTime clock + interval.1)).bind fun deadline => some (.ok deadline) := by
    rw [privateDeadlineAfter, if_neg negative, memoryClockNow_fits accepted fits]
    rfl
  by_cases long : int64Max - interval.1 < clockTime clock
  · refine iff_of_true (refuses (set.trans (if_pos long))) fun _ => ⟨fits, fun _ less => ?_⟩
    omega
  rw [if_neg long, checked_small (by omega) (by omega), Option.bind_some] at set
  have waits : (statement interval clock round).result =
      privateWait (clockTime clock + interval.1) round := by
    rw [result, statementWait, set]
    rfl
  by_cases last : clockTime clock + interval.1 = int64Max
  · refine iff_of_true ⟨transportLoop int64Max round.endings, ?_, fun time waited => ?_⟩
      fun _ => ⟨fits, fun _ less => absurd last less.ne⟩
    · rw [waits, last]
      rfl
    · exact absurd rfl (transportLoop_timeout waited).1
  have less : clockTime clock + interval.1 < int64Max := by omega
  rw [meets_iff waits rfl rfl, start, privateWait_meets less]
  exact ⟨fun met _ => ⟨fits, fun _ _ => met⟩, fun condition => (condition nonneg).2 accepted less⟩

theorem socket_meets (endTime : Signed 64) (clock : Option ClockReading)
    (wall : Option WallReading) (endings : List WaitEnding) :
    (socket endTime clock wall endings).Meets ↔ (socket endTime clock wall endings).Fits := by
  by_cases negative : endTime.1 < 0
  · refine iff_of_true ⟨transportLoop int64Max endings, ?_, fun time waited => ?_⟩
      fun nonneg => absurd negative (not_lt.mpr nonneg)
    · rw [result, socketCheck_eq, privateDeadline, if_pos negative, Option.bind_some]
    · exact absurd rfl (transportLoop_timeout waited).1
  have nonneg := not_lt.mp negative
  have word := TwosComplement.fits_le endTime.2
  by_cases fits : SocketFits endTime.1 clock wall
  swap
  · refine iff_of_false (not_meets ?_) fun condition => fits (condition nonneg)
    rw [result, socketCheck_eq, privateDeadline_overflow nonneg fits]
    rfl
  refine iff_of_true ?_ fun _ => fits
  have lasts : (socket endTime clock wall endings).duration =
      some (if endTime.1 = 0 then 0 else max 0 (endTime.1 - wallTime wall) * 1000) :=
    if_neg negative
  have ends : (socket endTime clock wall endings).start +
      (if endTime.1 = 0 then 0 else max 0 (endTime.1 - wallTime wall) * 1000) =
        socketLimit endTime.1 clock wall := rfl
  rw [meets_iff rfl lasts ends, result, socketCheck_eq]
  obtain ⟨limits, refuses⟩ := privateDeadline_fits nonneg word fits
  by_cases limited : SocketLimited endTime.1 clock wall
  · rw [(limits limited).2, Option.bind_some]
    exact ⟨_, rfl, fun time waited => (transportLoop_timeout waited).2⟩
  · obtain ⟨status, refused⟩ := refuses limited
    rw [refused, Option.bind_some]
    exact ⟨.failed, rfl, nofun⟩

/-- All numbers of a wait fit and its timeout is not early exactly when its deadline fits the signed
word of the memory transport or is not waited for, its clocks do, and no wait about a statement is
stopped between the limit of its socket check and its deadline. -/
theorem meets_iff_fits (wait : TimedWait) : wait.Meets ↔ wait.Fits := by
  cases wait with
  | call timeout clock rounds => exact call_meets timeout clock rounds
  | statement interval clock round => exact statement_meets interval clock round
  | socket endTime clock wall endings => exact socket_meets endTime clock wall endings

end TimedWait

/-- A timeout of ten million million milliseconds is accepted at a clock of one second, and its
deadline does not fit. -/
theorem accepted_timeout_overflows :
    ∃ timeout : Signed 64, ∃ clock : Option ClockReading, ∃ rounds : List WaitRound,
      timeout.1 = 10000000000000 ∧ clockTime clock = 1000000000 ∧
      deadlineFromTimeout timeout.1 clock = some (.ok 10000000001000000000) ∧
      ¬(TimedWait.call timeout clock rounds).Meets := by
  let reading : ClockReading := ⟨1, 0, by decide, by decide⟩
  have fits : MonotonicFits (some reading) := ⟨by decide, by decide⟩
  refine ⟨⟨10000000000000, by decide⟩, some reading, [⟨some reading, .signal⟩], rfl, rfl, ?_, ?_⟩
  · rw [deadlineFromTimeout_eq (by decide) fits]
    decide
  · rw [TimedWait.call_meets]
    intro condition
    have rounds := (condition (by decide) (by decide)).2 (by decide) (by decide)
    exact absurd (rounds.2 (by decide)).1 (by decide)

end Postgamma.Embedded
