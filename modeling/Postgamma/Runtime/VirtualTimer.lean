import Mathlib
import Postgamma.Library.TwosComplement

/-!
# The virtual interval timer

The timer of one session in `virtual_signal.c`.  Its times are signed words of 64 bits that count
microseconds, and a signed operation that overflows has no result.
-/

namespace Postgamma.Runtime

open TwosComplement (Fits Signed checked checked_fits checked_overflow)

def int64Max : ℤ := TwosComplement.most 64

def usecsPerSec : ℤ := 1000000

def itimerReal : ℤ := 0

/-- `struct timeval`. -/
structure TimeValue where
  sec : ℤ
  usec : ℤ
  deriving DecidableEq

/-- `struct itimerval`. -/
structure IntervalValue where
  value : TimeValue
  interval : TimeValue
  deriving DecidableEq

/-- The errors of `postgamma_virtual_timer_set`. -/
inductive TimerError
  | invalid
  | overflow
  deriving DecidableEq

/-- `PostgammaVirtualTimer`. -/
structure VirtualTimer where
  timeoutDueAt : ℤ
  timeoutIntervalUs : ℤ
  timeoutArmed : Bool
  timeoutWaitShortened : Bool
  deriving DecidableEq

/-- What the build decides: `LONG_MAX`, and whether it is for Emscripten. -/
structure Platform where
  longMax : ℤ
  emscripten : Bool
  longMax_nonneg : 0 ≤ longMax

namespace TimeValue

/-- A value that the checks of `postgamma_virtual_timer_set` let through. -/
def Accepted (time : TimeValue) : Prop :=
  0 ≤ time.sec ∧ 0 ≤ time.usec ∧ time.usec < usecsPerSec ∧
    time.sec ≤ (int64Max - time.usec).tdiv usecsPerSec

instance (time : TimeValue) : Decidable time.Accepted :=
  inferInstanceAs (Decidable (_ ∧ _))

def micros (time : TimeValue) : Option ℤ := do
  let whole ← checked 64 (time.sec * usecsPerSec)
  checked 64 (whole + time.usec)

end TimeValue

namespace VirtualTimer

/-- A timer in zeroed memory. -/
def zero : VirtualTimer := ⟨0, 0, false, false⟩

/-- The timer that nothing is due for. -/
def disarmed (timer : VirtualTimer) : VirtualTimer :=
  { timer with timeoutArmed := false, timeoutDueAt := 0 }

/-- What `postgamma_virtual_timer_set` stores in `old_value`. -/
def oldValue (timer : VirtualTimer) (now : ℤ) : Option IntervalValue := do
  let remainingUs ←
    if timer.timeoutArmed ∧ now < timer.timeoutDueAt then checked 64 (timer.timeoutDueAt - now)
    else some 0
  return {
    value := ⟨remainingUs.tdiv usecsPerSec, remainingUs.tmod usecsPerSec⟩
    interval :=
      ⟨timer.timeoutIntervalUs.tdiv usecsPerSec, timer.timeoutIntervalUs.tmod usecsPerSec⟩ }

/-- The value that is stored, when a place for it is given. -/
def stored (timer : VirtualTimer) (wanted : Bool) (now : ℤ) : Option (Option IntervalValue) :=
  if wanted then (timer.oldValue now).map some else some none

/-- The status, the stored `old_value` and the timer behind `postgamma_virtual_timer_set`. -/
structure SetResult where
  status : Except TimerError Unit
  old : Option IntervalValue
  timer : VirtualTimer

/-- `postgamma_virtual_timer_set`; `wanted` tells that `old_value` is not `NULL`. -/
def set (timer : VirtualTimer) (which : ℤ) (newValue : Option IntervalValue) (wanted : Bool)
    (now : ℤ) : Option SetResult :=
  match newValue with
  | none => some ⟨.error .invalid, none, timer⟩
  | some new =>
      if which ≠ itimerReal ∨ ¬new.value.Accepted ∨ ¬new.interval.Accepted then
        some ⟨.error .invalid, none, timer⟩
      else do
        let old ← timer.stored wanted now
        let valueUs ← new.value.micros
        let intervalUs ← new.interval.micros
        if valueUs = 0 then return ⟨.ok (), old, ⟨0, intervalUs, false, false⟩⟩
        else
          let latest ← checked 64 (int64Max - valueUs)
          if latest < now then return ⟨.error .overflow, old, timer⟩
          else
            let dueAt ← checked 64 (now + valueUs)
            return ⟨.ok (), old, ⟨dueAt, intervalUs, true, false⟩⟩

/-- The milliseconds to the due time, rounded up. -/
def remainingMs (platform : Platform) (timer : VirtualTimer) (now : ℤ) : ℤ :=
  let remaining :=
    if timer.timeoutDueAt ≤ now then 0
    else
      -- The difference is taken in `uint64_t`.
      let remainingUs := (timer.timeoutDueAt - now) % 2 ^ 64
      remainingUs / 1000 + if remainingUs % 1000 = 0 then 0 else 1
  let clamped := if platform.longMax < remaining then platform.longMax else remaining
  if platform.emscripten ∧ 1000 < clamped then 1000 else clamped

/-- `postgamma_virtual_timer_adjust_wait`. -/
def adjustWait (platform : Platform) (timer : VirtualTimer) (requested now : ℤ) :
    ℤ × VirtualTimer :=
  if ¬timer.timeoutArmed then (requested, { timer with timeoutWaitShortened := false })
  else
    let remaining := timer.remainingMs platform now
    if requested < 0 ∨ remaining < requested then
      (remaining, { timer with timeoutWaitShortened := true })
    else (requested, { timer with timeoutWaitShortened := false })

/-- `postgamma_virtual_timer_wait_expired`. -/
def waitExpired (timer : VirtualTimer) (waitResult : ℤ) : Bool × VirtualTimer :=
  (waitResult = -1 && timer.timeoutWaitShortened, { timer with timeoutWaitShortened := false })

/-- `postgamma_virtual_timer_due`. -/
def due (timer : VirtualTimer) (now : ℤ) : Option (Bool × VirtualTimer) :=
  if ¬timer.timeoutArmed then some (false, timer)
  else if now < timer.timeoutDueAt then some (false, timer)
  else if timer.timeoutIntervalUs ≤ 0 then some (true, timer.disarmed)
  else do
    let elapsed ← checked 64 (now - timer.timeoutDueAt)
    let periods ← checked 64 (elapsed.tdiv timer.timeoutIntervalUs + 1)
    let room ← checked 64 (int64Max - timer.timeoutDueAt)
    if room.tdiv timer.timeoutIntervalUs < periods then return (true, timer.disarmed)
    else
      let ahead ← checked 64 (periods * timer.timeoutIntervalUs)
      let dueAt ← checked 64 (timer.timeoutDueAt + ahead)
      return (true, { timer with timeoutDueAt := dueAt })

end VirtualTimer

/-- A call for a timer. -/
inductive TimerCall
  | set (which : ℤ) (newValue : Option IntervalValue) (wanted : Bool) (now : Signed 64)
  | adjustWait (requested : ℤ) (now : Signed 64)
  | waitExpired (waitResult : ℤ)
  | due (now : Signed 64)

namespace VirtualTimer

/-- The timer behind a call. -/
def after (platform : Platform) (timer : VirtualTimer) : TimerCall → Option VirtualTimer
  | .set which newValue wanted now =>
      (timer.set which newValue wanted now).map SetResult.timer
  | .adjustWait requested now => some (timer.adjustWait platform requested now).2
  | .waitExpired waitResult => some (timer.waitExpired waitResult).2
  | .due now => (timer.due now).map Prod.snd

/-- The times of a periodic timer that are later than `now`. -/
def Later (timer : VirtualTimer) (now : ℤ) : Set ℤ :=
  { time | now < time ∧ ∃ count : ℕ, time = timer.timeoutDueAt + count * timer.timeoutIntervalUs }

/-- A call does what it is for, and no signed operation in it overflows. -/
def Correct (platform : Platform) (timer : VirtualTimer) : TimerCall → Prop
  | .set which newValue wanted now =>
      ∃ result, timer.set which newValue wanted now = some result ∧
        ∀ error, result.status = .error error → result.timer = timer
  | .adjustWait requested now =>
      let wait := (timer.adjustWait platform requested now).1
      (0 ≤ requested → wait ≤ requested) ∧
        -- Zero milliseconds are no wait, and a negative number waits without an end.
        (timer.timeoutArmed → 0 ≤ wait ∧
          (0 < wait → now.1 + 1000 * wait ≤ timer.timeoutDueAt + 1000))
  | .waitExpired _ => True
  | .due now =>
      ∃ fired next, timer.due now = some (fired, next) ∧
        (fired = true ↔ timer.timeoutArmed = true ∧ timer.timeoutDueAt ≤ now) ∧
        (fired = false → next = timer) ∧
        (fired = true → timer.timeoutIntervalUs = 0 → next.timeoutArmed = false) ∧
        (fired = true → 0 < timer.timeoutIntervalUs →
          next.timeoutArmed = true ∧ IsLeast (timer.Later now) next.timeoutDueAt ∨
            next.timeoutArmed = false ∧ ∀ time ∈ timer.Later now, int64Max < time)

/-- Every call of a run is correct. -/
def Behaves (platform : Platform) : VirtualTimer → List TimerCall → Prop
  | _, [] => True
  | timer, call :: rest =>
      timer.Correct platform call ∧
        ∀ next, timer.after platform call = some next → Behaves platform next rest

/-- The calls that stay clear of the ends of the range: a remaining time that is reported is a
signed word, and a periodic timer that fires is not due before the epoch, nor at the epoch with the
shortest interval while the clock is at its end. -/
def Clear (timer : VirtualTimer) : TimerCall → Prop
  | .set which newValue wanted now =>
      ∀ new, newValue = some new → which = itimerReal → new.value.Accepted →
        new.interval.Accepted → wanted = true → timer.timeoutArmed = true →
        timer.timeoutDueAt - now ≤ int64Max
  | .adjustWait _ _ => True
  | .waitExpired _ => True
  | .due now =>
      timer.timeoutArmed = true → timer.timeoutDueAt ≤ now → 0 < timer.timeoutIntervalUs →
        0 ≤ timer.timeoutDueAt ∧
          ¬(timer.timeoutDueAt = 0 ∧ timer.timeoutIntervalUs = 1 ∧ now.1 = int64Max)

/-- Every call of a run stays clear of the ends of the range. -/
def StaysClear (platform : Platform) : VirtualTimer → List TimerCall → Prop
  | _, [] => True
  | timer, call :: rest =>
      timer.Clear call ∧
        ∀ next, timer.after platform call = some next → StaysClear platform next rest

/-- What the calls keep. -/
structure Sound (timer : VirtualTimer) : Prop where
  dueAt_fits : Fits 64 timer.timeoutDueAt
  interval_nonneg : 0 ≤ timer.timeoutIntervalUs

theorem zero_sound : zero.Sound := ⟨by decide, le_rfl⟩

theorem int64Max_eq : int64Max = 9223372036854775807 := by
  norm_num [int64Max, TwosComplement.most]

theorem fits_iff {number : ℤ} : Fits 64 number ↔ -int64Max - 1 ≤ number ∧ number ≤ int64Max := by
  rw [int64Max_eq, Fits]
  norm_num
  omega

theorem checked_eq {number : ℤ} (least : -int64Max - 1 ≤ number) (most : number ≤ int64Max) :
    checked 64 number = some number :=
  checked_fits (fits_iff.mpr ⟨least, most⟩)

theorem accepted_micros {time : TimeValue} (accepted : time.Accepted) :
    ∃ micros, time.micros = some micros ∧ 0 ≤ micros ∧ micros ≤ int64Max := by
  obtain ⟨sec, usec, less, whole⟩ := accepted
  have room : 0 ≤ int64Max - time.usec := by
    rw [int64Max_eq]
    rw [usecsPerSec] at less
    omega
  rw [Int.tdiv_eq_ediv_of_nonneg room, Int.le_ediv_iff_mul_le (by decide)] at whole
  have nonneg : 0 ≤ time.sec * usecsPerSec := mul_nonneg sec (by decide)
  have first : checked 64 (time.sec * usecsPerSec) = some (time.sec * usecsPerSec) :=
    checked_eq (by rw [int64Max_eq]; omega) (by omega)
  have second := @checked_eq (time.sec * usecsPerSec + time.usec)
    (by rw [int64Max_eq]; omega) (by omega)
  refine ⟨time.sec * usecsPerSec + time.usec, ?_, by omega, by omega⟩
  rw [TimeValue.micros, first, Option.bind_eq_bind, Option.bind_some, second]

variable {timer : VirtualTimer}

/-- A remaining time is reported unless it is no signed word. -/
theorem oldValue_isSome (sound : timer.Sound) (now : Signed 64) :
    (timer.oldValue now).isSome = true ↔
      (timer.timeoutArmed = true → timer.timeoutDueAt - now ≤ int64Max) := by
  rw [oldValue]
  have dueAt := fits_iff.mp sound.dueAt_fits
  have clock := fits_iff.mp now.2
  have wide : 0 ≤ int64Max := by decide
  split_ifs with later
  · by_cases small : timer.timeoutDueAt - now ≤ int64Max
    · rw [checked_eq (by omega) small]
      simp [small]
    · rw [checked_overflow (not_le.mp small)]
      simp [later.1, small]
  · suffices timer.timeoutArmed = true → timer.timeoutDueAt - now ≤ int64Max by simpa
    intro armed
    have reached := not_lt.mp fun earlier => later ⟨armed, earlier⟩
    omega

/-- Values that are accepted leave only the reported remaining time to overflow. -/
theorem set_accepted (timer : VirtualTimer) {new : IntervalValue} (value : new.value.Accepted)
    (interval : new.interval.Accepted) (wanted : Bool) (now : Signed 64) :
    ∃ status next, (∀ error, status = .error error → next = timer) ∧
      (timer.Sound → next.Sound) ∧
      timer.set itimerReal (some new) wanted now =
        (timer.stored wanted now).map (SetResult.mk status · next) := by
  obtain ⟨valueUs, valueEq, valueNonneg, valueMost⟩ := accepted_micros value
  obtain ⟨intervalUs, intervalEq, intervalNonneg, -⟩ := accepted_micros interval
  have clock := fits_iff.mp now.2
  have latest : checked 64 (int64Max - valueUs) = some (int64Max - valueUs) :=
    checked_eq (by omega) (by omega)
  have refused : ¬(itimerReal ≠ itimerReal ∨ ¬new.value.Accepted ∨ ¬new.interval.Accepted) := by
    simp [value, interval]
  simp only [set, if_neg refused, valueEq, intervalEq, latest, Option.bind_eq_bind,
    Option.bind_some, Option.pure_def]
  by_cases stopped : valueUs = 0
  · refine ⟨.ok (), ⟨0, intervalUs, false, false⟩, by simp,
      fun _ => ⟨zero_sound.dueAt_fits, intervalNonneg⟩, ?_⟩
    simp only [if_pos stopped]
    cases timer.stored wanted now <;> rfl
  · by_cases late : int64Max - valueUs < now
    · refine ⟨.error .overflow, timer, fun _ _ => rfl, id, ?_⟩
      simp only [if_neg stopped, if_pos late]
      cases timer.stored wanted now <;> rfl
    · have dueAt : checked 64 (now + valueUs) = some (now.1 + valueUs) :=
        checked_eq (by omega) (by omega)
      refine ⟨.ok (), ⟨now + valueUs, intervalUs, true, false⟩, by simp,
        fun _ => ⟨fits_iff.mpr ⟨by simp only; omega, by simp only; omega⟩, intervalNonneg⟩, ?_⟩
      simp only [if_neg stopped, if_neg late, dueAt]
      cases timer.stored wanted now <;> rfl

/-- Anything else is refused, and the timer stays. -/
theorem set_refused (timer : VirtualTimer) {which : ℤ} {newValue : Option IntervalValue}
    (wanted : Bool) (now : ℤ)
    (other : ∀ new, newValue = some new → which = itimerReal → new.value.Accepted →
      ¬new.interval.Accepted) :
    timer.set which newValue wanted now = some ⟨.error .invalid, none, timer⟩ := by
  cases newValue with
  | none => rfl
  | some new =>
      refine if_pos ?_
      by_contra accepted
      simp only [not_or, not_not] at accepted
      exact other new rfl accepted.1 accepted.2.1 accepted.2.2

theorem set_correct (platform : Platform) (sound : timer.Sound) (which : ℤ)
    (newValue : Option IntervalValue) (wanted : Bool) (now : Signed 64) :
    timer.Correct platform (.set which newValue wanted now) ↔
      timer.Clear (.set which newValue wanted now) := by
  by_cases accepted : ∃ new, newValue = some new ∧ which = itimerReal ∧ new.value.Accepted ∧
      new.interval.Accepted
  · obtain ⟨new, rfl, rfl, value, interval⟩ := accepted
    obtain ⟨status, next, kept, -, same⟩ := timer.set_accepted value interval wanted now
    have reported := oldValue_isSome sound now
    simp only [Correct, Clear, same, stored]
    cases wanted with
    | false => simpa using kept
    | true =>
        cases old : timer.oldValue now with
        | none =>
            rw [old] at reported
            simpa [value, interval] using reported
        | some stored =>
            rw [old] at reported
            exact iff_of_true ⟨⟨status, some stored, next⟩, rfl, kept⟩
              fun _ _ _ _ _ _ => reported.mp rfl
  · have other : ∀ new, newValue = some new → which = itimerReal → new.value.Accepted →
        ¬new.interval.Accepted := fun new given real value interval =>
      accepted ⟨new, given, real, value, interval⟩
    simp only [Correct, Clear, timer.set_refused wanted now other]
    exact iff_of_true ⟨_, rfl, fun _ _ => rfl⟩
      fun new given real value interval => absurd interval (other new given real value)

/-- The first time of a periodic timer that is later than `now`. -/
theorem later_least {now : ℤ} (reached : timer.timeoutDueAt ≤ now)
    (periodic : 0 < timer.timeoutIntervalUs) :
    IsLeast (timer.Later now) (timer.timeoutDueAt +
      ((now - timer.timeoutDueAt) / timer.timeoutIntervalUs + 1) * timer.timeoutIntervalUs) := by
  have nonneg : 0 ≤ (now - timer.timeoutDueAt) / timer.timeoutIntervalUs :=
    Int.ediv_nonneg (by omega) periodic.le
  constructor
  · have above := Int.lt_ediv_add_one_mul_self (now - timer.timeoutDueAt) periodic
    refine ⟨by omega, ((now - timer.timeoutDueAt) / timer.timeoutIntervalUs + 1).toNat, ?_⟩
    rw [Int.toNat_of_nonneg (by omega)]
  · rintro time ⟨later, count, rfl⟩
    have missed : (now - timer.timeoutDueAt) / timer.timeoutIntervalUs < count :=
      Int.ediv_lt_of_lt_mul periodic (by omega)
    gcongr
    omega

/-- A periodic timer that fires is due again at the first later time, if that is a signed word. -/
theorem due_periodic (sound : timer.Sound) (now : Signed 64)
    (armed : timer.timeoutArmed = true) (reached : timer.timeoutDueAt ≤ now)
    (periodic : 0 < timer.timeoutIntervalUs) (clear : timer.Clear (.due now)) :
    ∃ next, timer.due now = some (true, next) ∧ next.Sound ∧
      (next.timeoutArmed = true ∧ IsLeast (timer.Later now) next.timeoutDueAt ∨
        next.timeoutArmed = false ∧ ∀ time ∈ timer.Later now, int64Max < time) := by
  obtain ⟨epoch, corner⟩ := clear armed reached periodic
  have clock := fits_iff.mp now.2
  have dueAt := fits_iff.mp sound.dueAt_fits
  have wide : (0 : ℤ) ≤ int64Max := by decide
  have least := later_least reached periodic
  have quotientNonneg : 0 ≤ (now.1 - timer.timeoutDueAt) / timer.timeoutIntervalUs :=
    Int.ediv_nonneg (by omega) periodic.le
  have quotientMost : (now.1 - timer.timeoutDueAt) / timer.timeoutIntervalUs + 1 ≤ int64Max := by
    by_cases unit : timer.timeoutIntervalUs = 1
    · rw [unit, Int.ediv_one]
      by_contra large
      exact corner ⟨by omega, unit, by omega⟩
    · have whole := Int.ediv_mul_le (now.1 - timer.timeoutDueAt) periodic.ne'
      have doubled : (now.1 - timer.timeoutDueAt) / timer.timeoutIntervalUs * 2 ≤
          (now.1 - timer.timeoutDueAt) / timer.timeoutIntervalUs * timer.timeoutIntervalUs :=
        mul_le_mul_of_nonneg_left (by omega) quotientNonneg
      rw [int64Max_eq] at clock ⊢
      omega
  have elapsed : checked 64 (now.1 - timer.timeoutDueAt) = some (now.1 - timer.timeoutDueAt) :=
    checked_eq (by omega) (by omega)
  have room : checked 64 (int64Max - timer.timeoutDueAt) = some (int64Max - timer.timeoutDueAt) :=
    checked_eq (by omega) (by omega)
  have periods := @checked_eq ((now.1 - timer.timeoutDueAt) / timer.timeoutIntervalUs + 1)
    (by omega) quotientMost
  rw [due, if_neg (by simp [armed]), if_neg (by omega), if_neg (by omega), elapsed]
  simp only [Option.bind_eq_bind, Option.bind_some,
    Int.tdiv_eq_ediv_of_nonneg (sub_nonneg.mpr reached),
    Int.tdiv_eq_ediv_of_nonneg (sub_nonneg.mpr dueAt.2), periods, room,
    Int.ediv_lt_iff_lt_mul periodic]
  split_ifs with last
  · refine ⟨timer.disarmed, rfl, ⟨zero_sound.dueAt_fits, sound.interval_nonneg⟩,
      .inr ⟨rfl, fun time later => ?_⟩⟩
    have first := least.2 later
    omega
  · have ahead := @checked_eq (((now.1 - timer.timeoutDueAt) / timer.timeoutIntervalUs + 1) *
      timer.timeoutIntervalUs) (by nlinarith) (by omega)
    have next := @checked_eq (timer.timeoutDueAt +
      ((now.1 - timer.timeoutDueAt) / timer.timeoutIntervalUs + 1) * timer.timeoutIntervalUs)
      (by nlinarith) (by omega)
    simp only [ahead, Option.bind_some, next]
    exact ⟨_, rfl, ⟨fits_iff.mpr ⟨by nlinarith, by simp only; omega⟩, sound.interval_nonneg⟩,
      .inl ⟨armed, least⟩⟩

/-- A periodic timer outside of the clear range fires with an overflow. -/
theorem due_overflows (now : Signed 64)
    (armed : timer.timeoutArmed = true) (reached : timer.timeoutDueAt ≤ now)
    (periodic : 0 < timer.timeoutIntervalUs)
    (near : ¬(0 ≤ timer.timeoutDueAt ∧
      ¬(timer.timeoutDueAt = 0 ∧ timer.timeoutIntervalUs = 1 ∧ now.1 = int64Max))) :
    timer.due now = none := by
  rw [due, if_neg (by simp [armed]), if_neg (by omega), if_neg (by omega)]
  by_cases epoch : 0 ≤ timer.timeoutDueAt
  · have corner : timer.timeoutDueAt = 0 ∧ timer.timeoutIntervalUs = 1 ∧ now.1 = int64Max := by
      by_contra other
      exact near ⟨epoch, other⟩
    have elapsed : checked 64 (int64Max - 0) = some int64Max := by decide
    have periods : checked 64 (int64Max.tdiv 1 + 1) = none := by decide
    rw [corner.1, corner.2.1, corner.2.2, elapsed, Option.bind_eq_bind, Option.bind_some, periods]
    rfl
  · have room : checked 64 (int64Max - timer.timeoutDueAt) = none :=
      checked_overflow (show int64Max < _ by omega)
    rw [room]
    cases checked 64 (now.1 - timer.timeoutDueAt) with
    | none => rfl
    | some elapsed =>
        simp only [Option.bind_eq_bind, Option.bind_some]
        cases checked 64 (elapsed.tdiv timer.timeoutIntervalUs + 1) <;> rfl

theorem due_correct (platform : Platform) (sound : timer.Sound)
    (now : Signed 64) : timer.Correct platform (.due now) ↔ timer.Clear (.due now) := by
  by_cases fires : timer.timeoutArmed = true ∧ timer.timeoutDueAt ≤ now
  · obtain ⟨armed, reached⟩ := fires
    by_cases periodic : 0 < timer.timeoutIntervalUs
    · constructor
      · rintro ⟨fired, next, done, -⟩ - - -
        by_contra near
        rw [due_overflows now armed reached periodic near] at done
        cases done
      · intro clear
        obtain ⟨next, done, -, spec⟩ := due_periodic sound now armed reached periodic clear
        exact ⟨true, next, done, by simp [armed, reached], by simp, by omega, fun _ _ => spec⟩
    · refine iff_of_true ⟨true, timer.disarmed, ?_, by simp [armed, reached], by simp,
        fun _ _ => rfl, fun _ other => absurd other periodic⟩ fun _ _ other =>
          absurd other periodic
      rw [due, if_neg (by simp [armed]), if_neg (by omega), if_pos (by omega)]
  · have quiet : timer.due now = some (false, timer) := by
      by_cases armed : timer.timeoutArmed = true
      · have early : now.1 < timer.timeoutDueAt :=
          not_le.mp fun reached => fires ⟨armed, reached⟩
        rw [due, if_neg (not_not.mpr armed), if_pos early]
      · rw [due, if_pos armed]
    exact iff_of_true ⟨false, timer, quiet, by simpa using fires, fun _ => rfl, by simp, by simp⟩
      fun armed reached => absurd ⟨armed, reached⟩ fires

/-- The wait of an armed timer ends less than a millisecond behind the due time. -/
theorem remainingMs_bounds (platform : Platform) (timer : VirtualTimer) {now : Signed 64}
    (fits : Fits 64 timer.timeoutDueAt) :
    0 ≤ timer.remainingMs platform now ∧
      (0 < timer.remainingMs platform now →
        now.1 + 1000 * timer.remainingMs platform now < timer.timeoutDueAt + 1000) := by
  have dueAt := fits_iff.mp fits
  have clock := fits_iff.mp now.2
  rw [int64Max_eq] at dueAt clock
  have long := platform.longMax_nonneg
  by_cases reached : timer.timeoutDueAt ≤ now
  · simp only [remainingMs, if_pos reached]
    split_ifs <;> omega
  · have same : (timer.timeoutDueAt - now.1) % 2 ^ 64 = timer.timeoutDueAt - now.1 :=
      Int.emod_eq_of_lt (by omega) (by omega)
    simp only [remainingMs, if_neg reached, same]
    split_ifs <;> omega

theorem adjustWait_correct (platform : Platform) (sound : timer.Sound)
    (requested : ℤ) (now : Signed 64) :
    timer.Correct platform (.adjustWait requested now) := by
  obtain ⟨nonneg, bounded⟩ := @remainingMs_bounds platform timer now sound.dueAt_fits
  by_cases armed : timer.timeoutArmed = true
  · simp only [Correct, adjustWait, if_neg (not_not.mpr armed)]
    split_ifs with shortened
    · exact ⟨fun _ => by simp only; omega, fun _ => ⟨nonneg, fun some => (bounded some).le⟩⟩
    · refine ⟨fun _ => le_rfl, fun _ => ⟨by simp only; omega, fun some => ?_⟩⟩
      have below := bounded (by simp only at some; omega)
      simp only
      omega
  · simp only [Correct, adjustWait, if_pos armed]
    exact ⟨fun _ => le_rfl, fun other => absurd other armed⟩

/-! ## Runs -/

theorem correct_iff_clear (platform : Platform) (sound : timer.Sound)
    (call : TimerCall) : timer.Correct platform call ↔ timer.Clear call := by
  cases call with
  | set which newValue wanted now => exact set_correct platform sound which newValue wanted now
  | adjustWait requested now =>
      exact iff_of_true (adjustWait_correct platform sound requested now) trivial
  | waitExpired waitResult => exact Iff.rfl
  | due now => exact due_correct platform sound now

theorem due_sound {timer next : VirtualTimer} {now : Signed 64} {fired : Bool}
    (sound : timer.Sound) (done : timer.due now = some (fired, next)) : next.Sound := by
  by_cases periodic : timer.timeoutArmed = true ∧ timer.timeoutDueAt ≤ now ∧
      0 < timer.timeoutIntervalUs
  · obtain ⟨armed, reached, interval⟩ := periodic
    by_cases clear : timer.Clear (.due now)
    · obtain ⟨other, same, kept, -⟩ := due_periodic sound now armed reached interval clear
      rw [done] at same
      cases same
      exact kept
    · rw [due_overflows now armed reached interval fun near => clear fun _ _ _ => near] at done
      cases done
  · rw [due] at done
    split_ifs at done with armed early oneShot
    · cases done
      exact sound
    · cases done
      exact ⟨zero_sound.dueAt_fits, sound.interval_nonneg⟩
    · exact absurd ⟨by simpa using armed, by omega, by omega⟩ periodic
    · cases done
      exact sound

theorem after_sound {platform : Platform} {timer next : VirtualTimer} {call : TimerCall}
    (sound : timer.Sound) (done : timer.after platform call = some next) : next.Sound := by
  cases call with
  | set which newValue wanted now =>
      by_cases accepted : ∃ new, newValue = some new ∧ which = itimerReal ∧ new.value.Accepted ∧
          new.interval.Accepted
      · obtain ⟨new, rfl, rfl, value, interval⟩ := accepted
        obtain ⟨status, behind, -, kept, same⟩ := timer.set_accepted value interval wanted now
        simp only [after, same, Option.map_map, Option.map_eq_some_iff, Function.comp_apply]
          at done
        obtain ⟨stored, -, rfl⟩ := done
        exact kept sound
      · rw [after, timer.set_refused wanted now fun new given real value interval =>
          accepted ⟨new, given, real, value, interval⟩] at done
        cases done
        exact sound
  | adjustWait requested now =>
      obtain rfl := Option.some.inj done
      simp only [adjustWait]
      split_ifs <;> exact ⟨sound.dueAt_fits, sound.interval_nonneg⟩
  | waitExpired waitResult =>
      obtain rfl := Option.some.inj done
      exact ⟨sound.dueAt_fits, sound.interval_nonneg⟩
  | due now =>
      obtain ⟨⟨fired, behind⟩, same, rfl⟩ := Option.map_eq_some_iff.mp done
      exact due_sound sound same

theorem behaves_iff_staysClear (platform : Platform) (sound : timer.Sound)
    (calls : List TimerCall) : timer.Behaves platform calls ↔ timer.StaysClear platform calls := by
  induction calls generalizing timer with
  | nil => exact Iff.rfl
  | cons call rest induction =>
      rw [Behaves, StaysClear, correct_iff_clear platform sound]
      exact and_congr_right fun _ => forall₂_congr fun next done =>
        induction (after_sound sound done)

/-- A timer does what it is for in exactly the runs that stay clear of the ends of the range. -/
theorem timer_behaves (platform : Platform) (calls : List TimerCall) :
    zero.Behaves platform calls ↔ zero.StaysClear platform calls :=
  behaves_iff_staysClear platform zero_sound calls

/-- A periodic timer that is armed before the epoch overflows when it fires. -/
theorem timer_before_epoch :
    ¬∀ (platform : Platform) (calls : List TimerCall), zero.Behaves platform calls := by
  intro behaves
  have behaved := behaves ⟨int64Max, false, by decide⟩
    [.set itimerReal (some ⟨⟨0, 1⟩, ⟨0, 1⟩⟩) false ⟨-2, by decide⟩, .due ⟨-1, by decide⟩]
  obtain ⟨fired, next, fires, -⟩ := (behaved.2 ⟨-1, 1, true, false⟩ (by decide)).1
  have overflow : due ⟨-1, 1, true, false⟩ (-1) = none := by decide
  exact absurd (fires.symm.trans overflow) (by simp)

end VirtualTimer
end Postgamma.Runtime
