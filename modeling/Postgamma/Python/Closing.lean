import Mathlib

/-!
# Closing a COPY and its request

`Request.close`, `_CopyBase.close` and `_CopyBase.abort` of `_stream.py` with `_cleanup_preserving`
of `_api.py`, for a request and the COPY stream that is attached to it.  The native layer answers
its calls in order from an oracle, and a depth bounds the nesting of Python calls.
-/

namespace Postgamma
namespace Python

variable {ε : Type}

/-- What a call raises: an `InterfaceError`, or the error of a native call.  An attempt to close the
COPY whose remaining time is no native timeout fails in the same way. -/
inductive Raised (ε : Type)
  | interface
  | failed (error : ε)

/-- `Request`, as far as closing it goes. -/
structure RequestFlags where
  handle : Bool
  closed : Bool
  ownsGate : Bool
  deriving DecidableEq

/-- `CopyIn` and `CopyOut`, as far as closing them goes. -/
structure CopyFlags where
  handle : Bool
  closed : Bool
  deriving DecidableEq

/-- A request with its COPY. -/
structure Exchange where
  request : RequestFlags
  copy : CopyFlags
  /-- How often the connection's request gate was released since the request took it. -/
  releases : ℕ
  /-- How many native calls were made. -/
  calls : ℕ
  deriving DecidableEq

namespace Exchange

/-- The state behind one more native call. -/
def called (exchange : Exchange) : Exchange := { exchange with calls := exchange.calls + 1 }

/-- The last part of `Request.close`. -/
def retired (exchange : Exchange) : Exchange :=
  { exchange with
    request := { handle := false, closed := true, ownsGate := false }
    releases := if exchange.request.ownsGate then exchange.releases + 1 else exchange.releases }

/-- `Request.close` behind the closing of the COPY. -/
def retire (native : ℕ → Except ε Unit) (exchange : Exchange) :
    Except (Raised ε) Unit × Exchange :=
  if exchange.request.handle then
    match native exchange.calls with
    | .error error => (.error (.failed error), exchange.called)
    | .ok () => (.ok (), exchange.called.retired)
  else (.ok (), exchange.retired)

def releaseCopy (native : ℕ → Except ε Unit) (exchange : Exchange) :
    Except (Raised ε) Unit × Exchange :=
  if exchange.copy.closed ∨ ¬exchange.copy.handle then (.error .interface, exchange)
  else
    match native exchange.calls with
    | .error error => (.error (.failed error), exchange.called)
    | .ok () => (.ok (), { exchange.called with copy := { handle := false, closed := true } })

/-- `_cleanup_preserving`: an error of the cleanup is only raised when there is no other one. -/
def preserving (primary : Except (Raised ε) Unit) :
    Option (Except (Raised ε) Unit × Exchange) → Option (Except (Raised ε) Unit × Exchange)
  | none => none
  | some (cleanup, after) =>
      match primary with
      | .error error => some (.error error, after)
      | .ok () => some (cleanup, after)

mutual

/-- `Request.close`. -/
def requestClose (native : ℕ → Except ε Unit) :
    ℕ → Exchange → Option (Except (Raised ε) Unit × Exchange)
  | 0, _ => none
  | depth + 1, exchange =>
      if exchange.request.closed then some (.ok (), exchange)
      else if exchange.copy.closed then some (exchange.retire native)
      else
        match copyClose native depth exchange with
        | none => none
        | some (.error error, after) => some (.error error, after)
        | some (.ok (), after) =>
            if after.request.closed then some (.ok (), after) else some (after.retire native)

/-- `_CopyBase.close`. -/
def copyClose (native : ℕ → Except ε Unit) :
    ℕ → Exchange → Option (Except (Raised ε) Unit × Exchange)
  | 0, _ => none
  | depth + 1, exchange =>
      if exchange.copy.closed then
        if exchange.request.closed then some (.ok (), exchange)
        else requestClose native depth exchange
      else
        let (primary, released) := exchange.releaseCopy native
        preserving primary (requestClose native depth released)

end

/-- The part of `_CopyBase.abort` in front of its cleanup. -/
def abortCopy (native : ℕ → Except ε Unit) (exchange : Exchange) :
    Except (Raised ε) Unit × Exchange :=
  match native exchange.calls with
  | .error error => (.error (.failed error), exchange.called)
  | .ok () => exchange.called.releaseCopy native

/-- `_CopyBase.abort`. -/
def copyAbort (native : ℕ → Except ε Unit) :
    ℕ → Exchange → Option (Except (Raised ε) Unit × Exchange)
  | 0, _ => none
  | depth + 1, exchange =>
      if exchange.copy.closed then some (.ok (), exchange)
      else
        let (primary, aborted) := exchange.abortCopy native
        preserving primary (requestClose native depth aborted)

end Exchange

/-- A call of the application. -/
inductive ClosingCall
  | requestClose
  | copyClose
  | copyAbort
  deriving DecidableEq

namespace Exchange

/-- A call with a bound for the nesting. -/
def perform (native : ℕ → Except ε Unit) :
    ClosingCall → ℕ → Exchange → Option (Except (Raised ε) Unit × Exchange)
  | .requestClose => requestClose native
  | .copyClose => copyClose native
  | .copyAbort => copyAbort native

/-- The states of a request with its COPY: the handles go with the flags, the request has its gate
until it is closed, and the COPY is closed first. -/
structure Consistent (exchange : Exchange) : Prop where
  copy : exchange.copy.handle = !exchange.copy.closed
  request : exchange.request.handle = !exchange.request.closed
  gate : exchange.request.ownsGate = !exchange.request.closed
  releases : exchange.releases = if exchange.request.closed then 1 else 0
  first : exchange.request.closed = true → exchange.copy.closed = true

/-- What holds when a call ends: behind a normal return both are closed and the gate was released
once, and behind an error the gate is held exactly when the request is not closed. -/
def Settled : Except (Raised ε) Unit → Exchange → Prop
  | .ok (), after =>
      after.copy.closed = true ∧ after.request.closed = true ∧ after.releases = 1
  | .error _, after => after.releases ≤ 1 ∧ (after.releases = 0 ↔ after.request.closed = false)

/-- A call ends as it should with at most `bound` native calls. -/
def Ends (native : ℕ → Except ε Unit) (call : ClosingCall) (exchange : Exchange) (bound : ℕ) :
    Prop :=
  ∃ depth result after, perform native call depth exchange = some (result, after) ∧
    after.calls ≤ exchange.calls + bound ∧ Settled result after

/-- The number of the native call that first tries to close the COPY. -/
def firstTry (exchange : Exchange) : ClosingCall → ℕ
  | .copyAbort => exchange.calls + 1
  | _ => exchange.calls

/-- The conditions for a call to end with a fixed number of native calls, for all answers of the
native layer: it does not fail to close an open COPY arbitrarily often in a row, and a COPY that is
closed while its request is open is not aborted. -/
structure Endable (natives : Set (ℕ → Except ε Unit)) (call : ClosingCall) (exchange : Exchange) :
    Prop where
  succeeds : exchange.copy.closed = false → ∃ bound, ∀ native ∈ natives, ∃ tries < bound,
    native (exchange.firstTry call + tries) = .ok ()
  aborts : call = .copyAbort → exchange.copy.closed = true → exchange.request.closed = true

variable {native : ℕ → Except ε Unit} {exchange after : Exchange} {depth tries : ℕ}
  {result : Except (Raised ε) Unit}

theorem Consistent.called (consistent : exchange.Consistent) : exchange.called.Consistent :=
  ⟨consistent.copy, consistent.request, consistent.gate, consistent.releases, consistent.first⟩

theorem Consistent.request_open (consistent : exchange.Consistent)
    (opened : exchange.copy.closed = false) : exchange.request.closed = false := by
  by_contra closed
  rw [consistent.first (by simpa using closed)] at opened
  cases opened

theorem Consistent.settled (consistent : after.Consistent)
    (normal : result = .ok () → after.request.closed = true) : Settled result after := by
  have releases := consistent.releases
  cases result with
  | ok done =>
      have closed := normal rfl
      exact ⟨consistent.first closed, closed, by rw [releases, if_pos closed]⟩
  | error error =>
      cases closed : after.request.closed with
      | true => simp [Settled, releases, closed]
      | false => simp [Settled, releases, closed]

/-- The state behind a native call that closed the COPY. -/
def copyReleased (exchange : Exchange) : Exchange :=
  { exchange.called with copy := { handle := false, closed := true } }

theorem Consistent.copyReleased (consistent : exchange.Consistent) :
    exchange.copyReleased.Consistent :=
  ⟨rfl, consistent.request, consistent.gate, consistent.releases, fun _ => rfl⟩

theorem releaseCopy_ok (consistent : exchange.Consistent)
    (opened : exchange.copy.closed = false) (succeeds : native exchange.calls = .ok ()) :
    exchange.releaseCopy native = (.ok (), exchange.copyReleased) := by
  rw [releaseCopy, if_neg (by simp [consistent.copy, opened]), succeeds]
  rfl

theorem releaseCopy_error {error : ε} (consistent : exchange.Consistent)
    (opened : exchange.copy.closed = false) (fails : native exchange.calls = .error error) :
    exchange.releaseCopy native = (.error (.failed error), exchange.called) := by
  rw [releaseCopy, if_neg (by simp [consistent.copy, opened]), fails]

/-- How a call on an open COPY ends: the native layer closed the COPY in the last of `tries`
attempts, and then one more call was made for the request. -/
structure EndsBehind (native : ℕ → Except ε Unit) (start tries : ℕ)
    (result : Except (Raised ε) Unit) (after : Exchange) : Prop where
  succeeds : native (start + tries) = .ok ()
  failed : ∀ earlier < tries, native (start + earlier) ≠ .ok ()
  consistent : after.Consistent
  copy_closed : after.copy.closed = true
  calls : after.calls = start + tries + 2
  normal : result = .ok () → after.request.closed = true

/-- One attempt to close the request of a closed COPY. -/
theorem retire_ends (consistent : exchange.Consistent) (closed : exchange.copy.closed = true)
    (opened : exchange.request.closed = false) :
    (exchange.retire native).2.Consistent ∧ (exchange.retire native).2.copy.closed = true ∧
      (exchange.retire native).2.calls = exchange.calls + 1 ∧
      ((exchange.retire native).1 = .ok () →
        (exchange.retire native).2.request.closed = true) := by
  have owns : exchange.request.ownsGate = true := by simp [consistent.gate, opened]
  have handle : exchange.request.handle = true := by simp [consistent.request, opened]
  rw [retire, if_pos handle]
  cases native exchange.calls with
  | error error => exact ⟨consistent.called, closed, rfl, by simp⟩
  | ok done =>
      refine ⟨⟨consistent.copy, rfl, rfl, ?_, fun _ => closed⟩, closed, rfl, fun _ => rfl⟩
      have held := consistent.releases
      rw [opened] at held
      simp [retired, Exchange.called, owns, held]

theorem requestClose_released (consistent : exchange.Consistent)
    (opened : exchange.copy.closed = false) (succeeds : native exchange.calls = .ok ()) :
    ∃ result after, requestClose native (depth + 1) exchange.copyReleased = some (result, after) ∧
      EndsBehind native exchange.calls 0 result after := by
  have requestOpen : exchange.copyReleased.request.closed = false :=
    consistent.request_open opened
  obtain ⟨kept, closed, calls, normal⟩ :=
    @retire_ends ε native _ consistent.copyReleased rfl requestOpen
  refine ⟨_, _, ?_, succeeds, fun _ impossible => absurd impossible (Nat.not_lt_zero _), kept,
    closed, calls, normal⟩
  rw [requestClose, if_neg (by simp [requestOpen])]
  exact if_pos rfl

/-- A failed attempt is one attempt more. -/
theorem EndsBehind.later {start : ℕ} (ends : EndsBehind native (start + 1) tries result after)
    (failed : native start ≠ .ok ()) {other : Except (Raised ε) Unit}
    (normal : other = .ok () → after.request.closed = true) :
    EndsBehind native start (tries + 1) other after where
  succeeds := by
    rw [← ends.succeeds, Nat.add_right_comm, Nat.add_assoc]
  failed := by
    intro earlier below
    cases earlier with
    | zero => exact failed
    | succ earlier =>
        have before := ends.failed earlier (by omega)
        rwa [Nat.add_right_comm] at before
  consistent := ends.consistent
  copy_closed := ends.copy_closed
  calls := by rw [ends.calls]; omega
  normal := normal

@[simp]
theorem preserving_ok (cleanup : Option (Except (Raised ε) Unit × Exchange)) :
    preserving (.ok ()) cleanup = cleanup := by
  cases cleanup <;> rfl

theorem copyClose_ok (consistent : exchange.Consistent) (opened : exchange.copy.closed = false)
    (succeeds : native exchange.calls = .ok ()) :
    copyClose native (depth + 1) exchange =
      requestClose native depth exchange.copyReleased := by
  rw [copyClose, if_neg (by simp [opened]), releaseCopy_ok consistent opened succeeds]
  exact preserving_ok _

theorem copyClose_error {error : ε} (consistent : exchange.Consistent)
    (opened : exchange.copy.closed = false) (fails : native exchange.calls = .error error) :
    copyClose native (depth + 1) exchange =
      preserving (.error (.failed error)) (requestClose native depth exchange.called) := by
  rw [copyClose, if_neg (by simp [opened]), releaseCopy_error consistent opened fails]

theorem requestClose_open (consistent : exchange.Consistent)
    (opened : exchange.copy.closed = false)
    (ends : copyClose native depth exchange = some (result, after))
    (normal : result = .ok () → after.request.closed = true) :
    requestClose native (depth + 1) exchange = some (result, after) := by
  rw [requestClose, if_neg (by simp [consistent.request_open opened]), if_neg (by simp [opened]),
    ends]
  cases result with
  | error error => rfl
  | ok done => simp [normal rfl]

theorem requestClose_open_inv (consistent : exchange.Consistent)
    (opened : exchange.copy.closed = false)
    (done : requestClose native depth exchange = some (result, after)) :
    ∃ less other behind, depth = less + 1 ∧
      copyClose native less exchange = some (other, behind) ∧
      ((other = .ok () → behind.request.closed = true) → other = result ∧ behind = after) := by
  cases depth with
  | zero => cases done
  | succ less =>
      rw [requestClose, if_neg (by simp [consistent.request_open opened]),
        if_neg (by simp [opened])] at done
      cases found : copyClose native less exchange with
      | none =>
          rw [found] at done
          cases done
      | some pair =>
          obtain ⟨other, behind⟩ := pair
          rw [found] at done
          refine ⟨less, other, behind, rfl, found, fun normal => ?_⟩
          cases other with
          | error error =>
              cases done
              exact ⟨rfl, rfl⟩
          | ok ended =>
              simp only [normal rfl, if_true] at done
              cases done
              exact ⟨rfl, rfl⟩

/-- Closing an open COPY ends only behind a successful attempt of the native layer. -/
theorem copyClose_inv (consistent : exchange.Consistent) (opened : exchange.copy.closed = false)
    (done : copyClose native depth exchange = some (result, after)) :
    ∃ tries, EndsBehind native exchange.calls tries result after := by
  induction depth using Nat.strong_induction_on generalizing exchange result after with
  | _ depth induction =>
      cases depth with
      | zero => cases done
      | succ depth =>
          cases answer : native exchange.calls with
          | ok succeeded =>
              rw [copyClose_ok consistent opened answer] at done
              cases depth with
              | zero => cases done
              | succ depth =>
                  obtain ⟨other, behind, same, ends⟩ :=
                    @requestClose_released ε native exchange depth consistent opened answer
                  rw [same] at done
                  cases done
                  exact ⟨0, ends⟩
          | error error =>
              rw [copyClose_error consistent opened answer] at done
              cases nested : requestClose native depth exchange.called with
              | none =>
                  rw [nested] at done
                  cases done
              | some pair =>
                  obtain ⟨inner, behind⟩ := pair
                  rw [nested] at done
                  cases done
                  obtain ⟨less, other, state, rfl, found, same⟩ :=
                    requestClose_open_inv consistent.called opened nested
                  obtain ⟨tries, ends⟩ :=
                    induction less (by omega) consistent.called opened found
                  obtain ⟨rfl, rfl⟩ := same ends.normal
                  exact ⟨tries + 1, ends.later (by simp [answer]) (by simp)⟩

theorem copyClose_ends (consistent : exchange.Consistent) (opened : exchange.copy.closed = false)
    (succeeds : native (exchange.calls + tries) = .ok ()) :
    ∃ depth result after, copyClose native depth exchange = some (result, after) := by
  induction tries generalizing exchange with
  | zero =>
      obtain ⟨result, after, same, -⟩ :=
        @requestClose_released ε native exchange 0 consistent opened succeeds
      exact ⟨2, result, after, by rw [copyClose_ok consistent opened succeeds, same]⟩
  | succ tries induction =>
      cases answer : native exchange.calls with
      | ok done =>
          obtain ⟨result, after, same, -⟩ :=
            @requestClose_released ε native exchange 0 consistent opened answer
          exact ⟨2, result, after, by rw [copyClose_ok consistent opened answer, same]⟩
      | error error =>
          have later : native (exchange.called.calls + tries) = .ok () := by
            rw [← succeeds]
            congr 1
            simp only [Exchange.called]
            omega
          obtain ⟨depth, result, after, found⟩ := induction consistent.called opened later
          obtain ⟨count, ends⟩ := copyClose_inv consistent.called opened found
          refine ⟨depth + 2, .error (.failed error), after, ?_⟩
          rw [copyClose_error consistent opened answer,
            requestClose_open consistent.called opened found ends.normal]
          rfl

theorem requestClose_inv (consistent : exchange.Consistent) (opened : exchange.copy.closed = false)
    (done : requestClose native depth exchange = some (result, after)) :
    ∃ tries, EndsBehind native exchange.calls tries result after := by
  obtain ⟨less, other, behind, rfl, found, same⟩ := requestClose_open_inv consistent opened done
  obtain ⟨tries, ends⟩ := copyClose_inv consistent opened found
  obtain ⟨rfl, rfl⟩ := same ends.normal
  exact ⟨tries, ends⟩

theorem requestClose_ends (consistent : exchange.Consistent)
    (opened : exchange.copy.closed = false)
    (succeeds : native (exchange.calls + tries) = .ok ()) :
    ∃ depth result after, requestClose native depth exchange = some (result, after) := by
  obtain ⟨depth, result, after, found⟩ := copyClose_ends consistent opened succeeds
  obtain ⟨count, ends⟩ := copyClose_inv consistent opened found
  exact ⟨depth + 1, result, after, requestClose_open consistent opened found ends.normal⟩

/-- What the part in front of the cleanup of `abort` comes to: with `tries` failed attempts to
close the COPY it is still open, or it is closed. -/
theorem abortCopy_cases (native : ℕ → Except ε Unit) (consistent : exchange.Consistent)
    (opened : exchange.copy.closed = false) :
    (∃ error, exchange.abortCopy native = (.error error, exchange.called)) ∨
    (∃ error, native (exchange.calls + 1) ≠ .ok () ∧
      exchange.abortCopy native = (.error error, exchange.called.called)) ∨
    (native (exchange.calls + 1) = .ok () ∧
      exchange.abortCopy native = (.ok (), exchange.called.copyReleased)) := by
  rw [abortCopy]
  cases native exchange.calls with
  | error error => exact .inl ⟨_, rfl⟩
  | ok aborted =>
      cases answer : native (exchange.calls + 1) with
      | error error =>
          exact .inr (.inl ⟨_, by simp, releaseCopy_error consistent.called opened answer⟩)
      | ok released => exact .inr (.inr ⟨rfl, releaseCopy_ok consistent.called opened answer⟩)

theorem copyAbort_open (opened : exchange.copy.closed = false) :
    copyAbort native (depth + 1) exchange =
      preserving (exchange.abortCopy native).1
        (requestClose native depth (exchange.abortCopy native).2) := by
  rw [copyAbort, if_neg (by simp [opened])]

theorem preserving_error {error : Raised ε} {cleanup : Option (Except (Raised ε) Unit × Exchange)}
    (done : preserving (.error error) cleanup = some (result, after)) :
    result = .error error ∧ ∃ inner, cleanup = some (inner, after) := by
  cases cleanup with
  | none => cases done
  | some pair =>
      cases done
      exact ⟨rfl, pair.1, rfl⟩

theorem copyAbort_inv (consistent : exchange.Consistent) (opened : exchange.copy.closed = false)
    (done : copyAbort native depth exchange = some (result, after)) :
    ∃ tries, EndsBehind native (exchange.calls + 1) tries result after := by
  cases depth with
  | zero => cases done
  | succ depth =>
      rw [copyAbort_open opened] at done
      obtain ⟨error, same⟩ | ⟨error, failed, same⟩ | ⟨succeeds, same⟩ :=
        abortCopy_cases native consistent opened
      · rw [same] at done
        obtain ⟨rfl, inner, nested⟩ := preserving_error done
        obtain ⟨tries, ends⟩ := requestClose_inv consistent.called opened nested
        exact ⟨tries, { ends with normal := by simp }⟩
      · rw [same] at done
        obtain ⟨rfl, inner, nested⟩ := preserving_error done
        obtain ⟨tries, ends⟩ := requestClose_inv consistent.called.called opened nested
        exact ⟨tries + 1, ends.later failed (by simp)⟩
      · rw [same, preserving_ok] at done
        cases depth with
        | zero => cases done
        | succ depth =>
            obtain ⟨other, behind, closing, ends⟩ :=
              @requestClose_released ε native _ depth consistent.called opened succeeds
            rw [closing] at done
            cases done
            exact ⟨0, ends⟩

theorem copyAbort_ends (consistent : exchange.Consistent) (opened : exchange.copy.closed = false)
    (succeeds : native (exchange.calls + 1 + tries) = .ok ()) :
    ∃ depth result after, copyAbort native depth exchange = some (result, after) := by
  obtain ⟨error, same⟩ | ⟨error, failed, same⟩ | ⟨first, same⟩ :=
    abortCopy_cases native consistent opened
  · obtain ⟨depth, result, after, found⟩ := requestClose_ends consistent.called opened succeeds
    refine ⟨depth + 1, .error error, after, ?_⟩
    rw [copyAbort_open opened, same, found]
    rfl
  · cases tries with
    | zero => exact absurd succeeds failed
    | succ tries =>
        have later : native (exchange.called.called.calls + tries) = .ok () := by
          rw [← succeeds, ← Nat.add_assoc, Nat.add_right_comm]
          rfl
        obtain ⟨depth, result, after, found⟩ :=
          requestClose_ends consistent.called.called opened later
        refine ⟨depth + 1, .error error, after, ?_⟩
        rw [copyAbort_open opened, same, found]
        rfl
  · obtain ⟨result, after, closing, -⟩ :=
      @requestClose_released ε native _ 0 consistent.called opened first
    refine ⟨2, result, after, ?_⟩
    rw [copyAbort_open opened, same, preserving_ok, closing]

theorem perform_inv {call : ClosingCall} (consistent : exchange.Consistent)
    (opened : exchange.copy.closed = false)
    (done : perform native call depth exchange = some (result, after)) :
    ∃ tries, EndsBehind native (exchange.firstTry call) tries result after := by
  cases call with
  | requestClose => exact requestClose_inv consistent opened done
  | copyClose => exact copyClose_inv consistent opened done
  | copyAbort => exact copyAbort_inv consistent opened done

theorem perform_ends {call : ClosingCall} (consistent : exchange.Consistent)
    (opened : exchange.copy.closed = false)
    (succeeds : native (exchange.firstTry call + tries) = .ok ()) :
    ∃ depth result after, perform native call depth exchange = some (result, after) := by
  cases call with
  | requestClose => exact requestClose_ends consistent opened succeeds
  | copyClose => exact copyClose_ends consistent opened succeeds
  | copyAbort => exact copyAbort_ends consistent opened succeeds

/-! ## Calls on a closed COPY -/

/-- A call on a closed COPY that closes the request makes at most one native call. -/
theorem requestClose_closed (native : ℕ → Except ε Unit) (consistent : exchange.Consistent)
    (closed : exchange.copy.closed = true) :
    ∃ result after, requestClose native 1 exchange = some (result, after) ∧
      after.calls ≤ exchange.calls + 1 ∧ after.Consistent ∧
      (result = .ok () → after.request.closed = true) := by
  cases opened : exchange.request.closed with
  | true =>
      exact ⟨.ok (), exchange, by simp [requestClose, opened], by omega, consistent,
        fun _ => opened⟩
  | false =>
      obtain ⟨kept, -, calls, normal⟩ := @retire_ends ε native _ consistent closed opened
      exact ⟨_, _, by simp [requestClose, opened, closed], calls.le, kept, normal⟩

theorem closed_ends (native : ℕ → Except ε Unit) {call : ClosingCall}
    (consistent : exchange.Consistent) (closed : exchange.copy.closed = true)
    (aborts : call = .copyAbort → exchange.request.closed = true) :
    Ends native call exchange 1 := by
  obtain ⟨result, after, done, calls, kept, normal⟩ :=
    requestClose_closed native consistent closed
  cases call with
  | requestClose => exact ⟨1, result, after, done, calls, kept.settled normal⟩
  | copyClose =>
      cases opened : exchange.request.closed with
      | true =>
          exact ⟨1, .ok (), exchange, by simp [perform, copyClose, closed, opened], by omega,
            consistent.settled fun _ => opened⟩
      | false =>
          refine ⟨2, result, after, ?_, calls, kept.settled normal⟩
          rw [perform, copyClose, if_pos closed, if_neg (by simp [opened]), done]
  | copyAbort =>
      exact ⟨1, .ok (), exchange, by simp [perform, copyAbort, closed], by omega,
        consistent.settled fun _ => aborts rfl⟩

/-- A call ends as it should, with a number of native calls that all answers of the native layer
share, exactly when the native layer does not fail to close an open COPY arbitrarily often in a row
and no closed COPY with an open request is aborted. -/
theorem closing_ends (natives : Set (ℕ → Except ε Unit)) (some_ : natives.Nonempty)
    (call : ClosingCall) {exchange : Exchange} (consistent : exchange.Consistent) :
    (∃ bound, ∀ native ∈ natives, Ends native call exchange bound) ↔
      Endable natives call exchange := by
  obtain ⟨sample, member⟩ := some_
  constructor
  · rintro ⟨bound, ends⟩
    refine ⟨fun opened => ⟨bound + 1, fun native possible => ?_⟩, ?_⟩
    · obtain ⟨depth, result, after, done, calls, -⟩ := ends native possible
      obtain ⟨tries, behind⟩ := perform_inv consistent opened done
      refine ⟨tries, ?_, behind.succeeds⟩
      have made := behind.calls
      have start : exchange.calls ≤ exchange.firstTry call := by cases call <;> simp [firstTry]
      omega
    · rintro rfl closed
      obtain ⟨depth, result, after, done, -, settled⟩ := ends sample member
      cases depth with
      | zero => cases done
      | succ depth =>
          rw [perform, copyAbort, if_pos closed] at done
          cases done
          exact settled.2.1
  · intro endable
    cases closed : exchange.copy.closed with
    | true =>
        exact ⟨1, fun native _ => closed_ends native consistent closed fun aborts =>
          endable.aborts aborts closed⟩
    | false =>
        obtain ⟨bound, succeeds⟩ := endable.succeeds closed
        refine ⟨bound + 2, fun native possible => ?_⟩
        obtain ⟨success, below, answer⟩ := succeeds native possible
        obtain ⟨depth, result, after, done⟩ := perform_ends consistent closed answer
        obtain ⟨tries, behind⟩ := perform_inv consistent closed done
        refine ⟨depth, result, after, done, ?_, behind.consistent.settled behind.normal⟩
        have first : tries ≤ success := by
          by_contra later
          exact behind.failed success (by omega) answer
        have made := behind.calls
        have start : exchange.firstTry call ≤ exchange.calls + 1 := by
          cases call <;> simp [firstTry]
        omega

/-- A request with an open COPY. -/
def opened : Exchange := ⟨⟨true, false, true⟩, ⟨true, false⟩, 0, 0⟩

theorem opened_consistent : opened.Consistent := ⟨rfl, rfl, rfl, rfl, by simp [opened]⟩

/-- The native layer that closes the COPY in the first attempt. -/
theorem closing_ends_once :
    ∃ bound, ∀ native ∈ {native : ℕ → Except ℕ Unit | native 0 = .ok ()},
      Ends native .requestClose opened bound :=
  (closing_ends {native | native 0 = .ok ()} ⟨fun _ => .ok (), rfl⟩ .requestClose
    opened_consistent).mpr
      ⟨fun _ => ⟨1, fun _ succeeds => ⟨0, Nat.one_pos, succeeds⟩⟩, by simp⟩

/-- When the native layer keeps failing to close the COPY, closing its request never ends. -/
theorem closing_never_ends :
    ¬∃ bound, ∀ native : ℕ → Except ℕ Unit, Ends native .requestClose opened bound := by
  rintro ⟨bound, ends⟩
  obtain ⟨depth, result, after, done, -⟩ := ends fun _ => .error 0
  obtain ⟨tries, behind⟩ := perform_inv opened_consistent rfl done
  exact absurd behind.succeeds (by simp)

end Exchange
end Python
end Postgamma
