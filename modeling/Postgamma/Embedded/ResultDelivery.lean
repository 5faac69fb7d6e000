import Mathlib
import Postgamma.Embedded.PublicApi

/-!
# Results of a request and waits that time out

`pgm_request_wait` of `postgamma.c` and `pgm_request_next_result` of `postgamma_protocol.c` move the
results of a request from the private operation into a slot of the request, and from there to the
caller.  A turn is one answer of the private operation with what comes of the wait behind it.  A call
takes the turns that it asks for in their order; one that uses them up has not returned.
-/

namespace Postgamma.Embedded
namespace Delivery

variable {ρ : Type}

/-- `PostgammaPrivateOwnedResult`; `failure` says that the status is one of an error, and then that
the code is `57014`. -/
structure OwnedResult (ρ : Type) where
  kind : ResultKind
  failure : Option Bool
  content : ρ

/-- An error object that a request keeps. -/
inductive KeptError (ρ : Type)
  | ofResult (status : OperationStatus) (result : OwnedResult ρ)
  | plain (status : OperationStatus)

/-- What `postgamma_private_libpq_operation_progress` answers; `wrapped` says that there is memory
for `wrap_result`, and `described` that a description can be taken. -/
inductive OperationAnswer (ρ : Type)
  | waiting
  /-- An error without completion. -/
  | refused (status : OperationStatus)
  | ready (result : OwnedResult ρ) (wrapped : Bool)
  | complete (status : OperationStatus) (described : Bool)

/-- What `postgamma_private_libpq_operation_wait` returns. -/
inductive OperationWait
  | woken
  | timedOut
  | failed (status : OperationStatus)

/-- An answer, whether the clock has come to a deadline behind it, and the wait that may follow. -/
structure Turn (ρ : Type) where
  answer : OperationAnswer ρ
  late : Bool
  wait : OperationWait

/-- What the calls do not write in a request. -/
structure Shape where
  mode : RequestMode
  chunked : Bool
  /-- `active_copy` is there. -/
  copying : Bool
  cancelRequested : Bool

/-- `pgm_request` with the flag of its lease, its statement and the mark of its connection. -/
structure Request (ρ : Type) where
  state : RequestState
  operationStatus : OperationStatus
  result : Option (OwnedResult ρ)
  resultCount : ℕ
  sawPostgresError : Bool
  sawCancelError : Bool
  error : Option (KeptError ρ)
  /-- `result_lease->outstanding`. -/
  outstanding : Bool
  described : Bool
  remoteClosed : Bool
  aborted : Bool

/-- What becomes of the timeout of a call: it is refused, it has no deadline in the words of the
clock, it is zero, or it is waited for. -/
inductive Allowance
  | invalid
  | overflow
  | zero
  | bounded
  | unbounded
  deriving DecidableEq

/-- What a call answers. -/
inductive Answer (ρ : Type)
  | invalidArgument
  | unsupported
  | busy
  | internalError
  | timeout
  /-- `PGM_AVAILABILITY_AGAIN`. -/
  | again
  /-- The wait for the backend failed. -/
  | interrupted (status : OperationStatus)
  | progressed (state : RequestState)
  /-- The request could not progress. -/
  | refused (status : OperationStatus)
  /-- The lease of the request has an outstanding result. -/
  | untransferable
  /-- The end of a wait. -/
  | finished (status : OperationStatus) (result : Option (OwnedResult ρ))
      (error : Option (KeptError ρ))
  /-- `PGM_AVAILABILITY_READY`. -/
  | delivered (result : OwnedResult ρ) (error : Option (KeptError ρ))
  /-- `PGM_AVAILABILITY_END`. -/
  | ended (status : OperationStatus) (error : Option (KeptError ρ))
  | freed

/-- A call on the request; `wanted` and `wantsError` say that the caller takes the result and the
error. -/
inductive Call
  | wait (allowance : Allowance) (wanted wantsError : Bool)
  | progress
  | nextResult (allowance : Allowance) (wantsError : Bool)
  /-- `pgm_result_free` for the outstanding result. -/
  | freeResult

/-- What a call leaves behind; the answer is missing if the call has not returned. -/
structure Outcome (ρ : Type) where
  request : Request ρ
  answer : Option (Answer ρ)
  turns : List (Turn ρ)

def OperationAnswer.refusal : OperationAnswer ρ → Option OperationStatus
  | .refused status => some status
  | _ => none

namespace Request

/-- The state is not a last one. -/
def active (request : Request ρ) : Bool := !request.state.terminal

/-- The private operation is asked. -/
def polls (request : Request ρ) : Bool := request.active && request.result.isNone

/-- `PGM_REQUEST_RUNNING`. -/
def started (request : Request ρ) : Request ρ := { request with state := .running }

/-- A result comes into the slot of the request. -/
def receive (request : Request ρ) (result : OwnedResult ρ) : Request ρ :=
  let request :=
    { request with result := some result, resultCount := request.resultCount + 1 }
  match result.failure with
  | none => request
  | some canceled =>
      { request with
        sawCancelError := canceled
        sawPostgresError := !canceled
        error :=
          if request.error.isSome = true then request.error
          else some (.ofResult (if canceled = true then .canceled else .postgresError) result) }

/-- The result could not be wrapped. -/
def exhaust (request : Request ρ) : Request ρ :=
  { request with
    operationStatus := .outOfMemory
    error := some (.plain .outOfMemory)
    state := .failed
    aborted := true }

/-- The status of a complete operation before its description is taken. -/
def completeStatus (request : Request ρ) (shape : Shape) (status : OperationStatus) :
    OperationStatus :=
  if status = .ok then
    if request.sawCancelError = true ∨ shape.cancelRequested = true then .canceled
    else if request.sawPostgresError = true then .postgresError
    else .ok
  else status

/-- The request ends with a status. -/
def settle (request : Request ρ) (shape : Shape) (status : OperationStatus) : Request ρ :=
  { request with
    remoteClosed :=
      if status = .ok ∧ shape.mode = .statementClose then true else request.remoteClosed
    operationStatus := status
    state :=
      if status = .ok then .completed
      else if status = .canceled ∨ shape.cancelRequested = true then .canceled
      else .failed }

/-- The end of `progress_request_locked` behind a complete operation. -/
def complete (request : Request ρ) (shape : Shape) (status : OperationStatus) (described : Bool) :
    Request ρ :=
  let ended := request.completeStatus shape status
  let request :=
    if status = .ok ∨ request.error.isSome = true then request
    else { request with error := some (.plain ended) }
  if ended = .ok ∧ shape.mode = .prepare then
    let request := { request with described := described }
    if described = true then request.settle shape .ok
    else { request with error := some (.plain .internalError) }.settle shape .internalError
  else request.settle shape ended

/-- `progress_request_locked`, and the status of a failure; with an active COPY `copy_pump` is asked
and only its status counts. -/
def progress (request : Request ρ) (shape : Shape) (answer : OperationAnswer ρ) :
    Request ρ × Option OperationStatus :=
  if request.polls = false then (request, none)
  else if shape.copying = true then (request.started, answer.refusal)
  else
    match answer with
    | .waiting => (request.started, none)
    | .refused status => (request.started, some status)
    | .ready result true => (request.started.receive result, none)
    | .ready _ false => (request.started.exhaust, none)
    | .complete status described => (request.started.complete shape status described, none)

/-- The error of the request goes to the caller. -/
def giveError (request : Request ρ) (wanted : Bool) : Request ρ × Option (KeptError ρ) :=
  if wanted = true then ({ request with error := none }, request.error) else (request, none)

/-- What a wait has collected goes back into an empty slot. -/
def putBack (request : Request ρ) (collected : Option (OwnedResult ρ)) : Request ρ :=
  if request.result.isNone = true then { request with result := collected } else request

/-- The outstanding result of the request was freed. -/
def release (request : Request ρ) : Request ρ := { request with outstanding := false }

end Request

/-- What a round of the loop of `pgm_request_wait` comes to behind its progress. -/
inductive Round (ρ : Type)
  | stop (request : Request ρ) (answer : Answer ρ)
  /-- The loop goes on, after a pause if nothing was collected in the round. -/
  | goOn (request : Request ρ) (collected : Option (OwnedResult ρ)) (pause : Bool)

namespace Request

/-- The end of `pgm_request_wait` behind its loop. -/
def waitFinish (request : Request ρ) (wanted wantsError : Bool)
    (collected : Option (OwnedResult ρ)) : Round ρ :=
  let status := request.operationStatus
  if status = .ok ∧ collected.isSome = true ∧ wanted = true then
    if request.outstanding = true then .stop { request with result := collected } .untransferable
    else
      let (request, error) := { request with outstanding := true }.giveError wantsError
      .stop request (.finished status collected error)
  else if status = .ok ∧ collected.isSome = true then
    let (request, error) := { request with result := collected }.giveError wantsError
    .stop request (.finished status none error)
  else
    let (request, error) := request.giveError wantsError
    .stop request (.finished status none error)

/-- A round of the loop of `pgm_request_wait` behind its progress. -/
def waitRound (request : Request ρ) (wanted wantsError : Bool)
    (collected : Option (OwnedResult ρ)) : Round ρ :=
  match request.result with
  | some result =>
      if result.kind.copies = true ∨ result.kind = .chunk then .stop request .unsupported
      else if collected.isSome = true then
        -- The slot is taken, so that what was collected before is freed.
        .stop { request with operationStatus := .internalError, state := .failed, aborted := true }
          .internalError
      else if request.active = true then .goOn { request with result := none } (some result) false
      else { request with result := none }.waitFinish wanted wantsError (some result)
  | none =>
      if request.active = true then .goOn request collected true
      else request.waitFinish wanted wantsError collected

end Request

/-- What ends a call behind a turn that it waits in. -/
def Turn.pause (turn : Turn ρ) (bounded : Bool) : Option (Answer ρ) :=
  if bounded = true ∧ turn.late = true then some .timeout
  else
    match turn.wait with
    | .woken => none
    | .timedOut => some .timeout
    | .failed status => some (.interrupted status)

/-- The loop of `pgm_request_wait` from a round on that asks the private operation. -/
def waitLoop (shape : Shape) (bounded wanted wantsError : Bool) :
    List (Turn ρ) → Request ρ → Option (OwnedResult ρ) → Outcome ρ
  | [], request, _ => { request := request, answer := none, turns := [] }
  | turn :: turns, request, collected =>
      match request.progress shape turn.answer with
      | (request, some _) =>
          { request := request.putBack collected, answer := some .internalError, turns := turns }
      | (request, none) =>
          match request.waitRound wanted wantsError collected with
          | .stop request answer => { request := request, answer := some answer, turns := turns }
          | .goOn request collected false =>
              waitLoop shape bounded wanted wantsError turns request collected
          | .goOn request collected true =>
              match turn.pause bounded with
              | none => waitLoop shape bounded wanted wantsError turns request collected
              | some answer =>
                  { request := request.putBack collected, answer := some answer, turns := turns }

/-- The refusals of `pgm_request_wait`. -/
def waitRefusal (shape : Shape) (allowance : Allowance) (request : Request ρ) :
    Option (Answer ρ) :=
  if allowance = .invalid then some .invalidArgument
  else if shape.mode = .script ∨ shape.chunked = true then some .unsupported
  else if request.outstanding = true then some .busy
  else if allowance = .overflow then some .internalError
  else none

/-- `pgm_request_wait` behind its refusals; a request that holds a result or has ended does not ask
the private operation in the first round. -/
def waitStart (shape : Shape) (bounded wanted wantsError : Bool) (turns : List (Turn ρ))
    (request : Request ρ) : Outcome ρ :=
  if request.polls = true then waitLoop shape bounded wanted wantsError turns request none
  else
    match request.waitRound wanted wantsError none with
    | .stop request answer => { request := request, answer := some answer, turns := turns }
    | .goOn request collected _ =>
        waitLoop shape bounded wanted wantsError turns request collected

/-- `transfer_ready_result_locked`. -/
def Request.transfer (request : Request ρ) (result : OwnedResult ρ) (wantsError : Bool) :
    Request ρ × Answer ρ :=
  if request.outstanding = true then (request, .untransferable)
  else
    let request := { request with outstanding := true, result := none }
    if result.kind = .error then
      let (request, error) := request.giveError wantsError
      (request, .delivered result error)
    else (request, .delivered result none)

/-- What `pgm_request_next_result` answers for a request that has ended. -/
def Request.finalAnswer (request : Request ρ) (wantsError : Bool) : Request ρ × Answer ρ :=
  if request.resultCount = 0 ∧ request.operationStatus ≠ .ok then
    let (request, error) := request.giveError wantsError
    (request, .ended request.operationStatus error)
  else (request, .ended .ok none)

/-- A round of the loop of `pgm_request_next_result` behind its progress, unless it goes on. -/
def Request.nextRound (request : Request ρ) (wantsError : Bool) : Option (Request ρ × Answer ρ) :=
  match request.result with
  | some result => some (request.transfer result wantsError)
  | none => if request.active = true then none else some (request.finalAnswer wantsError)

/-- What ends `pgm_request_next_result` behind a turn without a result. -/
def Turn.nextPause (turn : Turn ρ) (allowance : Allowance) : Option (Answer ρ) :=
  if allowance = .zero then some .again else turn.pause (allowance = .bounded)

/-- The loop of `pgm_request_next_result` from a round on that asks the private operation. -/
def nextLoop (shape : Shape) (allowance : Allowance) (wantsError : Bool) :
    List (Turn ρ) → Request ρ → Outcome ρ
  | [], request => { request := request, answer := none, turns := [] }
  | turn :: turns, request =>
      match request.progress shape turn.answer with
      | (request, some status) =>
          { request := request, answer := some (.refused status), turns := turns }
      | (request, none) =>
          match request.nextRound wantsError with
          | some (request, answer) => { request := request, answer := some answer, turns := turns }
          | none =>
              match turn.nextPause allowance with
              | none => nextLoop shape allowance wantsError turns request
              | some answer => { request := request, answer := some answer, turns := turns }

/-- The refusals of `pgm_request_next_result`. -/
def nextRefusal (allowance : Allowance) (request : Request ρ) : Option (Answer ρ) :=
  if allowance = .invalid then some .invalidArgument
  else if request.outstanding = true then some .busy
  else if allowance = .overflow then some .invalidArgument
  else none

/-- `pgm_request_next_result` behind its refusals. -/
def nextStart (shape : Shape) (allowance : Allowance) (wantsError : Bool) (turns : List (Turn ρ))
    (request : Request ρ) : Outcome ρ :=
  match request.nextRound wantsError with
  | some (request, answer) => { request := request, answer := some answer, turns := turns }
  | none => nextLoop shape allowance wantsError turns request

/-- `pgm_request_progress` for a request that asks the private operation. -/
def progressStart (shape : Shape) (turns : List (Turn ρ)) (request : Request ρ) : Outcome ρ :=
  match turns with
  | [] => { request := request, answer := none, turns := [] }
  | turn :: turns =>
      match request.progress shape turn.answer with
      | (request, some status) =>
          { request := request, answer := some (.refused status), turns := turns }
      | (request, none) =>
          { request := request, answer := some (.progressed request.state), turns := turns }

/-- A call that may be refused before it does anything. -/
def guarded (refusal : Option (Answer ρ)) (request : Request ρ) (turns : List (Turn ρ))
    (start : Outcome ρ) : Outcome ρ :=
  match refusal with
  | some answer => { request := request, answer := some answer, turns := turns }
  | none => start

def call (shape : Shape) (request : Request ρ) (turns : List (Turn ρ)) : Call → Outcome ρ
  | .wait allowance wanted wantsError =>
      guarded (waitRefusal shape allowance request) request turns
        (waitStart shape (allowance ≠ .unbounded) wanted wantsError turns request)
  | .progress =>
      if request.polls = true then progressStart shape turns request
      else { request := request, answer := some (.progressed request.state), turns := turns }
  | .nextResult allowance wantsError =>
      guarded (nextRefusal allowance request) request turns
        (nextStart shape allowance wantsError turns request)
  | .freeResult =>
      { request := request.release, answer := some .freed, turns := turns }

/-- The calls of a caller up to one that does not return, with their answers. -/
def run (shape : Shape) : List Call → Request ρ → List (Turn ρ) → List (Call × Answer ρ)
  | [], _, _ => []
  | next :: calls, request, turns =>
      let outcome := call shape request turns next
      match outcome.answer with
      | none => []
      | some answer => (next, answer) :: run shape calls outcome.request outcome.turns

/-- The answer moves nothing; with an active COPY only an error counts. -/
def OperationAnswer.quiet (copying : Bool) : OperationAnswer ρ → Bool
  | .waiting => true
  | .refused _ => false
  | .ready _ _ => copying
  | .complete _ _ => copying

/-- The turns whose answers move something. -/
def loud (shape : Shape) (turns : List (Turn ρ)) : List (Turn ρ) :=
  turns.filter fun turn => !turn.answer.quiet shape.copying

def Turn.result (turn : Turn ρ) : Option (OwnedResult ρ) :=
  match turn.answer with
  | .ready result _ => some result
  | _ => none

/-- The results that are not handed out yet: the one in the slot and those of the backend. -/
def undelivered (shape : Shape) (request : Request ρ) (turns : List (Turn ρ)) :
    List (OwnedResult ρ) :=
  request.result.toList ++ (loud shape turns).filterMap Turn.result

/-- The call did more than to let the request progress until its time was over. -/
def Answer.settled : Answer ρ → Bool
  | .timeout => false
  | .again => false
  | .interrupted _ => false
  | .progressed _ => false
  | _ => true

def Answer.results : Answer ρ → List (OwnedResult ρ)
  | .finished _ result _ => result.toList
  | .delivered result _ => [result]
  | _ => []

/-- The results that the calls of a run hand to the caller. -/
def handed (exchanges : List (Call × Answer ρ)) : List (OwnedResult ρ) :=
  exchanges.flatMap fun exchange => exchange.2.results

/-- The calls of a run that settled something, with their answers. -/
def settledOf (exchanges : List (Call × Answer ρ)) : List (Call × Answer ρ) :=
  exchanges.filter fun exchange => exchange.2.settled

variable {answer : Answer ρ} {turn : Turn ρ}

theorem results_of_unsettled (unsettled : answer.settled = false) : answer.results = [] := by
  cases answer with
  | finished => cases unsettled
  | delivered => cases unsettled
  | _ => rfl

theorem handed_settledOf (exchanges : List (Call × Answer ρ)) :
    handed (settledOf exchanges) = handed exchanges := by
  induction exchanges with
  | nil => rfl
  | cons exchange exchanges induction =>
      rw [settledOf, List.filter_cons]
      cases settled : exchange.2.settled with
      | true => exact congrArg (exchange.2.results ++ ·) induction
      | false =>
          refine induction.trans ?_
          rw [handed, handed, List.flatMap_cons, results_of_unsettled settled]
          rfl

variable {shape : Shape} {request direct : Request ρ}

theorem polls_iff : request.polls = true ↔ request.active = true ∧ request.result = none := by
  rw [Request.polls, Bool.and_eq_true, Option.isNone_iff_eq_none]

theorem polls_started (polls : request.polls = true) : request.started.polls = true :=
  polls_iff.mpr ⟨rfl, (polls_iff.mp polls).2⟩

theorem progress_quiet (polls : request.polls = true) {answer : OperationAnswer ρ}
    (quiet : answer.quiet shape.copying = true) :
    request.progress shape answer = (request.started, none) := by
  rw [Request.progress.eq_def, if_neg (by simp [polls])]
  cases answer with
  | waiting => exact ite_self _
  | refused => cases quiet
  | ready => exact if_pos quiet
  | complete => exact if_pos quiet

/-- Two requests that only differ in whether an active one has started. -/
def Level (request direct : Request ρ) : Prop :=
  request = direct ∨
    request.active = true ∧ direct.active = true ∧ request.started = direct.started

theorem Level.refl (request : Request ρ) : Level request request := .inl rfl

theorem Level.started (active : request.active = true) (level : Level request direct) :
    Level request.started direct := by
  rcases level with rfl | ⟨_, both, same⟩
  · exact .inr ⟨rfl, active, rfl⟩
  · exact .inr ⟨rfl, both, same⟩

theorem Level.same_result (level : Level request direct) : request.result = direct.result := by
  rcases level with rfl | ⟨_, _, same⟩
  · rfl
  · simpa only [Request.started] using congrArg Request.result same

theorem Level.same_outstanding (level : Level request direct) :
    request.outstanding = direct.outstanding := by
  rcases level with rfl | ⟨_, _, same⟩
  · rfl
  · simpa only [Request.started] using congrArg Request.outstanding same

theorem Level.same_active (level : Level request direct) : request.active = direct.active := by
  rcases level with rfl | ⟨first, second, _⟩
  · rfl
  · rw [first, second]

theorem Level.same_polls (level : Level request direct) : request.polls = direct.polls := by
  rw [Request.polls, Request.polls, level.same_active, level.same_result]

/-- What the private operation answers is the same to both. -/
theorem Level.progress (level : Level request direct) (polls : request.polls = true)
    (answer : OperationAnswer ρ) :
    request.progress shape answer = direct.progress shape answer := by
  rcases level with rfl | ⟨first, second, same⟩
  · rfl
  · have other : direct.polls = true := by
      rw [← Level.same_polls (.inr ⟨first, second, same⟩), polls]
    rw [Request.progress.eq_def, if_neg (show ¬request.polls = false by simp [polls]),
      Request.progress.eq_def, if_neg (show ¬direct.polls = false by simp [other]), same]

theorem Level.replace (level : Level request direct) (result : Option (OwnedResult ρ)) :
    Level { request with result := result } { direct with result := result } := by
  rcases level with rfl | ⟨first, second, same⟩
  · exact .inl rfl
  · exact .inr ⟨first, second, congrArg (fun third => { third with result := result }) same⟩

theorem Level.release (level : Level request direct) : Level request.release direct.release := by
  rcases level with rfl | ⟨first, second, same⟩
  · exact .inl rfl
  · exact .inr ⟨first, second, congrArg Request.release same⟩

theorem Level.eq_of_ended (level : Level request direct) (ended : request.active = false) :
    request = direct := by
  rcases level with rfl | ⟨first, _⟩
  · rfl
  · rw [first] at ended
    cases ended

theorem settle_ended (request : Request ρ) (shape : Shape) (status : OperationStatus) :
    (request.settle shape status).active = false := by
  unfold Request.settle Request.active
  dsimp only
  split_ifs <;> rfl

theorem complete_ended (request : Request ρ) (shape : Shape) (status : OperationStatus)
    (described : Bool) : (request.complete shape status described).active = false := by
  unfold Request.complete
  dsimp only
  split_ifs <;> exact settle_ended _ _ _

theorem receive_result (request : Request ρ) (result : OwnedResult ρ) :
    (request.receive result).result = some result := by
  unfold Request.receive
  dsimp only
  split <;> rfl

/-- Behind an answer that moves something the private operation is not asked at once. -/
theorem progress_loud (polls : request.polls = true) {answer : OperationAnswer ρ}
    (moves : answer.quiet shape.copying = false)
    (fine : (request.progress shape answer).2 = none) :
    (request.progress shape answer).1.polls = false := by
  have asked : ¬request.polls = false := by simp [polls]
  rw [Request.progress.eq_def, if_neg asked] at fine ⊢
  cases answer with
  | waiting => cases moves
  | refused status =>
      split_ifs at fine
      cases fine
  | ready result wrapped =>
      have other : ¬shape.copying = true := by simpa [OperationAnswer.quiet] using moves
      rw [if_neg other]
      cases wrapped with
      | true => simp [Request.polls, receive_result]
      | false => rfl
  | complete status described =>
      have other : ¬shape.copying = true := by simpa [OperationAnswer.quiet] using moves
      rw [if_neg other]
      simp [Request.polls, complete_ended]

/-- A request that is still active behind an answer that moves something holds a result. -/
theorem progress_active (polls : request.polls = true) {answer : OperationAnswer ρ}
    (moves : answer.quiet shape.copying = false)
    (fine : (request.progress shape answer).2 = none)
    (active : (request.progress shape answer).1.active = true) :
    ∃ result, answer = .ready result true ∧
      (request.progress shape answer).1 = request.started.receive result := by
  have asked : ¬request.polls = false := by simp [polls]
  rw [Request.progress.eq_def, if_neg asked] at fine active ⊢
  cases answer with
  | waiting => cases moves
  | refused status =>
      split_ifs at fine
      cases fine
  | ready result wrapped =>
      have other : ¬shape.copying = true := by simpa [OperationAnswer.quiet] using moves
      rw [if_neg other] at active ⊢
      cases wrapped with
      | true => exact ⟨result, rfl, rfl⟩
      | false => cases active
  | complete status described =>
      have other : ¬shape.copying = true := by simpa [OperationAnswer.quiet] using moves
      rw [if_neg other] at active
      cases (complete_ended _ _ _ _).symm.trans active

/-- A result that is taken out of the slot and put back. -/
theorem receive_restore (request : Request ρ) (result : OwnedResult ρ) :
    { ({ request.started.receive result with result := none }).started with
      result := some result } = request.started.receive result := by
  cases failure : result.failure <;> simp [Request.receive, Request.started, failure]

variable {wanted wantsError bounded : Bool} {collected : Option (OwnedResult ρ)}
variable {turns : List (Turn ρ)}

theorem waitRound_polls (polls : request.polls = true) :
    request.waitRound wanted wantsError collected = .goOn request collected true := by
  rw [Request.waitRound, (polls_iff.mp polls).2]
  exact if_pos (polls_iff.mp polls).1

theorem waitFinish_stop (request : Request ρ) (wanted wantsError : Bool)
    (collected : Option (OwnedResult ρ)) :
    ∃ after answer, request.waitFinish wanted wantsError collected = .stop after answer ∧
      answer.settled = true := by
  unfold Request.waitFinish
  dsimp only
  split_ifs <;> exact ⟨_, _, rfl, rfl⟩

/-- A round either ends the wait, finds nothing or collects the first result. -/
theorem waitRound_cases (request : Request ρ) (wanted wantsError : Bool)
    (collected : Option (OwnedResult ρ)) :
    (∃ after answer, request.waitRound wanted wantsError collected = .stop after answer ∧
      answer.settled = true) ∨
    (request.polls = true ∧
      request.waitRound wanted wantsError collected = .goOn request collected true) ∨
    ∃ result, request.active = true ∧ request.result = some result ∧ collected = none ∧
      request.waitRound wanted wantsError collected =
        .goOn { request with result := none } (some result) false := by
  cases found : request.result with
  | none =>
      cases active : request.active with
      | true =>
          have polls : request.polls = true := polls_iff.mpr ⟨active, found⟩
          exact .inr (.inl ⟨polls, waitRound_polls polls⟩)
      | false =>
          left
          rw [Request.waitRound, found]
          simp only [active, Bool.false_eq_true, if_false]
          exact waitFinish_stop _ _ _ _
  | some result =>
      by_cases special : result.kind.copies = true ∨ result.kind = .chunk
      · refine .inl ⟨request, .unsupported, ?_, rfl⟩
        rw [Request.waitRound, found]
        exact if_pos special
      cases collected with
      | some first =>
          left
          rw [Request.waitRound, found]
          simp only [special, Option.isSome_some, if_false, if_true]
          exact ⟨_, _, rfl, rfl⟩
      | none =>
          cases active : request.active with
          | true =>
              refine .inr (.inr ⟨result, rfl, rfl, rfl, ?_⟩)
              rw [Request.waitRound, found]
              exact (if_neg special).trans ((if_neg (by simp)).trans (if_pos active))
          | false =>
              left
              rw [Request.waitRound, found]
              simp only [special, active, Bool.false_eq_true, Option.isSome_none, if_false]
              exact waitFinish_stop _ _ _ _

theorem waitLoop_quiet (polls : request.polls = true)
    (quiet : turn.answer.quiet shape.copying = true) :
    waitLoop shape bounded wanted wantsError (turn :: turns) request collected =
      match turn.pause bounded with
      | none => waitLoop shape bounded wanted wantsError turns request.started collected
      | some answer =>
          { request := request.started.putBack collected, answer := some answer
            turns := turns } := by
  rw [waitLoop, progress_quiet polls quiet]
  dsimp only
  rw [waitRound_polls (polls_started polls)]

theorem loud_quiet (quiet : turn.answer.quiet shape.copying = true) :
    loud shape (turn :: turns) = loud shape turns :=
  List.filter_cons_of_neg (by simp [quiet])

theorem loud_loud (moves : turn.answer.quiet shape.copying = false) :
    loud shape (turn :: turns) = turn :: loud shape turns :=
  List.filter_cons_of_pos (by simp [moves])

theorem pause_unsettled (ends : turn.pause bounded = some answer) : answer.settled = false := by
  unfold Turn.pause at ends
  split at ends
  · cases ends
    rfl
  · split at ends <;> cases ends <;> rfl

/-- A wait that settles something does so without the turns that move nothing. -/
theorem waitLoop_settled (polls : request.polls = true) (level : Level request direct)
    (answered : (waitLoop shape bounded wanted wantsError turns request collected).answer =
      some answer) (settled : answer.settled = true) :
    waitLoop shape bounded wanted wantsError (loud shape turns) direct collected =
      { request := (waitLoop shape bounded wanted wantsError turns request collected).request
        answer := some answer
        turns := loud shape
          (waitLoop shape bounded wanted wantsError turns request collected).turns } := by
  induction turns generalizing request direct collected with
  | nil => cases answered
  | cons turn turns induction =>
      cases quiet : turn.answer.quiet shape.copying with
      | true =>
          rw [waitLoop_quiet polls quiet] at answered ⊢
          rw [loud_quiet quiet]
          cases ends : turn.pause bounded with
          | none =>
              rw [ends] at answered
              exact induction (polls_started polls) (level.started (polls_iff.mp polls).1) answered
          | some other =>
              rw [ends] at answered
              cases answered
              cases (pause_unsettled ends).symm.trans settled
      | false =>
          rw [loud_loud quiet]
          simp only [waitLoop, ← level.progress polls] at answered ⊢
          have resting := progress_loud polls quiet
          generalize request.progress shape turn.answer = moved at answered resting ⊢
          rcases moved with ⟨after, _ | status⟩
          · rcases waitRound_cases after wanted wantsError collected with
              ⟨final, other, same, _⟩ | ⟨again, _⟩ | ⟨result, active, _, _, same⟩
            · simp only [same] at answered ⊢
              rw [answered]
            · rw [resting rfl] at again
              cases again
            · simp only [same] at answered ⊢
              exact induction (polls_iff.mpr ⟨active, rfl⟩) (.refl _) answered
          · simp only at answered ⊢
            rw [answered]

/-- A wait that times out with a result in its hands puts the result back. -/
theorem waitLoop_restores (polls : request.polls = true) {result : OwnedResult ρ}
    (answered : (waitLoop shape bounded wanted wantsError turns request (some result)).answer =
      some answer) (unsettled : answer.settled = false) :
    (waitLoop shape bounded wanted wantsError turns request (some result)).request =
      { request.started with result := some result } ∧
    loud shape (waitLoop shape bounded wanted wantsError turns request (some result)).turns =
      loud shape turns := by
  induction turns generalizing request with
  | nil => cases answered
  | cons turn turns induction =>
      cases quiet : turn.answer.quiet shape.copying with
      | true =>
          rw [waitLoop_quiet polls quiet] at answered ⊢
          rw [loud_quiet quiet]
          cases ends : turn.pause bounded with
          | none =>
              rw [ends] at answered
              exact induction (polls_started polls) answered
          | some other =>
              refine ⟨if_pos ?_, rfl⟩
              exact Option.isNone_iff_eq_none.mpr (polls_iff.mp polls).2
      | false =>
          exfalso
          simp only [waitLoop] at answered
          have resting := progress_loud polls quiet
          generalize request.progress shape turn.answer = moved at answered resting
          rcases moved with ⟨after, _ | status⟩
          · rcases waitRound_cases after wanted wantsError (some result) with
              ⟨final, other, same, settled⟩ | ⟨again, _⟩ | ⟨_, _, _, missing, _⟩
            · simp only [same] at answered
              cases answered
              cases settled.symm.trans unsettled
            · rw [resting rfl] at again
              cases again
            · cases missing
          · cases answered
            cases unsettled

/-- A wait that times out leaves the request as it was, or as a progress to its first result. -/
theorem waitLoop_unsettled (polls : request.polls = true)
    (answered : (waitLoop shape bounded wanted wantsError turns request none).answer = some answer)
    (unsettled : answer.settled = false) :
    ((waitLoop shape bounded wanted wantsError turns request none).request = request.started ∧
      loud shape (waitLoop shape bounded wanted wantsError turns request none).turns =
        loud shape turns) ∨
    ∃ turn result, turn.answer = .ready result true ∧
      turn.answer.quiet shape.copying = false ∧
      (request.progress shape turn.answer).2 = none ∧
      (waitLoop shape bounded wanted wantsError turns request none).request =
        (request.progress shape turn.answer).1 ∧
      (request.progress shape turn.answer).1.result = some result ∧
      loud shape turns =
        turn :: loud shape (waitLoop shape bounded wanted wantsError turns request none).turns := by
  induction turns generalizing request with
  | nil => cases answered
  | cons turn turns induction =>
      cases quiet : turn.answer.quiet shape.copying with
      | true =>
          rw [waitLoop_quiet polls quiet] at answered ⊢
          rw [loud_quiet quiet]
          cases ends : turn.pause bounded with
          | none =>
              rw [ends] at answered
              rcases induction (polls_started polls) answered with same | ⟨turn, result, rest⟩
              · exact .inl same
              · have level := (Level.refl request).started (polls_iff.mp polls).1
                rw [level.progress (polls_started polls)] at rest
                exact .inr ⟨turn, result, rest⟩
          | some other =>
              refine .inl ⟨?_, rfl⟩
              have empty := Option.isNone_iff_eq_none.mpr (polls_iff.mp polls).2
              have held := (polls_iff.mp polls).2
              exact (if_pos empty).trans (by rw [Request.started, held])
      | false =>
          right
          rw [loud_loud quiet]
          have resting := progress_loud polls quiet
          have reading := progress_active polls quiet
          simp only [waitLoop] at answered ⊢
          cases moved : request.progress shape turn.answer with
          | mk after status =>
              rw [moved] at answered resting reading
              cases status with
              | some status =>
                  cases answered
                  cases unsettled
              | none =>
                  rcases waitRound_cases after wanted wantsError none with
                    ⟨final, other, same, settled⟩ | ⟨again, _⟩ | ⟨result, active, found, _, same⟩
                  · simp only [same] at answered
                    cases answered
                    cases settled.symm.trans unsettled
                  · cases (resting rfl).symm.trans again
                  · simp only [same] at answered ⊢
                    have waits : ({ after with result := none } : Request ρ).polls = true :=
                      polls_iff.mpr ⟨active, rfl⟩
                    obtain ⟨restored, rest⟩ := waitLoop_restores waits answered unsettled
                    obtain ⟨given, ready, received⟩ := reading rfl active
                    change after = _ at received
                    obtain rfl : result = given := by
                      rw [received, receive_result] at found
                      exact (Option.some.inj found).symm
                    refine ⟨turn, result, ready, quiet, by rw [moved], ?_, ?_, ?_⟩
                    · rw [restored, moved, received, receive_restore]
                    · rw [moved]
                      exact found
                    · rw [rest]

/-- A first round that does not ask the private operation comes to the same in both requests. -/
theorem waitRound_level (level : Level request direct) (resting : request.polls = false)
    (wanted wantsError : Bool) :
    (∃ after other answer,
      request.waitRound wanted wantsError none = .stop after answer ∧
      direct.waitRound wanted wantsError none = .stop other answer ∧
      Level after other ∧ answer.settled = true) ∨
    ∃ result, request.active = true ∧ request.result = some result ∧
      request.waitRound wanted wantsError none =
        .goOn { request with result := none } (some result) false ∧
      direct.waitRound wanted wantsError none =
        .goOn { direct with result := none } (some result) false := by
  cases active : request.active with
  | false =>
      obtain rfl := level.eq_of_ended active
      rcases waitRound_cases request wanted wantsError none with
        ⟨after, answer, same, settled⟩ | ⟨polls, _⟩ | ⟨_, other, _⟩
      · exact .inl ⟨after, after, answer, same, same, .refl after, settled⟩
      · cases resting.symm.trans polls
      · cases active.symm.trans other
  | true =>
      cases found : request.result with
      | none => cases resting.symm.trans (polls_iff.mpr ⟨active, found⟩)
      | some result =>
          have other : direct.result = some result := level.same_result ▸ found
          have also : direct.active = true := level.same_active ▸ active
          rw [Request.waitRound, Request.waitRound, found, other]
          by_cases special : result.kind.copies = true ∨ result.kind = .chunk
          · left
            simp only [special, if_true]
            exact ⟨_, _, _, rfl, rfl, level, rfl⟩
          · right
            refine ⟨result, rfl, rfl, ?_⟩
            simp [special, active, also]

theorem waitStart_unsettled (level : Level request direct)
    (answered : (waitStart shape bounded wanted wantsError turns request).answer = some answer)
    (unsettled : answer.settled = false) :
    (Level (waitStart shape bounded wanted wantsError turns request).request direct ∧
      loud shape (waitStart shape bounded wanted wantsError turns request).turns =
        loud shape turns) ∨
    ∃ turn result, turn.answer = .ready result true ∧
      turn.answer.quiet shape.copying = false ∧ request.polls = true ∧
      (direct.progress shape turn.answer).2 = none ∧
      (waitStart shape bounded wanted wantsError turns request).request =
        (direct.progress shape turn.answer).1 ∧
      (direct.progress shape turn.answer).1.result = some result ∧
      loud shape turns =
        turn :: loud shape (waitStart shape bounded wanted wantsError turns request).turns := by
  unfold waitStart at answered ⊢
  cases polls : request.polls with
  | true =>
      simp only [polls, if_true] at answered ⊢
      rcases waitLoop_unsettled polls answered unsettled with
        ⟨same, rest⟩ | ⟨turn, result, ready, moves, fine, same, found, rest⟩
      · exact .inl ⟨same ▸ level.started (polls_iff.mp polls).1, rest⟩
      · rw [level.progress polls] at fine same found
        exact .inr ⟨turn, result, ready, moves, trivial, fine, same, found, rest⟩
  | false =>
      left
      simp only [polls, Bool.false_eq_true, if_false] at answered ⊢
      rcases waitRound_level level polls wanted wantsError with
        ⟨after, _, other, same, _, _, settled⟩ | ⟨result, active, found, same, _⟩
      · simp only [same] at answered
        cases answered
        cases settled.symm.trans unsettled
      · simp only [same] at answered ⊢
        have waits : ({ request with result := none } : Request ρ).polls = true :=
          polls_iff.mpr ⟨active, rfl⟩
        obtain ⟨restored, rest⟩ := waitLoop_restores waits answered unsettled
        rw [restored]
        refine ⟨?_, rest⟩
        have whole : ({ ({ request with result := none } : Request ρ).started with
            result := some result } : Request ρ) = request.started := by
          rw [Request.started, Request.started, found]
        rw [whole]
        exact level.started active

theorem waitStart_settled (level : Level request direct)
    (answered : (waitStart shape bounded wanted wantsError turns request).answer = some answer)
    (settled : answer.settled = true) :
    ∃ after, waitStart shape bounded wanted wantsError (loud shape turns) direct =
        { request := after, answer := some answer
          turns := loud shape (waitStart shape bounded wanted wantsError turns request).turns } ∧
      Level (waitStart shape bounded wanted wantsError turns request).request after := by
  unfold waitStart at answered ⊢
  rw [← level.same_polls]
  cases polls : request.polls with
  | true =>
      simp only [polls, if_true] at answered ⊢
      exact ⟨_, waitLoop_settled polls level answered settled, .refl _⟩
  | false =>
      simp only [polls, Bool.false_eq_true, if_false] at answered ⊢
      rcases waitRound_level level polls wanted wantsError with
        ⟨after, other, found, same, also, close, _⟩ | ⟨result, active, found, same, also⟩
      · simp only [same, also] at answered ⊢
        cases answered
        exact ⟨other, rfl, close⟩
      · simp only [same, also] at answered ⊢
        have waits : ({ request with result := none } : Request ρ).polls = true :=
          polls_iff.mpr ⟨active, rfl⟩
        exact ⟨_, waitLoop_settled waits (level.replace none) answered settled, .refl _⟩

/-- The wait of a request may take in a first answer before it starts. -/
theorem waitStart_absorb (polls : request.polls = true)
    (moves : turn.answer.quiet shape.copying = false)
    (fine : (request.progress shape turn.answer).2 = none) :
    waitStart shape bounded wanted wantsError (turn :: turns) request =
      waitStart shape bounded wanted wantsError turns (request.progress shape turn.answer).1 := by
  have resting := progress_loud polls moves fine
  rw [waitStart, if_pos polls, waitStart, resting, if_neg Bool.false_ne_true, waitLoop]
  cases moved : request.progress shape turn.answer with
  | mk after status =>
      rw [moved] at fine resting
      cases fine
      dsimp only at resting ⊢
      rcases waitRound_cases after wanted wantsError none with
        ⟨final, other, same, _⟩ | ⟨again, _⟩ | ⟨result, _, _, _, same⟩
      · rw [same]
      · cases resting.symm.trans again
      · rw [same]

/-! ## The next result -/

variable {allowance : Allowance}

/-- A round ends the call exactly when the private operation is not asked. -/
theorem nextRound_cases (request : Request ρ) (wantsError : Bool) :
    (request.polls = true ∧ request.nextRound wantsError = none) ∨
    request.polls = false ∧ ∃ after answer,
      request.nextRound wantsError = some (after, answer) ∧ answer.settled = true := by
  cases found : request.result with
  | none =>
      cases active : request.active with
      | true =>
          refine .inl ⟨polls_iff.mpr ⟨active, found⟩, ?_⟩
          rw [Request.nextRound, found]
          exact if_pos active
      | false =>
          refine .inr ⟨by rw [Request.polls, active, Bool.false_and], ?_⟩
          simp only [Request.nextRound, found, active, Bool.false_eq_true, if_false]
          unfold Request.finalAnswer
          split <;> exact ⟨_, _, rfl, rfl⟩
  | some result =>
      refine .inr ⟨by rw [Request.polls, found, Option.isNone_some, Bool.and_false], ?_⟩
      simp only [Request.nextRound, found]
      unfold Request.transfer
      dsimp only
      split_ifs <;> exact ⟨_, _, rfl, rfl⟩

theorem transfer_started (request : Request ρ) (result : OwnedResult ρ) (wantsError : Bool) :
    request.started.transfer result wantsError =
        ((request.transfer result wantsError).1.started, (request.transfer result wantsError).2) ∧
      (request.transfer result wantsError).1.active = request.active := by
  cases held : request.outstanding with
  | true => simp [Request.transfer, Request.started, held]
  | false =>
      by_cases failed : result.kind = .error <;> cases wantsError <;>
        simp [Request.transfer, Request.giveError, Request.started, Request.active, held, failed]

/-- A first round that does not ask the private operation comes to the same in both requests. -/
theorem nextRound_level (level : Level request direct) (resting : request.polls = false)
    (wantsError : Bool) :
    ∃ after other answer, request.nextRound wantsError = some (after, answer) ∧
      direct.nextRound wantsError = some (other, answer) ∧ Level after other ∧
      answer.settled = true := by
  rcases nextRound_cases request wantsError with ⟨polls, _⟩ | ⟨_, after, answer, same, settled⟩
  · cases resting.symm.trans polls
  rcases level with rfl | ⟨active, also, equal⟩
  · exact ⟨after, after, answer, same, same, .refl after, settled⟩
  cases found : request.result with
  | none => cases resting.symm.trans (polls_iff.mpr ⟨active, found⟩)
  | some result =>
      have other : direct.result = some result :=
        Level.same_result (.inr ⟨active, also, equal⟩) ▸ found
      rw [Request.nextRound, found] at same
      obtain ⟨first, kept⟩ := transfer_started request result wantsError
      obtain ⟨second, held⟩ := transfer_started direct result wantsError
      rw [equal, second] at first
      obtain ⟨states, answers⟩ := Prod.mk.inj first
      have moved := Option.some.inj same
      refine ⟨after, (direct.transfer result wantsError).1, answer, ?_, ?_, ?_, settled⟩
      · rw [Request.nextRound, found]
        exact same
      · rw [Request.nextRound, other]
        have equals : (direct.transfer result wantsError).2 = answer := by rw [answers, moved]
        exact congrArg some (Prod.ext rfl equals)
      · rw [moved] at states kept
        exact .inr ⟨kept.trans active, held.trans also, states.symm⟩

theorem nextPause_unsettled
    (ends : turn.nextPause allowance = some answer) : answer.settled = false := by
  unfold Turn.nextPause at ends
  split at ends
  · cases ends
    rfl
  · exact pause_unsettled ends

theorem nextLoop_quiet (polls : request.polls = true)
    (quiet : turn.answer.quiet shape.copying = true) :
    nextLoop shape allowance wantsError (turn :: turns) request =
      match turn.nextPause allowance with
      | none => nextLoop shape allowance wantsError turns request.started
      | some answer => { request := request.started, answer := some answer, turns := turns } := by
  rw [nextLoop, progress_quiet polls quiet]
  dsimp only
  rcases nextRound_cases request.started wantsError with ⟨_, same⟩ | ⟨resting, _⟩
  · rw [same]
  · cases resting.symm.trans (polls_started polls)

/-- An answer that moves something ends the call. -/
theorem nextLoop_loud (polls : request.polls = true)
    (moves : turn.answer.quiet shape.copying = false) :
    ∃ after answer, answer.settled = true ∧ ∀ turns,
      nextLoop shape allowance wantsError (turn :: turns) request =
        { request := after, answer := some answer, turns := turns } := by
  have resting := progress_loud polls moves
  cases moved : request.progress shape turn.answer with
  | mk after status =>
      rw [moved] at resting
      cases status with
      | some status =>
          exact ⟨after, .refused status, rfl, fun turns => by rw [nextLoop, moved]⟩
      | none =>
          rcases nextRound_cases after wantsError with
            ⟨again, _⟩ | ⟨_, final, answer, same, settled⟩
          · cases (resting rfl).symm.trans again
          · exact ⟨final, answer, settled, fun turns => by rw [nextLoop, moved]; simp only [same]⟩

theorem nextLoop_cases (polls : request.polls = true) (level : Level request direct)
    (answered : (nextLoop shape allowance wantsError turns request).answer = some answer) :
    (answer.settled = false ∧
      Level (nextLoop shape allowance wantsError turns request).request direct ∧
      loud shape (nextLoop shape allowance wantsError turns request).turns = loud shape turns) ∨
    (answer.settled = true ∧ nextLoop shape allowance wantsError (loud shape turns) direct =
      { request := (nextLoop shape allowance wantsError turns request).request
        answer := some answer
        turns := loud shape (nextLoop shape allowance wantsError turns request).turns }) := by
  induction turns generalizing request direct with
  | nil => cases answered
  | cons turn turns induction =>
      cases quiet : turn.answer.quiet shape.copying with
      | true =>
          rw [nextLoop_quiet polls quiet] at answered ⊢
          rw [loud_quiet quiet]
          have close := level.started (polls_iff.mp polls).1
          cases ends : turn.nextPause allowance with
          | none =>
              rw [ends] at answered
              exact induction (polls_started polls) close answered
          | some other =>
              rw [ends] at answered
              cases answered
              exact .inl ⟨nextPause_unsettled ends, close, rfl⟩
      | false =>
          right
          obtain ⟨after, other, settled, same⟩ := nextLoop_loud polls quiet
          have also : nextLoop shape allowance wantsError (turn :: loud shape turns) direct =
              nextLoop shape allowance wantsError (turn :: loud shape turns) request := by
            rw [nextLoop, nextLoop, level.progress polls]
          rw [same] at answered ⊢
          cases answered
          rw [loud_loud quiet, also, same]
          exact ⟨settled, rfl⟩

theorem nextStart_cases (level : Level request direct)
    (answered : (nextStart shape allowance wantsError turns request).answer = some answer) :
    (answer.settled = false ∧
      Level (nextStart shape allowance wantsError turns request).request direct ∧
      loud shape (nextStart shape allowance wantsError turns request).turns = loud shape turns) ∨
    ∃ after, answer.settled = true ∧
      nextStart shape allowance wantsError (loud shape turns) direct =
        { request := after, answer := some answer
          turns := loud shape (nextStart shape allowance wantsError turns request).turns } ∧
      Level (nextStart shape allowance wantsError turns request).request after := by
  unfold nextStart at answered ⊢
  rcases nextRound_cases request wantsError with ⟨polls, same⟩ | ⟨resting, _⟩
  · rcases nextRound_cases direct wantsError with ⟨_, also⟩ | ⟨resting, _⟩
    · simp only [same, also] at answered ⊢
      rcases nextLoop_cases polls level answered with idle | ⟨settled, equal⟩
      · exact .inl idle
      · exact .inr ⟨_, settled, equal, .refl _⟩
    · cases resting.symm.trans (level.same_polls ▸ polls)
  · obtain ⟨after, second, answer, same, also, close, settled⟩ :=
      nextRound_level level resting wantsError
    simp only [same, also] at answered ⊢
    cases answered
    exact .inr ⟨second, settled, rfl, close⟩

/-- The call for a next result may take in a first answer before it starts. -/
theorem nextStart_absorb (polls : request.polls = true)
    (moves : turn.answer.quiet shape.copying = false)
    (fine : (request.progress shape turn.answer).2 = none) :
    nextStart shape allowance wantsError (turn :: turns) request =
      nextStart shape allowance wantsError turns (request.progress shape turn.answer).1 := by
  have resting := progress_loud polls moves fine
  rcases nextRound_cases request wantsError with ⟨_, same⟩ | ⟨other, _⟩
  · rw [nextStart, same, nextStart]
    simp only [nextLoop]
    cases moved : request.progress shape turn.answer with
    | mk after status =>
        rw [moved] at fine resting
        cases fine
        rcases nextRound_cases after wantsError with ⟨again, _⟩ | ⟨_, final, answer, found, _⟩
        · cases resting.symm.trans again
        · simp only [found]
  · cases other.symm.trans polls

/-! ## Runs -/

/-- A request keeps up with a direct one that only sees the turns that move something, or is one
answer ahead of it. -/
def Follows (shape : Shape) (request : Request ρ) (turns : List (Turn ρ)) (direct : Request ρ)
    (directTurns : List (Turn ρ)) : Prop :=
  (Level request direct ∧ directTurns = loud shape turns) ∨
  ∃ turn, direct.polls = true ∧ turn.answer.quiet shape.copying = false ∧
    (direct.progress shape turn.answer).2 = none ∧
    Level request (direct.progress shape turn.answer).1 ∧ directTurns = turn :: loud shape turns

theorem complete_outstanding (request : Request ρ) (shape : Shape) (status : OperationStatus)
    (described : Bool) :
    (request.complete shape status described).outstanding = request.outstanding := by
  unfold Request.complete
  dsimp only
  split_ifs <;> rfl

theorem receive_outstanding (request : Request ρ) (result : OwnedResult ρ) :
    (request.receive result).outstanding = request.outstanding := by
  unfold Request.receive
  dsimp only
  split <;> rfl

theorem complete_release (request : Request ρ) (shape : Shape) (status : OperationStatus)
    (described : Bool) :
    request.release.complete shape status described =
      (request.complete shape status described).release := by
  have ended : request.release.completeStatus shape status = request.completeStatus shape status :=
    rfl
  have error : request.release.error = request.error := rfl
  unfold Request.complete
  rw [ended, error]
  dsimp only
  split_ifs <;> rfl

theorem receive_release (request : Request ρ) (result : OwnedResult ρ) :
    request.release.receive result = (request.receive result).release := by
  unfold Request.receive
  dsimp only
  split <;> rfl

/-- The end of an outstanding result and an answer of the private operation do not meet. -/
theorem progress_release (request : Request ρ) (shape : Shape) (answer : OperationAnswer ρ) :
    request.release.progress shape answer =
      ((request.progress shape answer).1.release, (request.progress shape answer).2) := by
  rw [Request.progress.eq_def, Request.progress.eq_def]
  have polls : request.release.polls = request.polls := rfl
  rw [polls]
  split_ifs
  · rfl
  · rfl
  · cases answer with
    | waiting => rfl
    | refused => rfl
    | ready result wrapped =>
        cases wrapped with
        | true => exact congrArg (·, none) (receive_release request.started result)
        | false => rfl
    | complete status described =>
        exact congrArg (·, none) (complete_release request.started shape status described)

theorem progress_outstanding (request : Request ρ) (shape : Shape) (answer : OperationAnswer ρ) :
    (request.progress shape answer).1.outstanding = request.outstanding := by
  rw [Request.progress.eq_def]
  split_ifs
  · rfl
  · rfl
  · cases answer with
    | waiting => rfl
    | refused => rfl
    | ready result wrapped =>
        cases wrapped with
        | true => exact receive_outstanding _ _
        | false => rfl
    | complete => exact complete_outstanding _ _ _ _

variable {directTurns : List (Turn ρ)}

theorem Follows.same_outstanding (follows : Follows shape request turns direct directTurns) :
    direct.outstanding = request.outstanding := by
  rcases follows with ⟨level, _⟩ | ⟨turn, _, _, _, level, _⟩
  · exact level.same_outstanding.symm
  · rw [level.same_outstanding, progress_outstanding]

/-- A request that is ahead does not ask the private operation. -/
theorem ahead_rests (polls : direct.polls = true) (moves : turn.answer.quiet shape.copying = false)
    (fine : (direct.progress shape turn.answer).2 = none)
    (level : Level request (direct.progress shape turn.answer).1) : request.polls = false := by
  rw [level.same_polls]
  exact progress_loud polls moves fine

theorem waitRefusal_settled
    (refused : waitRefusal shape allowance request = some answer) : answer.settled = true := by
  unfold waitRefusal at refused
  split_ifs at refused <;> cases refused <;> rfl

theorem nextRefusal_settled
    (refused : nextRefusal allowance request = some answer) : answer.settled = true := by
  unfold nextRefusal at refused
  split_ifs at refused <;> cases refused <;> rfl

theorem progressStart_unsettled (level : Level request direct) (polls : request.polls = true)
    (answered : (progressStart shape turns request).answer = some answer)
    (unsettled : answer.settled = false) :
    Follows shape (progressStart shape turns request).request
      (progressStart shape turns request).turns direct (loud shape turns) := by
  cases turns with
  | nil => cases answered
  | cons turn turns =>
      simp only [progressStart] at answered ⊢
      cases quiet : turn.answer.quiet shape.copying with
      | true =>
          rw [progress_quiet polls quiet]
          exact .inl ⟨level.started (polls_iff.mp polls).1, loud_quiet quiet⟩
      | false =>
          cases moved : request.progress shape turn.answer with
          | mk after status =>
              rw [moved] at answered
              cases status with
              | some status =>
                  cases answered
                  cases unsettled
              | none =>
                  rw [level.progress polls] at moved
                  refine .inr ⟨turn, level.same_polls ▸ polls, quiet, ?_, ?_, loud_loud quiet⟩
                  · rw [moved]
                  · rw [moved]
                    exact .refl after

theorem progressStart_settled (level : Level request direct) (polls : request.polls = true)
    (answered : (progressStart shape turns request).answer = some answer)
    (settled : answer.settled = true) :
    progressStart shape (loud shape turns) direct =
      { request := (progressStart shape turns request).request
        answer := some answer
        turns := loud shape (progressStart shape turns request).turns } := by
  cases turns with
  | nil => cases answered
  | cons turn turns =>
      simp only [progressStart] at answered ⊢
      cases quiet : turn.answer.quiet shape.copying with
      | true =>
          rw [progress_quiet polls quiet] at answered
          cases answered
          cases settled
      | false =>
          rw [loud_loud quiet]
          simp only [← level.progress polls]
          generalize request.progress shape turn.answer = moved at answered ⊢
          rcases moved with ⟨after, _ | status⟩
          · cases answered
            cases settled
          · cases answered
            rfl

/-- A call that settles nothing lets the request follow. -/
theorem call_unsettled {next : Call} (follows : Follows shape request turns direct directTurns)
    (answered : (call shape request turns next).answer = some answer)
    (unsettled : answer.settled = false) :
    Follows shape (call shape request turns next).request (call shape request turns next).turns
      direct directTurns := by
  cases next with
  | wait allowance wanted wantsError =>
      simp only [call] at answered ⊢
      cases refusal : waitRefusal shape allowance request with
      | some other =>
          rw [refusal] at answered
          cases answered
          cases (waitRefusal_settled refusal).symm.trans unsettled
      | none =>
          rw [refusal] at answered
          change (waitStart shape _ _ _ turns request).answer = _ at answered
          change Follows shape (waitStart shape _ _ _ turns request).request
            (waitStart shape _ _ _ turns request).turns _ _
          rcases follows with ⟨level, rfl⟩ | ⟨turn, polls, moves, fine, level, rfl⟩
          · rcases waitStart_unsettled level answered unsettled with
              ⟨close, rest⟩ | ⟨turn, result, _, moves, polls, fine, same, _, rest⟩
            · exact .inl ⟨close, rest.symm⟩
            · exact .inr ⟨turn, level.same_polls ▸ polls, moves, fine, .inl same, rest⟩
          · rcases waitStart_unsettled level answered unsettled with
              ⟨close, rest⟩ | ⟨_, _, _, _, other, _⟩
            · exact .inr ⟨turn, polls, moves, fine, close, by rw [rest]⟩
            · cases (ahead_rests polls moves fine level).symm.trans other
  | progress =>
      simp only [call] at answered ⊢
      cases asked : request.polls with
      | false =>
          simp only [Bool.false_eq_true, if_false]
          exact follows
      | true =>
          simp only [asked, if_true] at answered ⊢
          rcases follows with ⟨level, rfl⟩ | ⟨turn, polls, moves, fine, level, rfl⟩
          · exact progressStart_unsettled level asked answered unsettled
          · cases (ahead_rests polls moves fine level).symm.trans asked
  | nextResult allowance wantsError =>
      simp only [call] at answered ⊢
      cases refusal : nextRefusal allowance request with
      | some other =>
          rw [refusal] at answered
          cases answered
          cases (nextRefusal_settled refusal).symm.trans unsettled
      | none =>
          rw [refusal] at answered
          change (nextStart shape _ _ turns request).answer = _ at answered
          change Follows shape (nextStart shape _ _ turns request).request
            (nextStart shape _ _ turns request).turns _ _
          rcases follows with ⟨level, rfl⟩ | ⟨turn, polls, moves, fine, level, rfl⟩
          · rcases nextStart_cases level answered with ⟨_, close, rest⟩ | ⟨_, settled, _⟩
            · exact .inl ⟨close, rest.symm⟩
            · cases settled.symm.trans unsettled
          · rcases nextStart_cases level answered with ⟨_, close, rest⟩ | ⟨_, settled, _⟩
            · exact .inr ⟨turn, polls, moves, fine, close, by rw [rest]⟩
            · cases settled.symm.trans unsettled
  | freeResult =>
      cases answered
      cases unsettled

/-- A call that settles something has the same answer for the direct request. -/
theorem call_settled {next : Call} (follows : Follows shape request turns direct directTurns)
    (answered : (call shape request turns next).answer = some answer)
    (settled : answer.settled = true) :
    ∃ after rest, call shape direct directTurns next =
        { request := after, answer := some answer, turns := rest } ∧
      Follows shape (call shape request turns next).request
        (call shape request turns next).turns after rest := by
  cases next with
  | wait allowance wanted wantsError =>
      simp only [call] at answered ⊢
      have same : waitRefusal shape allowance direct = waitRefusal shape allowance request := by
        rw [waitRefusal, waitRefusal, follows.same_outstanding]
      rw [same]
      cases refusal : waitRefusal shape allowance request with
      | some other =>
          rw [refusal] at answered
          cases answered
          exact ⟨direct, directTurns, rfl, follows⟩
      | none =>
          rw [refusal] at answered
          change (waitStart shape _ _ _ turns request).answer = _ at answered
          change ∃ after rest, waitStart shape _ _ _ directTurns direct = _ ∧
            Follows shape (waitStart shape _ _ _ turns request).request
              (waitStart shape _ _ _ turns request).turns after rest
          rcases follows with ⟨level, rfl⟩ | ⟨turn, polls, moves, fine, level, rfl⟩
          · obtain ⟨after, equal, close⟩ := waitStart_settled level answered settled
            exact ⟨after, _, equal, .inl ⟨close, rfl⟩⟩
          · obtain ⟨after, equal, close⟩ := waitStart_settled level answered settled
            rw [waitStart_absorb polls moves fine]
            exact ⟨after, _, equal, .inl ⟨close, rfl⟩⟩
  | progress =>
      simp only [call] at answered ⊢
      cases asked : request.polls with
      | false =>
          rw [asked] at answered
          cases answered
          cases settled
      | true =>
          simp only [asked, if_true] at answered ⊢
          rcases follows with ⟨level, rfl⟩ | ⟨turn, polls, moves, fine, level, rfl⟩
          · rw [← level.same_polls, asked]
            exact ⟨_, _, progressStart_settled level asked answered settled, .inl ⟨.refl _, rfl⟩⟩
          · cases (ahead_rests polls moves fine level).symm.trans asked
  | nextResult allowance wantsError =>
      simp only [call] at answered ⊢
      have same : nextRefusal allowance direct = nextRefusal allowance request := by
        rw [nextRefusal, nextRefusal, follows.same_outstanding]
      rw [same]
      cases refusal : nextRefusal allowance request with
      | some other =>
          rw [refusal] at answered
          cases answered
          exact ⟨direct, directTurns, rfl, follows⟩
      | none =>
          rw [refusal] at answered
          change (nextStart shape _ _ turns request).answer = _ at answered
          change ∃ after rest, nextStart shape _ _ directTurns direct = _ ∧
            Follows shape (nextStart shape _ _ turns request).request
              (nextStart shape _ _ turns request).turns after rest
          rcases follows with ⟨level, rfl⟩ | ⟨turn, polls, moves, fine, level, rfl⟩
          · rcases nextStart_cases level answered with ⟨unsettled, _⟩ | ⟨after, _, equal, close⟩
            · cases settled.symm.trans unsettled
            · exact ⟨after, _, equal, .inl ⟨close, rfl⟩⟩
          · rcases nextStart_cases level answered with ⟨unsettled, _⟩ | ⟨after, _, equal, close⟩
            · cases settled.symm.trans unsettled
            · rw [nextStart_absorb polls moves fine]
              exact ⟨after, _, equal, .inl ⟨close, rfl⟩⟩
  | freeResult =>
      cases answered
      refine ⟨direct.release, directTurns, rfl, ?_⟩
      rcases follows with ⟨level, rfl⟩ | ⟨turn, polls, moves, fine, level, rfl⟩
      · exact .inl ⟨level.release, rfl⟩
      · refine .inr ⟨turn, polls, moves, ?_, ?_, rfl⟩
        · rw [progress_release]
          exact fine
        · rw [progress_release]
          exact level.release

/-- The calls that settled something have the same answers without the other calls and the turns
that move nothing. -/
theorem run_follows (calls : List Call) (follows : Follows shape request turns direct directTurns) :
    run shape ((settledOf (run shape calls request turns)).map Prod.fst) direct directTurns =
      settledOf (run shape calls request turns) := by
  induction calls generalizing request turns direct directTurns with
  | nil => rfl
  | cons next calls induction =>
      rw [run]
      cases answered : (call shape request turns next).answer with
      | none => rfl
      | some answer =>
          dsimp only
          rw [settledOf, List.filter_cons]
          cases settled : answer.settled with
          | false =>
              rw [if_neg Bool.false_ne_true]
              exact induction (call_unsettled follows answered settled)
          | true =>
              obtain ⟨after, rest, same, close⟩ := call_settled follows answered settled
              rw [if_pos rfl, List.map_cons, run, same]
              exact congrArg ((next, answer) :: ·) (induction close)

/-- A wait that does not settle anything keeps what is not handed out. -/
theorem wait_undelivered
    (answered : (call shape request turns (.wait allowance wanted wantsError)).answer = some answer)
    (unsettled : answer.settled = false) :
    undelivered shape (call shape request turns (.wait allowance wanted wantsError)).request
        (call shape request turns (.wait allowance wanted wantsError)).turns =
      undelivered shape request turns := by
  simp only [call] at answered ⊢
  cases refusal : waitRefusal shape allowance request with
  | some other =>
      rw [refusal] at answered
      cases answered
      cases (waitRefusal_settled refusal).symm.trans unsettled
  | none =>
      rw [refusal] at answered
      change (waitStart shape _ _ _ turns request).answer = _ at answered
      change undelivered shape (waitStart shape _ _ _ turns request).request
        (waitStart shape _ _ _ turns request).turns = _
      rcases waitStart_unsettled (.refl request) answered unsettled with
        ⟨close, rest⟩ | ⟨turn, result, ready, _, polls, _, same, found, rest⟩
      · rw [undelivered, undelivered, close.same_result, rest]
      · have brings : turn.result = some result := by rw [Turn.result, ready]
        rw [undelivered, undelivered, same, found, rest, (polls_iff.mp polls).2,
          List.filterMap_cons_some brings]
        rfl

/-- The results that the calls hand out do not depend on the calls that time out: each other call has
the answer that it has without them and without any waiting of the backend.  A wait that times out
keeps the results that are not handed out, in their order. -/
theorem timeouts_lose_nothing (shape : Shape) (request : Request ρ) (turns : List (Turn ρ))
    (calls : List Call) :
    run shape ((settledOf (run shape calls request turns)).map Prod.fst) request
        (loud shape turns) =
      settledOf (run shape calls request turns) ∧
    handed (run shape ((settledOf (run shape calls request turns)).map Prod.fst) request
        (loud shape turns)) =
      handed (run shape calls request turns) ∧
    ∀ allowance wanted wantsError answer,
      (call shape request turns (.wait allowance wanted wantsError)).answer = some answer →
      answer.settled = false →
      answer.results = [] ∧
      undelivered shape (call shape request turns (.wait allowance wanted wantsError)).request
          (call shape request turns (.wait allowance wanted wantsError)).turns =
        undelivered shape request turns := by
  have follows : Follows shape request turns request (loud shape turns) :=
    .inl ⟨.refl request, rfl⟩
  have same := run_follows calls follows
  refine ⟨same, by rw [same, handed_settledOf], ?_⟩
  intro allowance wanted wantsError answer answered unsettled
  exact ⟨results_of_unsettled unsettled, wait_undelivered answered unsettled⟩

/-- A request that was just started. -/
def Request.fresh : Request ρ :=
  { state := .pending, operationStatus := .internalError, result := none, resultCount := 0
    sawPostgresError := false, sawCancelError := false, error := none, outstanding := false
    described := false, remoteClosed := false, aborted := false }

def Shape.statement : Shape :=
  { mode := .extended, chunked := false, copying := false, cancelRequested := false }

/-- A backend that is slow behind its result. -/
def slowTurns : List (Turn ℕ) :=
  [{ answer := .waiting, late := false, wait := .woken },
    { answer := .ready { kind := .plain, failure := none, content := 7 } true
      late := false, wait := .woken },
    { answer := .waiting, late := false, wait := .timedOut },
    { answer := .complete .ok false, late := false, wait := .woken }]

/-- The result of a statement comes in a wait that times out, and the next call hands it out. -/
theorem timeouts_lose_nothing_statement :
    handed (run .statement [.wait .bounded true true, .nextResult .unbounded true] .fresh
        slowTurns) = [{ kind := .plain, failure := none, content := 7 }] ∧
    undelivered .statement (call .statement .fresh slowTurns (.wait .bounded true true)).request
        (call .statement .fresh slowTurns (.wait .bounded true true)).turns =
      [{ kind := .plain, failure := none, content := 7 }] := by
  obtain ⟨_, same, keeps⟩ := timeouts_lose_nothing .statement .fresh slowTurns
    [.wait .bounded true true, .nextResult .unbounded true]
  constructor
  · rw [← same]
    rfl
  · exact (keeps .bounded true true .timeout rfl rfl).2

end Delivery
end Postgamma.Embedded
