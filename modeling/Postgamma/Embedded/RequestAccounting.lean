import Mathlib
import Postgamma.Embedded.PublicApi

/-!
# The accounts of the requests

Every started request is live and not yet in the ledger, or it is in the ledger once, under the
state that it ended with.  The loops that wait for a request only advance it: they change its
progress, mark its connection as failed or write the flags of its statement.
-/

namespace Postgamma.Embedded.Api

/-- The counters agree with the started requests and the ledger. -/
structure Accounted (api : Api) : Prop where
  startedNodup : api.started.Nodup
  startedBelow : ∀ address ∈ api.started, address < api.next
  live : ∀ address request, api.requests address = some request → address ∈ api.started
  ledgerNodup : (api.ledger.map Prod.fst).Nodup
  ledgerStarted : ∀ entry ∈ api.ledger, entry.1 ∈ api.started
  ledgerTerminal : ∀ entry ∈ api.ledger, entry.2.terminal = true
  gone : ∀ address ∈ api.started, api.requests address = none → address ∈ api.ledger.map Prod.fst
  marked : ∀ address request, api.requests address = some request →
    request.terminalAccounted = request.state.terminal ∧
      (request.state.terminal = true ↔ address ∈ api.ledger.map Prod.fst)
  recorded : ∀ address request state, api.requests address = some request →
    (address, state) ∈ api.ledger → request.state = state
  requestCount : api.requestCount = api.started.length
  activeCount : api.activeCount + api.ledger.length = api.requestCount
  completedCount : api.completedCount = api.ledger.countP fun entry => entry.2 = .completed
  canceledCount : api.canceledCount = api.ledger.countP fun entry => entry.2 = .canceled
  failedCount : api.failedCount = api.ledger.countP fun entry => entry.2 = .failed

/-- The part of a connection that no progress changes. -/
def connectionLinks (connection : PublicConnection) : Bool × Option ℕ × ℕ :=
  (connection.closing, connection.activeRequest, connection.statementCount)

/-- The part of a statement that no progress changes. -/
def statementLinks (statement : PublicStatement) : ℕ × Option ℕ :=
  (statement.connection, statement.activeRequest)

/-- The part of a request that no progress changes. -/
def requestLinks (request : PublicRequest) : ℕ × Option ℕ × Option ℕ × Bool :=
  (request.connection, request.statement, request.activeCopy, request.freePending)

/-- The objects and their links stay as they are; a request may make progress. -/
structure Keeps (address : ℕ) (before after : Api) : Prop where
  leases : after.leases = before.leases
  results : after.results = before.results
  copies : after.copies = before.copies
  next : after.next = before.next
  started : after.started = before.started
  freed : after.freed = before.freed
  connectionCount : after.connectionCount = before.connectionCount
  others : ∀ other, other ≠ address → after.requests other = before.requests other
  own : (after.requests address).map requestLinks = (before.requests address).map requestLinks
  connections : ∀ other, (after.connections other).map connectionLinks =
    (before.connections other).map connectionLinks
  statements : ∀ other, (after.statements other).map statementLinks =
    (before.statements other).map statementLinks

namespace Keeps

variable {address : ℕ}

theorem refl (api : Api) : Keeps address api api :=
  ⟨rfl, rfl, rfl, rfl, rfl, rfl, rfl, fun _ _ => rfl, rfl, fun _ => rfl, fun _ => rfl⟩

theorem trans {before middle after : Api} (first : Keeps address before middle)
    (second : Keeps address middle after) : Keeps address before after where
  leases := second.leases.trans first.leases
  results := second.results.trans first.results
  copies := second.copies.trans first.copies
  next := second.next.trans first.next
  started := second.started.trans first.started
  freed := second.freed.trans first.freed
  connectionCount := second.connectionCount.trans first.connectionCount
  others := fun other different =>
    (second.others other different).trans (first.others other different)
  own := second.own.trans first.own
  connections := fun other => (second.connections other).trans (first.connections other)
  statements := fun other => (second.statements other).trans (first.statements other)

/-- The links of every request stay as they are. -/
theorem request {before after : Api} (keeps : Keeps address before after) (other : ℕ) :
    (after.requests other).map requestLinks = (before.requests other).map requestLinks := by
  by_cases same : other = address
  · rw [same]
    exact keeps.own
  · rw [keeps.others other same]

end Keeps

/-- A request goes on, and the accounts stay right. -/
structure Advances (address : ℕ) (before after : Api) : Prop extends Keeps address before after where
  accounted : before.Accounted → after.Accounted

namespace Advances

variable {address : ℕ}

theorem refl (api : Api) : Advances address api api := ⟨.refl api, id⟩

theorem trans {before middle after : Api} (first : Advances address before middle)
    (second : Advances address middle after) : Advances address before after :=
  ⟨first.toKeeps.trans second.toKeeps, second.accounted ∘ first.accounted⟩

end Advances

/-- A change of a request that leaves its accounts alone. -/
structure Soft (before after : PublicRequest) : Prop where
  accounted : after.terminalAccounted = before.terminalAccounted
  state : after.state = before.state ∨
    before.state.terminal = false ∧ after.state.terminal = false

theorem Soft.terminal {before after : PublicRequest} (soft : Soft before after) :
    after.state.terminal = before.state.terminal := by
  obtain same | ⟨first, second⟩ := soft.state
  · rw [same]
  · rw [first, second]

variable {api : Api} {address : ℕ}

/-- The value of a table behind an edit of one entry. -/
theorem edited {α : Type} {table : ℕ → Option α} {edit : α → α} {other : ℕ} {entry : α}
    (after : Function.update table address ((table address).map edit) other = some entry) :
    (∃ old, other = address ∧ table address = some old ∧ entry = edit old) ∨
      other ≠ address ∧ table other = some entry := by
  by_cases same : other = address
  · rw [same, Function.update_self] at after
    obtain ⟨old, found, rfl⟩ := Option.map_eq_some_iff.1 after
    exact .inl ⟨old, same, found, rfl⟩
  · rw [Function.update_of_ne same] at after
    exact .inr ⟨same, after⟩

/-- An edit of an entry keeps what it does not change. -/
theorem map_edited {α β : Type} {table : ℕ → Option α} {edit : α → α} {view : α → β}
    (kept : ∀ entry, table address = some entry → view (edit entry) = view entry) (other : ℕ) :
    (Function.update table address ((table address).map edit) other).map view =
      (table other).map view := by
  by_cases same : other = address
  · rw [same, Function.update_self]
    cases found : table address with
    | none => rfl
    | some entry => exact congrArg some (kept entry found)
  · rw [Function.update_of_ne same]

theorem none_edited {α : Type} {table : ℕ → Option α} {edit : α → α} {other : ℕ} :
    Function.update table address ((table address).map edit) other = none ↔ table other = none := by
  by_cases same : other = address
  · rw [same, Function.update_self, Option.map_eq_none_iff]
  · rw [Function.update_of_ne same]

theorem edit_accounted {edit : PublicRequest → PublicRequest} (accounted : api.Accounted)
    (soft : ∀ request, api.requests address = some request → Soft request (edit request)) :
    (api.editRequest address edit).Accounted where
  startedNodup := accounted.startedNodup
  startedBelow := accounted.startedBelow
  live := by
    intro other request found
    obtain ⟨old, rfl, known, -⟩ | ⟨-, known⟩ := edited found
    · exact accounted.live other old known
    · exact accounted.live other request known
  ledgerNodup := accounted.ledgerNodup
  ledgerStarted := accounted.ledgerStarted
  ledgerTerminal := accounted.ledgerTerminal
  gone := fun other member missing => accounted.gone other member (none_edited.1 missing)
  marked := by
    intro other request found
    obtain ⟨old, rfl, known, rfl⟩ | ⟨-, known⟩ := edited found
    · rw [(soft old known).accounted, (soft old known).terminal]
      exact accounted.marked other old known
    · exact accounted.marked other request known
  recorded := by
    intro other request state found entered
    obtain ⟨old, rfl, known, rfl⟩ | ⟨-, known⟩ := edited found
    · have before := accounted.recorded other old state known entered
      have ended := accounted.ledgerTerminal _ entered
      obtain same | ⟨active, -⟩ := (soft old known).state
      · exact same.trans before
      · rw [before, ended] at active
        cases active
    · exact accounted.recorded other request state known entered
  requestCount := accounted.requestCount
  activeCount := accounted.activeCount
  completedCount := accounted.completedCount
  canceledCount := accounted.canceledCount
  failedCount := accounted.failedCount

variable {request : PublicRequest}

theorem edit_found (edit : PublicRequest → PublicRequest)
    (found : api.requests address = some request) :
    (api.editRequest address edit).requests address = some (edit request) := by
  simp only [editRequest, found, Option.map_some, Function.update_self]

theorem edit_keeps {edit : PublicRequest → PublicRequest}
    (links : ∀ request, requestLinks (edit request) = requestLinks request) :
    Keeps address api (api.editRequest address edit) :=
  ⟨rfl, rfl, rfl, rfl, rfl, rfl, rfl, fun _ different => Function.update_of_ne different _ _,
    map_edited (fun request _ => links request) address, fun _ => rfl, fun _ => rfl⟩

theorem edit_advances {edit : PublicRequest → PublicRequest}
    (links : ∀ request, requestLinks (edit request) = requestLinks request)
    (soft : ∀ request, api.requests address = some request → Soft request (edit request)) :
    Advances address api (api.editRequest address edit) :=
  ⟨edit_keeps links, fun accounted => edit_accounted accounted soft⟩

/-- A write of the flags of a connection. -/
theorem editConnection_advances {edit : PublicConnection → PublicConnection} (connection : ℕ)
    (kept : ∀ record, connectionLinks (edit record) = connectionLinks record) :
    Advances address api (api.editConnection connection edit) :=
  ⟨⟨rfl, rfl, rfl, rfl, rfl, rfl, rfl, fun _ _ => rfl, rfl, map_edited fun record _ => kept record,
    fun _ => rfl⟩, fun accounted => { accounted with }⟩

/-- A write of the flags of a statement. -/
theorem editOwnStatement_advances {edit : PublicStatement → PublicStatement}
    (request : PublicRequest)
    (kept : ∀ record, statementLinks (edit record) = statementLinks record) :
    Advances address api (api.editOwnStatement request edit) := by
  unfold editOwnStatement
  split
  · exact .refl api
  · exact ⟨⟨rfl, rfl, rfl, rfl, rfl, rfl, rfl, fun _ _ => rfl, rfl, fun _ => rfl,
      map_edited fun record _ => kept record⟩, fun accounted => { accounted with }⟩

theorem abort_advances : Advances address api (api.abortActiveRequest address) := by
  unfold abortActiveRequest
  split
  · exact .refl api
  · exact editConnection_advances _ fun _ => rfl

theorem setResult_advances (result : Option ResultKind) :
    Advances address api (api.setResult address result) :=
  edit_advances (fun _ => rfl) fun _ _ => ⟨rfl, .inl rfl⟩

theorem cancelMark_advances :
    Advances address api (api.editRequest address requestCancelMark) :=
  edit_advances (fun _ => rfl) fun _ _ => ⟨rfl, .inl rfl⟩

theorem submitCancel_advances (request : PublicRequest) (submitted : Bool) :
    Advances address api (api.submitCancel address request submitted) := by
  unfold submitCancel
  split
  · exact cancelMark_advances
  · exact .refl api

theorem isActive_iff (found : api.requests address = some request) :
    api.isActive address = true ↔ request.state.terminal = false := by
  simp [isActive, found]

variable {state : RequestState} {status : OperationStatus}

/-- The state of an active request that is settled. -/
theorem settle_eq
    (found : api.requests address = some request) (open' : request.terminalAccounted = false)
    (ends : state.terminal = true) :
    api.settle address state status =
      { api with
        requests := Function.update api.requests address
          (some { request with
            state := state, operationStatus := status, terminalAccounted := true })
        activeCount := api.activeCount - 1
        completedCount := if state = .completed then api.completedCount + 1 else api.completedCount
        canceledCount := if state = .canceled then api.canceledCount + 1 else api.canceledCount
        failedCount := if state = .failed then api.failedCount + 1 else api.failedCount
        ledger := (address, state) :: api.ledger } := by
  simp [settle, editRequest, accountTerminal, found, open', ends]

theorem settle_accounted (accounted : api.Accounted)
    (found : api.requests address = some request) (active : request.state.terminal = false)
    (ends : state.terminal = true) : (api.settle address state status).Accounted := by
  have marked := accounted.marked address request found
  have absent : address ∉ api.ledger.map Prod.fst := by
    intro member
    rw [marked.2.2 member] at active
    cases active
  have started := accounted.live address request found
  have room : api.ledger.length < api.started.length := by
    have sub : api.ledger.map Prod.fst ⊆ api.started.erase address := by
      intro other member
      obtain ⟨entry, known, rfl⟩ := List.mem_map.1 member
      refine (List.mem_erase_of_ne ?_).2 (accounted.ledgerStarted entry known)
      rintro same
      exact absent (same ▸ List.mem_map_of_mem known)
    have shorter := (accounted.ledgerNodup.subperm sub).length_le
    rw [List.length_map, List.length_erase_of_mem started] at shorter
    have positive : 0 < api.started.length := List.length_pos_of_mem started
    omega
  have counted := accounted.activeCount
  have total := accounted.requestCount
  rw [settle_eq found (marked.1.trans active) ends]
  refine {
    startedNodup := accounted.startedNodup
    startedBelow := accounted.startedBelow
    live := ?_
    ledgerNodup := List.nodup_cons.2 ⟨absent, accounted.ledgerNodup⟩
    ledgerStarted := ?_
    ledgerTerminal := ?_
    gone := ?_
    marked := ?_
    recorded := ?_
    requestCount := accounted.requestCount
    activeCount := ?_
    completedCount := ?_
    canceledCount := ?_
    failedCount := ?_ }
  · intro other record known
    by_cases same : other = address
    · exact same ▸ started
    · dsimp only at known
      rw [Function.update_of_ne same] at known
      exact accounted.live other record known
  · intro entry member
    obtain rfl | old := List.mem_cons.1 member
    · exact started
    · exact accounted.ledgerStarted entry old
  · intro entry member
    obtain rfl | old := List.mem_cons.1 member
    · exact ends
    · exact accounted.ledgerTerminal entry old
  · intro other member missing
    by_cases same : other = address
    · exact same ▸ List.mem_cons_self
    · dsimp only at missing
      rw [Function.update_of_ne same] at missing
      exact List.mem_cons_of_mem _ (accounted.gone other member missing)
  · intro other record known
    dsimp only at known
    by_cases same : other = address
    · rw [same, Function.update_self] at known
      cases known
      exact ⟨ends.symm, fun _ => same ▸ List.mem_cons_self, fun _ => ends⟩
    · rw [Function.update_of_ne same] at known
      obtain ⟨flag, listed⟩ := accounted.marked other record known
      refine ⟨flag, listed.trans ?_⟩
      rw [List.map_cons, List.mem_cons]
      exact ⟨.inr, fun either => either.resolve_left same⟩
  · intro other record recordState known entered
    dsimp only at known
    by_cases same : other = address
    · rw [same, Function.update_self] at known
      cases known
      obtain new | old := List.mem_cons.1 entered
      · exact (Prod.ext_iff.1 new).2.symm
      · exact absurd (List.mem_map_of_mem (f := Prod.fst) old) (same ▸ absent)
    · rw [Function.update_of_ne same] at known
      obtain new | old := List.mem_cons.1 entered
      · exact absurd (Prod.ext_iff.1 new).1 same
      · exact accounted.recorded other record recordState known old
  · show api.activeCount - 1 + (api.ledger.length + 1) = api.requestCount
    omega
  · simp only [List.countP_cons, accounted.completedCount]
    split <;> simp_all
  · simp only [List.countP_cons, accounted.canceledCount]
    split <;> simp_all
  · simp only [List.countP_cons, accounted.failedCount]
    split <;> simp_all

theorem accountTerminal_keeps : Keeps address api (api.accountTerminal address) := by
  unfold accountTerminal
  split
  · exact .refl api
  · rename_i request found
    split
    · exact .refl api
    · refine ⟨rfl, rfl, rfl, rfl, rfl, rfl, rfl, ?_, ?_, fun _ => rfl, fun _ => rfl⟩
      · exact fun other different => Function.update_of_ne different _ _
      · dsimp only
        rw [Function.update_self, found]
        rfl

theorem settle_advances (status : OperationStatus)
    (found : api.requests address = some request) (active : request.state.terminal = false)
    (ends : state.terminal = true) : Advances address api (api.settle address state status) := by
  have edit : Keeps address api (api.editRequest address fun request =>
    { request with state := state, operationStatus := status }) := edit_keeps fun _ => rfl
  exact ⟨edit.trans accountTerminal_keeps,
    fun accounted => settle_accounted accounted found active ends⟩

theorem settle_inactive (status : OperationStatus)
    (found : api.requests address = some request) (ends : state.terminal = true) :
    (api.settle address state status).isActive address = false := by
  simp only [settle, editRequest, accountTerminal, found, Option.map_some, Function.update_self]
  split
  · simp [isActive, ends]
  · simp [isActive, ends]

theorem completeState_terminal (request : PublicRequest) (status : OperationStatus) :
    (completeState request status).terminal = true := by
  unfold completeState
  split_ifs <;> rfl

theorem editOwnStatement_requests (request : PublicRequest)
    (edit : PublicStatement → PublicStatement) :
    (api.editOwnStatement request edit).requests = api.requests := by
  unfold editOwnStatement
  split <;> rfl

/-- A write of the flags of a statement that may be left out. -/
theorem flags_advances {middle : Api} (condition : Prop) [Decidable condition]
    (request : PublicRequest) (edit : PublicStatement → PublicStatement)
    (kept : ∀ record, statementLinks (edit record) = statementLinks record)
    (same : middle.requests = api.requests) (advances : Advances address api middle) :
    Advances address api (if condition then middle.editOwnStatement request edit else middle) ∧
      (if condition then middle.editOwnStatement request edit else middle).requests =
        api.requests := by
  split
  · exact ⟨advances.trans (editOwnStatement_advances request kept),
      (editOwnStatement_requests request edit).trans same⟩
  · exact ⟨advances, same⟩

theorem complete_advances {request later : PublicRequest} (status : OperationStatus)
    (described : Bool) (found : api.requests address = some later)
    (active : later.state.terminal = false) :
    Advances address api (api.complete address request status described) := by
  unfold complete
  dsimp only
  obtain ⟨first, firstRequests⟩ := flags_advances
    (completeStatus request status = .ok ∧ request.mode = .prepare) request
    (fun statement => { statement with described := described }) (fun _ => rfl) rfl (.refl api)
  obtain ⟨second, secondRequests⟩ := flags_advances
    ((if (completeStatus request status = .ok ∧ request.mode = .prepare) ∧ described = false then
      OperationStatus.internalError else completeStatus request status) = .ok ∧
        request.mode = .statementClose) request
    (fun statement => { statement with remoteClosed := true }) (fun _ => rfl) firstRequests first
  refine second.trans (settle_advances _ ?_ active (completeState_terminal _ _))
  rw [secondRequests]
  exact found

theorem receive_links (kind : ResultKind) (canceled : Bool) (request : PublicRequest) :
    requestLinks (receive kind canceled request) = requestLinks request := by
  unfold receive
  split <;> rfl

theorem receive_soft (kind : ResultKind) (canceled : Bool) (request : PublicRequest) :
    Soft request (receive kind canceled request) := by
  unfold receive
  split
  · exact ⟨rfl, .inl rfl⟩
  · exact ⟨rfl, .inl rfl⟩

theorem progress_advances (answer : ProgressAnswer) :
    Advances address api (api.progress address answer).1 := by
  unfold progress
  split
  · exact .refl api
  · rename_i request found
    split
    · exact .refl api
    · rename_i active
      have active := Bool.eq_false_iff.2 active
      split
      · exact .refl api
      · -- The request runs from here on.
        have runs : Advances address api (api.editRequest address run) := by
          refine edit_advances (fun _ => rfl) fun record known => ⟨rfl, .inr ⟨?_, rfl⟩⟩
          rwa [← Option.some.inj (found.symm.trans known)]
        have known := edit_found run found
        dsimp only
        split
        · exact runs
        · split
          · exact runs
          · exact runs
          · split
            · exact runs.trans ((settle_advances _ known rfl rfl).trans abort_advances)
            · exact runs.trans (edit_advances (receive_links _ _) fun _ _ => receive_soft _ _ _)
          · exact runs.trans (complete_advances _ _ known rfl)

/-! ## The loops -/

theorem settle_result {request later : PublicRequest} (found : api.requests address = some request)
    (after : (api.settle address state status).requests address = some later) :
    later.result = request.result := by
  simp only [settle, editRequest, accountTerminal, found, Option.map_some, Function.update_self]
    at after
  split at after
  · simp only [Function.update_self] at after
    exact Option.some.inj after ▸ rfl
  · simp only [Function.update_self] at after
    exact Option.some.inj after ▸ rfl

theorem complete_result {request own later : PublicRequest}
    {described : Bool} (found : api.requests address = some own)
    (after : (api.complete address request status described).requests address = some later) :
    later.result = own.result := by
  unfold complete at after
  refine settle_result ?_ after
  split_ifs <;> simp only [editOwnStatement_requests, found]

theorem abort_requests : (api.abortActiveRequest address).requests = api.requests := by
  unfold abortActiveRequest
  split <;> rfl

/-- A request without a result that has one behind its progress is active. -/
theorem progress_result {answer : ProgressAnswer} {request : PublicRequest}
    (found : (api.progress address answer).1.requests address = some request)
    (empty : api.hasResult address = false) (active : api.isActive address = true)
    (ready : request.result.isSome = true) : request.state.terminal = false := by
  cases before : api.requests address with
  | none => simp [isActive, before] at active
  | some old =>
      have running := (isActive_iff before).1 active
      have plain : old.result = none := by simpa [hasResult, before] using empty
      have known := edit_found run before
      simp only [progress, before, running, plain, Bool.false_eq_true, if_false,
        Option.isSome_none] at found
      split at found
      · rw [known] at found
        exact Option.some.inj found ▸ rfl
      · split at found
        · rw [known] at found
          exact Option.some.inj found ▸ rfl
        · rw [known] at found
          exact Option.some.inj found ▸ rfl
        · split at found
          · rw [abort_requests] at found
            rw [settle_result known found] at ready
            exact absurd (ready.symm.trans (congrArg Option.isSome plain)) nofun
          · rw [edit_found _ known] at found
            cases found
            unfold receive
            split <;> rfl
        · rw [complete_result known found] at ready
          exact absurd (ready.symm.trans (congrArg Option.isSome plain)) nofun

theorem putBack_advances (collected : Option ResultKind) :
    Advances address api (api.putBack address collected) := by
  unfold putBack
  split
  · exact .refl api
  · exact setResult_advances collected

theorem cancelLoop_advances (answers : List ProgressAnswer) :
    Advances address api (api.cancelLoop address answers) := by
  induction answers generalizing api with
  | nil => exact .refl api
  | cons answer rest induction =>
      unfold cancelLoop
      dsimp only
      split
      · exact progress_advances answer
      · exact (progress_advances answer).trans induction

theorem requestCancel_advances (sent : Bool) (answers : List ProgressAnswer) :
    Advances address api (api.requestCancel address sent answers) := by
  unfold requestCancel
  split
  · exact .refl api
  · split
    · exact .refl api
    · dsimp only
      split
      · exact cancelMark_advances
      · exact cancelMark_advances.trans (cancelLoop_advances answers)

theorem retireRound_advances (copy : UnclaimedCopy) (answer : ProgressAnswer) :
    Advances address api (api.retireRound address copy answer).1 := by
  unfold retireRound
  dsimp only
  have cleared : Advances address api (api.setResult address none) := setResult_advances none
  split
  · exact cleared
  · exact cleared
  · dsimp only
    split
    · exact (cleared.trans (progress_advances answer)).trans (setResult_advances none)
    · exact cleared.trans (progress_advances answer)

theorem retire_advances (answers : List (UnclaimedCopy × ProgressAnswer)) :
    Advances address api (api.retire address answers) := by
  induction answers generalizing api with
  | nil => exact .refl api
  | cons answer rest induction =>
      obtain ⟨copy, answer⟩ := answer
      unfold retire
      dsimp only
      split
      · exact (retireRound_advances copy answer).trans induction
      · exact retireRound_advances copy answer

theorem endRequest_advances (answers : DestroyAnswers) :
    Advances address api (api.endRequest address answers) ∧
      (api.endRequest address answers).isActive address = false := by
  unfold endRequest
  split
  · rename_i inactive
    exact ⟨.refl api, inactive⟩
  · dsimp only
    have first : Advances address api (if api.isCancelRequested address = true then api else
        api.requestCancel address answers.sent answers.cancel) := by
      split
      · exact .refl api
      · exact requestCancel_advances _ _
    generalize (if api.isCancelRequested address = true then api else
      api.requestCancel address answers.sent answers.cancel) = canceled at first ⊢
    have retired := first.trans (retire_advances answers.retire)
    split
    · rename_i inactive
      exact ⟨retired, inactive⟩
    · rename_i active
      generalize canceled.retire address answers.retire = middle at active retired ⊢
      have aborted : Advances address middle (middle.abortActiveRequest address) := abort_advances
      cases found : middle.requests address with
      | none =>
          simp [isActive, found] at active
      | some request =>
          have state := (isActive_iff found).1 (by simpa using active)
          have known : (middle.abortActiveRequest address).requests address = some request := by
            simp [abortActiveRequest, found, editConnection]
          exact ⟨(retired.trans aborted).trans (settle_advances _ known state rfl),
            settle_inactive _ known rfl⟩

/-- A request hands out at most one result in a call. -/
def Gives (address : ℕ) (before after : Api) : Prop :=
  Advances address before after ∨ ∃ middle kind given, Advances address before middle ∧
    middle.attachLease address kind = some given ∧ Advances address given after

theorem Gives.after {before middle after : Api} (advances : Advances address before middle)
    (gives : Gives address middle after) : Gives address before after := by
  obtain plain | ⟨ready, kind, given, first, attached, last⟩ := gives
  · exact .inl (advances.trans plain)
  · exact .inr ⟨ready, kind, given, advances.trans first, attached, last⟩

theorem waitFinish_gives (wanted : Bool) (collected : Option ResultKind) :
    Gives address api (api.waitFinish address wanted collected) := by
  unfold waitFinish
  split
  · rename_i request kind found
    split
    · split
      · split
        · rename_i given attached
          exact .inr ⟨api, kind, given, .refl api, attached, .refl given⟩
        · exact .inl (setResult_advances _)
      · exact .inl (setResult_advances _)
    · exact .inl (.refl api)
  · exact .inl (.refl api)

theorem waitLoop_gives (wanted : Bool) {answers : List ProgressAnswer}
    {collected : Option ResultKind}
    (ready : collected.isSome = true →
      api.hasResult address = false ∧ api.isActive address = true) :
    Gives address api (api.waitLoop address wanted answers collected) := by
  induction answers generalizing api collected with
  | nil => exact .inl (putBack_advances collected)
  | cons answer rest induction =>
      unfold waitLoop
      dsimp only
      have went : Advances address api (api.progress address answer).1 := progress_advances answer
      have result := @progress_result api address answer
      generalize api.progress address answer = progressed at went result ⊢
      obtain ⟨middle, fine⟩ := progressed
      dsimp only at went result ⊢
      split
      · exact .inl (went.trans (putBack_advances collected))
      · split
        · exact .inl went
        · rename_i request found
          split
          · rename_i kind own
            split
            · exact .inl went
            · split
              · rename_i before
                obtain ⟨empty, active⟩ := ready before
                have running := result found empty active (by rw [own]; rfl)
                exact .inl ((went.trans (settle_advances _ found running rfl)).trans
                  abort_advances)
              · have cleared : Advances address middle (middle.setResult address none) :=
                  setResult_advances none
                split
                · exact (waitFinish_gives wanted _).after (went.trans cleared)
                · rename_i running
                  refine (induction ?_).after (went.trans cleared)
                  simp [hasResult, isActive, setResult, editRequest, found, running]
          · rename_i own
            split
            · exact (waitFinish_gives wanted _).after went
            · rename_i running
              refine (induction ?_).after went
              simp [hasResult, isActive, found, own, running]

theorem requestWait_gives (wanted : Bool) (answers : List ProgressAnswer) :
    Gives address api (api.requestWait address wanted answers) := by
  unfold requestWait
  split
  · exact .inl (.refl api)
  · split
    · exact .inl (.refl api)
    · exact waitLoop_gives wanted nofun

theorem nextLoop_gives (answers : List ProgressAnswer) :
    Gives address api (api.nextLoop address answers) := by
  induction answers generalizing api with
  | nil => exact .inl (.refl api)
  | cons answer rest induction =>
      unfold nextLoop
      dsimp only
      have went : Advances address api (api.progress address answer).1 := progress_advances answer
      split
      · exact .inl went
      · split
        · exact .inl went
        · split
          · rename_i kind own
            unfold transferResult
            split
            · rename_i given attached
              exact .inr ⟨_, kind, given, went, attached, setResult_advances none⟩
            · exact .inl went
          · split
            · exact .inl went
            · exact induction.after went

theorem requestNextResult_gives (answers : List ProgressAnswer) :
    Gives address api (api.requestNextResult address answers) := by
  unfold requestNextResult
  split
  · exact .inl (.refl api)
  · exact nextLoop_gives answers

end Postgamma.Embedded.Api
