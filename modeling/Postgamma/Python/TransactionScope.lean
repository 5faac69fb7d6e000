import Mathlib

/-!
# Transaction scopes

`Connection.transaction` and its asynchronous sibling over a session as PostgreSQL keeps it: a failing
statement turns an open transaction into a failed one, and a `COMMIT` of a failed transaction rolls it
back without an error.  A body is the list of its calls, each with the choice of the body to catch the
exception of the call.
-/

namespace Postgamma.Python

variable {ε : Type}

/-- `transaction_status`. -/
inductive TransactionStatus
  | idle
  | inTransaction
  | inError
  deriving DecidableEq

/-- What an ordinary statement comes to in a session that takes it. -/
inductive WorkOutcome
  | succeeds
  /-- It succeeds and breaks a deferred constraint, so that the transaction cannot be committed. -/
  | violates
  | fails
  deriving DecidableEq

/-- The commands of a session. -/
inductive SqlCommand (ε : Type)
  | begin
  | commit
  | rollback
  | work (effect : ε) (outcome : WorkOutcome)

/-- A session: the effects of its open transaction and the committed ones. -/
structure Session (ε : Type) where
  status : TransactionStatus
  work : List ε
  violated : Bool
  committed : List ε

namespace Session

/-- The open transaction ends without its effects. -/
def abandon (session : Session ε) : Session ε := ⟨.idle, [], false, session.committed⟩

/-- A command and whether it completes without an error. -/
def run (session : Session ε) : SqlCommand ε → Session ε × Bool
  | .begin =>
      match session.status with
      | .idle => (⟨.inTransaction, [], false, session.committed⟩, true)
      | .inTransaction => (session, true)
      | .inError => (session, false)
  | .commit =>
      match session.status with
      | .idle => (session, true)
      | .inTransaction =>
          if session.violated then (session.abandon, false)
          else (⟨.idle, [], false, session.committed ++ session.work⟩, true)
      | .inError => (session.abandon, true)
  | .rollback =>
      match session.status with
      | .idle => (session, true)
      | _ => (session.abandon, true)
  | .work effect outcome =>
      match session.status, outcome with
      | .idle, .succeeds => (⟨.idle, [], false, session.committed ++ [effect]⟩, true)
      | .idle, _ => (session, false)
      | .inTransaction, .succeeds =>
          (⟨.inTransaction, session.work ++ [effect], session.violated, session.committed⟩, true)
      | .inTransaction, .violates =>
          (⟨.inTransaction, session.work ++ [effect], true, session.committed⟩, true)
      | .inTransaction, .fails => (⟨.inError, session.work, session.violated, session.committed⟩, false)
      | .inError, _ => (session, false)

end Session

/-- The exceptions of the calls. -/
inductive ScopeError
  | interface
  | programming
  | database
  /-- The body raises it by itself. -/
  | body
  deriving DecidableEq

/-- `Connection`. -/
structure Connection (ε : Type) where
  session : Session ε
  autocommit : Bool
  closed : Bool
  closePending : Bool
  scopeActive : Bool

/-- The connection behind a call, with the exception that the call raises. -/
abbrev Call (ε : Type) := Connection ε × Option ScopeError

namespace Connection

def withSession (connection : Connection ε) (session : Session ε) : Connection ε :=
  { connection with session := session }

/-- `_transaction_scope_active` is set. -/
def withScope (connection : Connection ε) (active : Bool) : Connection ε :=
  { connection with scopeActive := active }

/-- `_require_open` passes. -/
def isOpen (connection : Connection ε) : Bool := !connection.closed && !connection.closePending

def nativeExecute (connection : Connection ε) (command : SqlCommand ε) : Call ε :=
  let (session, completed) := connection.session.run command
  (connection.withSession session, if completed then none else some .database)

/-- `execute` of an ordinary statement. -/
def execute (connection : Connection ε) (effect : ε) (outcome : WorkOutcome) : Call ε :=
  if !connection.isOpen then (connection, some .interface)
  else if !connection.autocommit && connection.session.status = .idle then
    match connection.nativeExecute .begin with
    | (begun, none) => begun.nativeExecute (.work effect outcome)
    | failed => failed
  else connection.nativeExecute (.work effect outcome)

/-- `commit` and `rollback`. -/
def settle (connection : Connection ε) (command : SqlCommand ε) : Call ε :=
  if !connection.isOpen then (connection, some .interface)
  else if connection.scopeActive then (connection, some .programming)
  else if connection.session.status ≠ .idle then connection.nativeExecute command
  else (connection, none)

def commit (connection : Connection ε) : Call ε := connection.settle .commit

def rollback (connection : Connection ε) : Call ε := connection.settle .rollback

/-- `close` of a connection without requests, whose native close succeeds. -/
def close (connection : Connection ε) : Call ε :=
  if connection.closed then (connection, none)
  else if connection.scopeActive then (connection, some .programming)
  else
    let settled :=
      if connection.closePending || connection.session.status = .idle then connection
      else (connection.nativeExecute .rollback).1
    ({ settled with closed := true, closePending := false }, none)

def claimTransactionScope (connection : Connection ε) : Call ε :=
  if !connection.isOpen then (connection, some .interface)
  else if connection.scopeActive then (connection, some .programming)
  else if connection.session.status ≠ .idle then (connection, some .programming)
  else (connection.withScope true, none)

def enterTransactionScope (connection : Connection ε) : Call ε :=
  match connection.claimTransactionScope with
  | (claimed, none) =>
      match claimed.nativeExecute .begin with
      | (begun, none) => (begun, none)
      | (failed, error) => (failed.withScope false, error)
  | refused => refused

def completeTransactionScope (connection : Connection ε) (commit : Bool) : Call ε :=
  if !connection.isOpen then (connection, some .interface)
  else if connection.session.status ≠ .idle then
    connection.nativeExecute (if commit then .commit else .rollback)
  else (connection, none)

end Connection

/-- How a scope is left. -/
inductive ScopeExit
  | returned
  | bodyRaised (error : ScopeError)
  | cleanupRaised (error : ScopeError)
  deriving DecidableEq

/-- `_TransactionContext` and `_AsyncTransactionContext`. -/
inductive ScopeKind
  | sync
  | async
  deriving DecidableEq

namespace Connection

/-- `_TransactionContext.__exit__` behind a body. -/
def exitSync (connection : Connection ε) : Option ScopeError → Connection ε × ScopeExit
  | none =>
      match connection.completeTransactionScope true with
      | (after, none) => (after.withScope false, .returned)
      | (after, some error) => (after.withScope false, .cleanupRaised error)
  | some raised =>
      ((connection.completeTransactionScope false).1.withScope false, .bodyRaised raised)

/-- `AsyncConnection._exit_transaction_scope` behind a body. -/
def exitAsync (connection : Connection ε) (raised : Option ScopeError) :
    Connection ε × ScopeExit :=
  let left : ScopeExit :=
    match raised with
    | none => .returned
    | some error => .bodyRaised error
  if !connection.isOpen then (connection.withScope false, .cleanupRaised .interface)
  else if connection.session.status ≠ .idle then
    match connection.nativeExecute (if raised = none then .commit else .rollback) with
    | (after, some error) =>
        (after.withScope false, if raised = none then .cleanupRaised error else left)
    | (after, none) => (after.withScope false, left)
  else (connection.withScope false, left)

def exitScope (connection : Connection ε) (raised : Option ScopeError) :
    ScopeKind → Connection ε × ScopeExit
  | .sync => connection.exitSync raised
  | .async => connection.exitAsync raised

end Connection

/-- A call in the body of a scope; an exception that is not caught leaves the body. -/
inductive BodyStep (ε : Type)
  | execute (effect : ε) (outcome : WorkOutcome) (caught : Bool)
  /-- A statement that is refused before it is sent, as for a parameter without an encoding. -/
  | refused (caught : Bool)
  | commit (caught : Bool)
  | rollback (caught : Bool)
  | close (caught : Bool)
  /-- Another scope on the connection. -/
  | nested (caught : Bool)
  | raise

namespace BodyStep

def call (connection : Connection ε) : BodyStep ε → Call ε
  | execute effect outcome _ => connection.execute effect outcome
  | refused _ => (connection, some .programming)
  | commit _ => connection.commit
  | rollback _ => connection.rollback
  | close _ => connection.close
  | nested _ => connection.enterTransactionScope
  | raise => (connection, some .body)

/-- The body goes on behind an exception of the step. -/
def caught : BodyStep ε → Bool
  | execute _ _ caught | refused caught | commit caught | rollback caught | close caught
  | nested caught => caught
  | raise => false

/-- The effects of a step that succeeds. -/
def effects : BodyStep ε → List ε
  | execute effect _ _ => [effect]
  | _ => []

end BodyStep

/-- What a body has come to: the effects of the statements that succeeded in it and the exception that
left it. -/
structure BodyRun (ε : Type) where
  connection : Connection ε
  effects : List ε
  raised : Option ScopeError

def runBody (connection : Connection ε) : List (BodyStep ε) → BodyRun ε
  | [] => ⟨connection, [], none⟩
  | step :: rest =>
      match step.call connection with
      | (after, none) =>
          let later := runBody after rest
          ⟨later.connection, step.effects ++ later.effects, later.raised⟩
      | (after, some error) =>
          if step.caught then runBody after rest else ⟨after, [], some error⟩

section Body

variable {connection after : Connection ε} {step : BodyStep ε} {error : ScopeError}

theorem runBody_passed (called : step.call connection = (after, none)) (rest : List (BodyStep ε)) :
    runBody connection (step :: rest) = ⟨(runBody after rest).connection,
      step.effects ++ (runBody after rest).effects, (runBody after rest).raised⟩ := by
  rw [runBody, called]

theorem runBody_caught (called : step.call connection = (after, some error))
    (caught : step.caught = true) (rest : List (BodyStep ε)) :
    runBody connection (step :: rest) = runBody after rest := by
  simp only [runBody, called, caught, if_true]

theorem runBody_left (called : step.call connection = (after, some error))
    (caught : step.caught = false) (rest : List (BodyStep ε)) :
    runBody connection (step :: rest) = ⟨after, [], some error⟩ := by
  simp only [runBody, called, caught, Bool.false_eq_true, if_false]

end Body

/-- What a scope has come to. -/
structure ScopeRun (ε : Type) where
  body : BodyRun ε
  connection : Connection ε
  left : ScopeExit

/-- A scope with a body, with the exception of a scope that is not entered. -/
def runScope (kind : ScopeKind) (connection : Connection ε) (body : List (BodyStep ε)) :
    Except ScopeError (ScopeRun ε) :=
  match connection.enterTransactionScope with
  | (_, some error) => .error error
  | (entered, none) =>
      let run := runBody entered body
      let (after, left) := run.connection.exitScope run.raised kind
      .ok ⟨run, after, left⟩

/-- A connection in a scope whose statements have had some effects over committed ones. -/
structure Connection.InScope (committed effects : List ε) (connection : Connection ε) : Prop where
  closed : connection.closed = false
  closePending : connection.closePending = false
  scopeActive : connection.scopeActive = true
  committed : connection.session.committed = committed
  status : connection.session.status = .inTransaction ∧ connection.session.work = effects ∨
    connection.session.status = .inError

namespace Connection.InScope

variable {committed effects : List ε} {connection : Connection ε}

theorem isOpen (inside : connection.InScope committed effects) : connection.isOpen = true := by
  simp only [Connection.isOpen, inside.closed, inside.closePending, Bool.not_false, Bool.and_self]

theorem active (inside : connection.InScope committed effects) :
    connection.session.status ≠ .idle := by
  rcases inside.status with ⟨status, -⟩ | status
  · rw [status]
    decide
  · rw [status]
    decide

theorem settle (inside : connection.InScope committed effects) (command : SqlCommand ε) :
    connection.settle command = (connection, some .programming) := by
  simp only [Connection.settle, inside.isOpen, inside.scopeActive, Bool.not_true, Bool.false_eq_true,
    if_false, if_true]

theorem close (inside : connection.InScope committed effects) :
    connection.close = (connection, some .programming) := by
  simp only [Connection.close, inside.closed, inside.scopeActive, Bool.false_eq_true, if_false,
    if_true]

theorem nested (inside : connection.InScope committed effects) :
    connection.enterTransactionScope = (connection, some .programming) := by
  simp only [enterTransactionScope, claimTransactionScope, inside.isOpen, inside.scopeActive,
    Bool.not_true, Bool.false_eq_true, if_false, if_true]

/-- A statement has its effect in the open transaction, or it fails with the transaction. -/
theorem execute (inside : connection.InScope committed effects) (effect : ε)
    (outcome : WorkOutcome) :
    (connection.execute effect outcome).1.InScope committed
      (effects ++ if (connection.execute effect outcome).2 = none then [effect] else []) := by
  have sent : connection.execute effect outcome = connection.nativeExecute (.work effect outcome) := by
    simp [Connection.execute, inside.isOpen, inside.active]
  rw [sent]
  rcases inside.status with ⟨status, work⟩ | status
  · cases outcome with
    | succeeds =>
        simp only [nativeExecute, Session.run, status, withSession, if_true]
        exact ⟨inside.closed, inside.closePending, inside.scopeActive, inside.committed,
          .inl ⟨rfl, by rw [work]⟩⟩
    | violates =>
        simp only [nativeExecute, Session.run, status, withSession, if_true]
        exact ⟨inside.closed, inside.closePending, inside.scopeActive, inside.committed,
          .inl ⟨rfl, by rw [work]⟩⟩
    | fails =>
        simp only [nativeExecute, Session.run, status, withSession]
        exact ⟨inside.closed, inside.closePending, inside.scopeActive, inside.committed, .inr rfl⟩
  · simp only [nativeExecute, Session.run, status, withSession]
    exact ⟨inside.closed, inside.closePending, inside.scopeActive, inside.committed, .inr status⟩

theorem call (inside : connection.InScope committed effects) (step : BodyStep ε) :
    (step.call connection).1.InScope committed
      (effects ++ if (step.call connection).2 = none then step.effects else []) := by
  have stays : ∀ {error : ScopeError}, step.call connection = (connection, some error) →
      (step.call connection).1.InScope committed
        (effects ++ if (step.call connection).2 = none then step.effects else []) := by
    intro error same
    rw [same, if_neg (Option.some_ne_none error), List.append_nil]
    exact inside
  cases step with
  | execute effect outcome caught => exact inside.execute effect outcome
  | refused caught => exact stays rfl
  | commit caught => exact stays (inside.settle .commit)
  | rollback caught => exact stays (inside.settle .rollback)
  | close caught => exact stays inside.close
  | nested caught => exact stays inside.nested
  | raise => exact stays rfl

theorem runBody (inside : connection.InScope committed effects) (body : List (BodyStep ε)) :
    (runBody connection body).connection.InScope committed
      (effects ++ (runBody connection body).effects) := by
  induction body generalizing connection effects with
  | nil => simpa only [Python.runBody, List.append_nil] using inside
  | cons step rest induction =>
      have after := inside.call step
      rcases called : step.call connection with ⟨next, _ | error⟩
      · rw [called, if_pos rfl] at after
        have later := induction after
        rw [List.append_assoc] at later
        rw [runBody_passed called]
        exact later
      · rw [called, if_neg (Option.some_ne_none error), List.append_nil] at after
        cases caught : step.caught with
        | true =>
            rw [runBody_caught called caught]
            exact induction after
        | false =>
            rw [runBody_left called caught, List.append_nil]
            exact after

end Connection.InScope

/-- A statement that succeeds in an open transaction. -/
def BodyStep.Succeeds : BodyStep ε → Prop
  | execute _ outcome _ => outcome ≠ .fails
  | _ => False

/-- A step behind which the body goes on with its transaction open. -/
def BodyStep.Passes (step : BodyStep ε) : Prop :=
  step.Succeeds ∨ (∀ effect outcome caught, step ≠ .execute effect outcome caught) ∧
    step.caught = true

/-- A body that catches the failure of a statement and returns. -/
def Fails (before : List (BodyStep ε)) (body : List (BodyStep ε)) : Prop :=
  ∃ effect after, body = before ++ .execute effect .fails true :: after ∧
    (∀ step ∈ before, step.Passes) ∧ ∀ step ∈ after, step.caught = true

/-- A body that returns behind a statement that succeeded and one that failed later on. -/
def Swallows (body : List (BodyStep ε)) : Prop :=
  ∃ before, Fails before body ∧ ∃ step ∈ before, step.Succeeds

/-- What a body leaves behind in a failed transaction. -/
def BodyRun.Swallowed (run : BodyRun ε) : Prop :=
  run.raised = none ∧ run.connection.session.status = .inError

theorem fails_cons {step : BodyStep ε} {before rest : List (BodyStep ε)} :
    Fails before (step :: rest) ↔
      (before = [] ∧ (∃ effect, step = .execute effect .fails true) ∧
        ∀ later ∈ rest, later.caught = true) ∨
      ∃ earlier, before = step :: earlier ∧ step.Passes ∧ Fails earlier rest := by
  constructor
  · rintro ⟨effect, after, same, passes, caught⟩
    cases before with
    | nil =>
        obtain ⟨rfl, rfl⟩ := List.cons.inj same
        exact .inl ⟨rfl, ⟨effect, rfl⟩, caught⟩
    | cons first earlier =>
        obtain ⟨rfl, rfl⟩ := List.cons.inj same
        exact .inr ⟨earlier, rfl, passes step (by simp), effect, after, rfl,
          fun other member => passes other (by simp [member]), caught⟩
  · rintro (⟨rfl, ⟨effect, rfl⟩, caught⟩ | ⟨earlier, rfl, first, effect, after, rfl, passes, caught⟩)
    · exact ⟨effect, rest, rfl, by simp, caught⟩
    · refine ⟨effect, after, rfl, fun other member => ?_, caught⟩
      rcases List.mem_cons.mp member with rfl | member
      · exact first
      · exact passes other member

theorem fails_passes {step : BodyStep ε} {before rest : List (BodyStep ε)}
    (other : ∀ effect, step ≠ .execute effect .fails true) :
    Fails before (step :: rest) ↔
      ∃ earlier, before = step :: earlier ∧ step.Passes ∧ Fails earlier rest := by
  rw [fails_cons]
  exact or_iff_right fun both => both.2.1.elim other

namespace Connection.InScope

variable {committed effects : List ε} {connection : Connection ε}

/-- In a failed transaction every call raises. -/
theorem call_inError (inside : connection.InScope committed effects)
    (status : connection.session.status = .inError) (step : BodyStep ε) :
    ∃ error, step.call connection = (connection, some error) := by
  cases step with
  | execute effect outcome caught =>
      refine ⟨.database, ?_⟩
      simp [BodyStep.call, Connection.execute, inside.isOpen, status, nativeExecute, Session.run,
        withSession]
  | refused caught => exact ⟨_, rfl⟩
  | commit caught => exact ⟨_, inside.settle .commit⟩
  | rollback caught => exact ⟨_, inside.settle .rollback⟩
  | close caught => exact ⟨_, inside.close⟩
  | nested caught => exact ⟨_, inside.nested⟩
  | raise => exact ⟨_, rfl⟩

theorem runBody_inError (inside : connection.InScope committed effects)
    (status : connection.session.status = .inError) (body : List (BodyStep ε)) :
    (Python.runBody connection body).effects = [] ∧
      ((Python.runBody connection body).Swallowed ↔ ∀ step ∈ body, step.caught = true) := by
  induction body with
  | nil => exact ⟨rfl, iff_of_true ⟨rfl, status⟩ (by simp)⟩
  | cons step rest induction =>
      obtain ⟨error, called⟩ := inside.call_inError status step
      cases caught : step.caught with
      | true =>
          rw [runBody_caught called caught]
          simpa [caught] using induction
      | false =>
          rw [runBody_left called caught]
          refine ⟨rfl, iff_of_false (fun swallowed => ?_) fun all => ?_⟩
          · cases swallowed.1
          · cases caught.symm.trans (all step (by simp))

/-- A step in an open transaction: it succeeds, it fails with the transaction, or nothing is sent. -/
theorem call_inTransaction (inside : connection.InScope committed effects)
    (status : connection.session.status = .inTransaction) (step : BodyStep ε) :
    step.Succeeds ∧ (step.call connection).2 = none ∧
        (step.call connection).1.session.status = .inTransaction ∨
      (∃ effect caught error, step = .execute effect .fails caught ∧
        (step.call connection).2 = some error ∧
        (step.call connection).1.session.status = .inError) ∨
      (∀ effect outcome caught, step ≠ .execute effect outcome caught) ∧
        ∃ error, step.call connection = (connection, some error) := by
  have plain : ∀ {error : ScopeError}, step.call connection = (connection, some error) →
      (∀ effect outcome caught, step ≠ .execute effect outcome caught) →
      (∀ effect outcome caught, step ≠ .execute effect outcome caught) ∧
        ∃ error, step.call connection = (connection, some error) :=
    fun same other => ⟨other, _, same⟩
  cases step with
  | execute effect outcome caught =>
      have sent : (BodyStep.execute effect outcome caught).call connection =
          connection.nativeExecute (.work effect outcome) := by
        simp [BodyStep.call, Connection.execute, inside.isOpen, status]
      rw [sent]
      cases outcome with
      | succeeds =>
          refine .inl ⟨by simp [BodyStep.Succeeds], ?_, ?_⟩ <;>
            simp [nativeExecute, Session.run, status, withSession]
      | violates =>
          refine .inl ⟨by simp [BodyStep.Succeeds], ?_, ?_⟩ <;>
            simp [nativeExecute, Session.run, status, withSession]
      | fails =>
          refine .inr (.inl ⟨effect, caught, .database, rfl, ?_, ?_⟩) <;>
            simp [nativeExecute, Session.run, status, withSession]
  | refused caught => exact .inr (.inr (plain rfl (by simp)))
  | commit caught => exact .inr (.inr (plain (inside.settle .commit) (by simp)))
  | rollback caught => exact .inr (.inr (plain (inside.settle .rollback) (by simp)))
  | close caught => exact .inr (.inr (plain inside.close (by simp)))
  | nested caught => exact .inr (.inr (plain inside.nested (by simp)))
  | raise => exact .inr (.inr (plain rfl (by simp)))

/-- A body returns in a failed transaction when it swallows a failure, and what has been lost then is
what succeeded in front of the failure. -/
theorem runBody_inTransaction (inside : connection.InScope committed effects)
    (status : connection.session.status = .inTransaction) (body : List (BodyStep ε)) :
    ((Python.runBody connection body).Swallowed ↔ ∃ before, Fails before body) ∧
      ∀ before, Fails before body →
        ((Python.runBody connection body).effects ≠ [] ↔ ∃ step ∈ before, step.Succeeds) := by
  induction body generalizing connection effects with
  | nil =>
      refine ⟨iff_of_false (fun swallowed => ?_) ?_, ?_⟩
      · cases status.symm.trans swallowed.2
      · rintro ⟨before, effect, after, same, -⟩
        simp at same
      · rintro before ⟨effect, after, same, -⟩
        simp at same
  | cons step rest induction =>
      have next := inside.call step
      obtain ⟨succeeds, called, later⟩ | ⟨effect, caught, error, rfl, called, later⟩ |
        ⟨plain, error, called⟩ := inside.call_inTransaction status step
      · -- The step succeeds, so that a failure behind it is one of the rest.
        rcases same : step.call connection with ⟨after, other⟩
        rw [same] at called later next
        cases called
        obtain ⟨swallowed, lost⟩ := induction next later
        have different : ∀ effect, step ≠ .execute effect .fails true := by
          rintro effect rfl
          exact succeeds rfl
        rw [runBody_passed same]
        refine ⟨swallowed.trans ?_, fun before fails => ?_⟩
        · simp only [fails_passes different]
          constructor
          · rintro ⟨before, fails⟩
            exact ⟨step :: before, before, rfl, .inl succeeds, fails⟩
          · rintro ⟨_, before, -, -, fails⟩
            exact ⟨before, fails⟩
        · obtain ⟨earlier, rfl, -, -⟩ := (fails_passes different).mp fails
          refine iff_of_true ?_ ⟨step, by simp, succeeds⟩
          cases step with
          | execute effect outcome caught => simp [BodyStep.effects]
          | refused | commit | rollback | close | nested | raise => cases succeeds
      · rcases same : (BodyStep.execute effect .fails caught).call connection with ⟨after, other⟩
        rw [same] at called later next
        cases called
        obtain ⟨empty, swallowed⟩ := next.runBody_inError later rest
        have first : ∀ before, Fails before (.execute effect .fails caught :: rest) ↔
            before = [] ∧ caught = true ∧ ∀ step ∈ rest, step.caught = true := by
          intro before
          rw [fails_cons]
          constructor
          · rintro (⟨rfl, ⟨other, same⟩, all⟩ | ⟨earlier, rfl, passes, -⟩)
            · cases same
              exact ⟨rfl, rfl, all⟩
            · exact (passes.elim (fun succeeds => succeeds rfl) fun plain =>
                plain.1 _ _ _ rfl).elim
          · rintro ⟨rfl, rfl, all⟩
            exact .inl ⟨rfl, ⟨effect, rfl⟩, all⟩
        cases caught with
        | true =>
            rw [runBody_caught same rfl, swallowed, empty]
            refine ⟨⟨fun all => ⟨[], (first []).mpr ⟨rfl, rfl, all⟩⟩, ?_⟩, fun before fails => ?_⟩
            · rintro ⟨before, fails⟩
              exact ((first before).mp fails).2.2
            · obtain ⟨rfl, -⟩ := (first before).mp fails
              simp
        | false =>
            rw [runBody_left same rfl]
            refine ⟨iff_of_false (fun swallowed => ?_) ?_, fun before fails => ?_⟩
            · cases swallowed.1
            · rintro ⟨before, fails⟩
              cases ((first before).mp fails).2.1
            · cases ((first before).mp fails).2.1
      · have different : ∀ effect, step ≠ .execute effect .fails true :=
          fun effect => plain effect .fails true
        cases caught : step.caught with
        | true =>
            obtain ⟨swallowed, lost⟩ := induction inside status
            rw [runBody_caught called caught]
            refine ⟨swallowed.trans ?_, fun before fails => ?_⟩
            · simp only [fails_passes different]
              constructor
              · rintro ⟨before, fails⟩
                exact ⟨step :: before, before, rfl, .inr ⟨plain, caught⟩, fails⟩
              · rintro ⟨_, before, -, -, fails⟩
                exact ⟨before, fails⟩
            · obtain ⟨earlier, rfl, -, fails⟩ := (fails_passes different).mp fails
              rw [lost earlier fails, List.exists_mem_cons_iff]
              refine (or_iff_right fun succeeds => ?_).symm
              cases step with
              | execute effect outcome chosen => exact plain effect outcome chosen rfl
              | refused | commit | rollback | close | nested | raise => exact succeeds
        | false =>
            have none : ∀ before, ¬Fails before (step :: rest) := by
              intro before fails
              obtain ⟨earlier, rfl, passes, -⟩ := (fails_passes different).mp fails
              rcases passes with succeeds | passes
              · cases step with
                | execute effect outcome chosen => exact plain effect outcome chosen rfl
                | refused | commit | rollback | close | nested | raise => exact succeeds
              · cases caught.symm.trans passes.2
            rw [runBody_left called caught]
            refine ⟨iff_of_false (fun swallowed => ?_) fun some => ?_, fun before fails =>
              absurd fails (none before)⟩
            · cases swallowed.1
            · exact some.elim none

end Connection.InScope

/-! ## The exit of a scope -/

/-- A connection on which a scope can be entered. -/
structure Connection.Ready (connection : Connection ε) : Prop where
  closed : connection.closed = false
  closePending : connection.closePending = false
  scopeActive : connection.scopeActive = false
  status : connection.session.status = .idle

theorem Connection.Ready.enter {connection : Connection ε} (ready : connection.Ready) :
    ∃ entered, connection.enterTransactionScope = (entered, none) ∧
      entered.InScope connection.session.committed [] ∧
      entered.session.status = .inTransaction := by
  refine ⟨(connection.withScope true).withSession
    ⟨.inTransaction, [], false, connection.session.committed⟩, ?_,
    ⟨ready.closed, ready.closePending, rfl, rfl, .inl ⟨rfl, rfl⟩⟩, rfl⟩
  simp [enterTransactionScope, claimTransactionScope, isOpen, ready.closed, ready.closePending,
    ready.scopeActive, ready.status, nativeExecute, withScope, withSession, Session.run]

/-- The end of the transaction of a scope. -/
def Session.leave (session : Session ε) : Option ScopeError → Session ε × ScopeExit
  | none =>
      let (settled, completed) := session.run .commit
      (settled, if completed then .returned else .cleanupRaised .database)
  | some error => (session.abandon, .bodyRaised error)

variable {session : Session ε}

theorem Session.run_rollback (active : session.status ≠ .idle) :
    session.run .rollback = (session.abandon, true) := by
  rw [run]
  cases status : session.status with
  | idle => exact absurd status active
  | inTransaction => rfl
  | inError => rfl

/-- Both scopes end the transaction in the same way. -/
theorem Connection.InScope.exitScope {committed effects : List ε} {connection : Connection ε}
    (inside : connection.InScope committed effects) (raised : Option ScopeError)
    (kind : ScopeKind) :
    connection.exitScope raised kind =
      ((connection.withSession (connection.session.leave raised).1).withScope false,
        (connection.session.leave raised).2) := by
  have closing (command : SqlCommand ε) : connection.nativeExecute command =
      (connection.withSession (connection.session.run command).1,
        if (connection.session.run command).2 then none else some .database) := rfl
  have complete (commit : Bool) : connection.completeTransactionScope commit =
      connection.nativeExecute (if commit then .commit else .rollback) := by
    simp [completeTransactionScope, inside.isOpen, inside.active]
  cases kind with
  | sync =>
      cases raised with
      | none =>
          simp only [Connection.exitScope, exitSync, complete, if_true, closing, Session.leave]
          cases (connection.session.run .commit).2 <;> rfl
      | some error =>
          simp only [Connection.exitScope, exitSync, complete, Bool.false_eq_true, if_false, closing,
            Session.run_rollback inside.active, Session.leave]
  | async =>
      cases raised with
      | none =>
          simp only [Connection.exitScope, exitAsync, inside.isOpen, Bool.not_true,
            Bool.false_eq_true, if_false, ne_eq, inside.active, not_false_eq_true, if_true, closing,
            Session.leave]
          cases (connection.session.run .commit).2 <;> rfl
      | some error =>
          simp only [Connection.exitScope, exitAsync, inside.isOpen, Bool.not_true,
            Bool.false_eq_true, if_false, ne_eq, inside.active, not_false_eq_true, if_true, closing,
            reduceCtorEq, Session.run_rollback inside.active, Session.leave]

/-- What a scope promises over the connection in front of it. -/
structure ScopeRun.Meets (run : ScopeRun ε) (before : Connection ε) : Prop where
  /-- Behind a scope that raises nothing the effects of its statements are committed. -/
  commits : run.left = .returned →
    run.connection.session.committed = before.session.committed ++ run.body.effects
  /-- Behind an exception of the body none is. -/
  aborts : ∀ error, run.left = .bodyRaised error →
    run.connection.session.committed = before.session.committed
  ready : run.connection.Ready

theorem Session.leave_inTransaction (status : session.status = .inTransaction) :
    session.leave none = if session.violated then (session.abandon, .cleanupRaised .database)
      else (⟨.idle, [], false, session.committed ++ session.work⟩, .returned) := by
  cases violated : session.violated <;> simp [leave, run, status, violated]

theorem Session.leave_inError (status : session.status = .inError) :
    session.leave none = (session.abandon, .returned) := by
  simp only [leave, run, status, if_true]

theorem Session.leave_idle (active : session.status ≠ .idle)
    (raised : Option ScopeError) : (session.leave raised).1.status = .idle := by
  cases raised with
  | some error => rfl
  | none =>
      cases status : session.status with
      | idle => exact absurd status active
      | inTransaction =>
          rw [leave_inTransaction status]
          split_ifs <;> rfl
      | inError => rw [leave_inError status]; rfl

/-- A scope that is entered keeps its promise unless its body returns in a failed transaction in which
statements had succeeded. -/
theorem runScope_meets (kind : ScopeKind) {connection entered : Connection ε}
    (enter : connection.enterTransactionScope = (entered, none))
    (start : entered.InScope connection.session.committed []) (body : List (BodyStep ε)) :
    ∃ run, runScope kind connection body = .ok run ∧
      (run.Meets connection ↔
        ¬((runBody entered body).Swallowed ∧ (runBody entered body).effects ≠ [])) := by
  have inside := start.runBody body
  rw [List.nil_append] at inside
  simp only [runScope, enter]
  refine ⟨_, rfl, ?_⟩
  generalize runBody entered body = run at inside ⊢
  rw [inside.exitScope]
  have settled : ((run.connection.withSession (run.connection.session.leave run.raised).1).withScope
      false).Ready :=
    ⟨inside.closed, inside.closePending, rfl, Session.leave_idle inside.active run.raised⟩
  cases raised : run.raised with
  | some error =>
      rw [raised] at settled
      refine iff_of_true ⟨fun other => ?_, fun _ _ => inside.committed, settled⟩ fun swallowed => ?_
      · cases other
      · cases raised.symm.trans swallowed.1.1
  | none =>
      rw [raised] at settled
      rcases inside.status with ⟨status, work⟩ | status
      · refine iff_of_true ⟨fun returned => ?_, fun error other => ?_, settled⟩ fun swallowed => ?_
        · simp only [Session.leave_inTransaction status] at returned ⊢
          split_ifs at returned ⊢
          simp only [Connection.withScope, Connection.withSession, work, inside.committed]
        · simp only [Session.leave_inTransaction status] at other
          split_ifs at other
        · cases status.symm.trans swallowed.1.2
      · constructor
        · intro meets swallowed
          have same := meets.commits (by rw [Session.leave_inError status])
          simp only [Session.leave_inError status, Connection.withScope, Connection.withSession,
            Session.abandon, inside.committed] at same
          exact swallowed.2 (List.append_right_eq_self.mp same.symm)
        · intro kept
          have empty : run.effects = [] := by
            by_contra some
            exact kept ⟨⟨raised, status⟩, some⟩
          refine ⟨fun _ => ?_, fun error other => ?_, settled⟩
          · simp only [Session.leave_inError status, Connection.withScope, Connection.withSession,
              Session.abandon, inside.committed, empty, List.append_nil]
          · simp only [Session.leave_inError status] at other
            cases other

/-- A scope keeps its promise exactly when its body does not swallow the failure of a statement behind
one that succeeded. -/
theorem runScope_meets_iff (kind : ScopeKind) (connection : Connection ε) (ready : connection.Ready)
    (body : List (BodyStep ε)) :
    ∃ run, runScope kind connection body = .ok run ∧ (run.Meets connection ↔ ¬Swallows body) := by
  obtain ⟨entered, enter, start, status⟩ := ready.enter
  obtain ⟨run, same, meets⟩ := runScope_meets kind enter start body
  obtain ⟨swallowed, lost⟩ := start.runBody_inTransaction status body
  refine ⟨run, same, meets.trans (not_congr ?_)⟩
  rw [swallowed]
  constructor
  · rintro ⟨⟨before, fails⟩, effects⟩
    exact ⟨before, fails, (lost before fails).mp effects⟩
  · rintro ⟨before, fails, succeeds⟩
    exact ⟨⟨before, fails⟩, (lost before fails).mpr succeeds⟩

def Connection.fresh : Connection ε := ⟨⟨.idle, [], false, []⟩, false, false, false, false⟩

theorem Connection.fresh_ready : (Connection.fresh : Connection ε).Ready := ⟨rfl, rfl, rfl, rfl⟩

theorem runScope_meets_iff_caught :
    ∃ run, runScope .async Connection.fresh
        [.execute 1 .succeeds false, .execute 2 .fails true, .execute 3 .succeeds false] = .ok run ∧
      (run.Meets Connection.fresh ↔ ¬Swallows
        [.execute 1 .succeeds false, .execute 2 .fails true, .execute 3 .succeeds false]) :=
  runScope_meets_iff .async Connection.fresh Connection.fresh_ready _

/-- A body that swallows a failed statement behind one that succeeded returns, and nothing of it is
committed. -/
theorem swallowed_failure_loses :
    ¬∀ (kind : ScopeKind) (connection : Connection ℕ), connection.Ready → ∀ body,
      ∃ run, runScope kind connection body = .ok run ∧ run.Meets connection := by
  intro claimed
  obtain ⟨run, same, meets⟩ := claimed .sync Connection.fresh Connection.fresh_ready
    [.execute 1 .succeeds false, .execute 2 .fails true]
  cases same
  have committed := meets.commits rfl
  exact absurd committed (by decide)

end Postgamma.Python
