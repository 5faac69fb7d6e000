import Mathlib
import Postgamma.Embedded.ObjectOwnership

/-!
# Runs of the public interface

What any sequence of calls keeps: the counters of the requests and the ownership of the objects.
-/

namespace Postgamma.Embedded.Api

variable {api : Api} {address : ℕ} {spared : Option ℕ}

theorem gives_sound {after : Api} (gives : Gives address api after) (sound : api.Sound spared) :
    after.Sound spared := by
  obtain plain | ⟨middle, kind, given, first, attached, last⟩ := gives
  · exact advances_sound plain sound
  · exact advances_sound last (attachLease_sound (advances_sound first sound) attached)

/-- The request behind its progress. -/
theorem advances_found {before after : Api} (advances : Advances address before after)
    {request : PublicRequest} (found : before.requests address = some request) :
    ∃ later, after.requests address = some later ∧ later.activeCopy = request.activeCopy ∧
      later.freePending = request.freePending := by
  obtain ⟨later, known, links⟩ := found_of_map advances.own.symm found
  simp only [requestLinks, Prod.mk.injEq] at links
  exact ⟨later, known, links.2.2.1, links.2.2.2⟩

theorem requestDestroy_sound (sound : api.Sound none) {request : PublicRequest}
    (found : api.requests address = some request) (answers : DestroyAnswers)
    (apart : ∀ place copy, api.copies place = some copy → copy.request ≠ address) :
    (api.requestDestroy address answers).Sound none := by
  unfold requestDestroy
  obtain ⟨advances, inactive⟩ := @endRequest_advances api address answers
  obtain ⟨later, known, -, -⟩ := advances_found advances found
  refine removeRequest_sound (advances_sound advances sound) known ?_ ?_
  · simpa [isActive, known] using inactive
  · intro place copy there own
    rw [advances.copies] at there
    exact absurd own (apart place copy there)

theorem requestFree_sound (sound : api.Sound none) (held : api.holds address = true)
    (answers : DestroyAnswers) : (api.requestFree address answers).Sound none := by
  unfold requestFree
  split
  · exact sound
  rename_i request found
  split
  · exact freePending_sound sound
  · rename_i idle
    have kept : request.freePending = false := by simpa [holds, found] using held
    have idle : request.activeCopy = none := by simpa using idle
    exact requestDestroy_sound sound found answers fun place copy there =>
      no_copies sound found idle kept there

theorem cancelStep_sound (sound : api.Sound none) (submitted dispatched : Bool)
    (answer : ProgressAnswer) :
    (api.cancelStep address submitted dispatched answer).Sound none := by
  unfold cancelStep
  split
  · exact sound
  rename_i request found
  dsimp only
  have marked := advances_sound (@submitCancel_advances api address request submitted) sound
  split
  · exact marked
  · exact advances_sound (progress_advances answer) marked

/-- A step of the release leaves the request alone or ends it. -/
theorem releaseStep_cases (submitted dispatched : Bool) (copy : UnclaimedCopy)
    (answer : ProgressAnswer) :
    ∃ middle, Advances address api middle ∧
      (api.releaseStep address submitted dispatched copy answer = (middle, false) ∨
        middle.isActive address = false ∧ (middle.requests address).isSome = true ∧
        api.releaseStep address submitted dispatched copy answer =
          (middle.removeRequest address, true)) := by
  unfold releaseStep
  split
  · exact ⟨api, .refl api, .inl rfl⟩
  rename_i request found
  split
  · exact ⟨api, .refl api, .inl rfl⟩
  dsimp only
  have cleared : Advances address api
      ((api.submitCancel address request submitted).setResult address none) :=
    (submitCancel_advances request submitted).trans (setResult_advances none)
  have live : ∀ {middle : Api}, Advances address api middle →
      (middle.requests address).isSome = true := by
    intro middle advances
    rw [isSome_of_map advances.own, found]
    rfl
  split
  · exact ⟨_, cleared, .inl rfl⟩
  · split
    · rename_i ended
      exact ⟨_, cleared, .inr ⟨ended.1, live cleared, rfl⟩⟩
    · exact ⟨_, cleared, .inl rfl⟩
  · have went := cleared.trans (progress_advances answer)
    split
    · rename_i ended
      exact ⟨_, went, .inr ⟨ended.2.1, live went, rfl⟩⟩
    · exact ⟨_, went, .inl rfl⟩

theorem removeRequest_copies : (api.removeRequest address).copies = api.copies := by
  unfold removeRequest
  split
  · rfl
  · rename_i request found
    have detached := (@pointers_frame api (clearConnection address) (clearStatement address)
      clearStatement_home request (api.detach address request) rfl).1
    dsimp only
    rw [leaseRelease_shape, disown, detached]

theorem releaseStep_sound (sound : api.Sound spared)
    (apart : ∀ place copy, api.copies place = some copy → copy.request = address →
      spared = some place) (submitted dispatched : Bool) (copy : UnclaimedCopy)
    (answer : ProgressAnswer) :
    (api.releaseStep address submitted dispatched copy answer).1.Sound spared := by
  obtain ⟨middle, advances, kept | ⟨inactive, live, gone⟩⟩ :=
    @releaseStep_cases api address submitted dispatched copy answer
  · rw [kept]
    exact advances_sound advances sound
  · rw [gone]
    obtain ⟨request, found⟩ := Option.isSome_iff_exists.1 live
    refine removeRequest_sound (advances_sound advances sound) found ?_ ?_
    · simpa [isActive, found] using inactive
    · rw [advances.copies]
      exact apart

theorem copyClose_sound (sound : api.Sound none) (place : ℕ) (drained : Bool)
    (answers : DestroyAnswers) : (api.copyClose place drained answers).Sound none := by
  unfold copyClose
  split
  · exact sound
  rename_i copy found
  split
  · exact sound
  rename_i request live
  split
  · exact sound
  rename_i guard
  simp only [not_or, not_not] at guard
  -- The active COPY object of the request has not been released.
  obtain ⟨record, there, -, open'⟩ := sound.linked.activeCopies _ request place live guard.2
  cases found.symm.trans there
  obtain ⟨known, lives, later, closed, released, -⟩ := releaseCopy_sound sound found open'
  cases live.symm.trans lives
  have gone := removeCopy_sound released closed rfl
  dsimp only
  split
  · refine requestDestroy_sound gone later answers ?_
    intro other record left own
    obtain ⟨different, before⟩ := removed left
    exact different (released.linked.single other place record (closeCopy copy) before closed own)
  · exact gone

theorem copyCloseStep_sound (sound : api.Sound none) (place : ℕ)
    (drained submitted dispatched : Bool) (unclaimed : UnclaimedCopy) (answer : ProgressAnswer) :
    (api.copyCloseStep place drained submitted dispatched unclaimed answer).Sound none := by
  unfold copyCloseStep
  split
  · exact sound
  rename_i copy found
  split
  · exact sound
  -- Behind the first part the COPY object is released, and only it belongs to its request.
  have parted : ∃ record request,
      (if copy.released = true then api else api.releaseCopy place copy).copies place =
        some record ∧ record.released = true ∧ record.request = copy.request ∧
      (if copy.released = true then api else api.releaseCopy place copy).requests copy.request =
        some request ∧
      (if copy.released = true then api else api.releaseCopy place copy).Sound (some place) ∧
      (request.freePending = true →
        (if copy.released = true then api else api.releaseCopy place copy).Sound none) := by
    split
    · rename_i released
      obtain ⟨request, live, -⟩ := sound.linked.copies place copy found nofun
      exact ⟨copy, request, found, released, rfl, live,
        ⟨sound.accounted, sound.fresh, { sound.linked with
          copies := fun other record there _ => sound.linked.copies other record there nofun },
          sound.leased⟩, fun _ => sound⟩
    · rename_i open'
      obtain ⟨request, -, later, closed, released, pending⟩ :=
        releaseCopy_sound sound found (Bool.eq_false_iff.2 open')
      exact ⟨_, _, closed, rfl, rfl, later, released, pending⟩
  dsimp only
  generalize (if copy.released = true then api else api.releaseCopy place copy) = middle at parted ⊢
  obtain ⟨record, request, closed, released, same, live, spare, waits⟩ := parted
  split
  · rename_i pending
    have pending : request.freePending = true := by simpa [isFreePending, live] using pending
    have apart : ∀ other copy', middle.copies other = some copy' → copy'.request = copy.request →
        some place = some other := fun other copy' there own =>
      congrArg some (spare.linked.single place other record copy' closed there (same.trans own.symm))
    obtain ⟨after, advances, kept | ⟨inactive, there, gone⟩⟩ :=
      @releaseStep_cases middle copy.request submitted dispatched unclaimed answer
    · rw [kept]
      exact advances_sound advances (waits pending)
    · rw [gone]
      have removedRequest := releaseStep_sound spare apart submitted dispatched unclaimed answer
      rw [gone] at removedRequest
      have there : (after.removeRequest copy.request).copies place = some record := by
        rw [removeRequest_copies, advances.copies]
        exact closed
      exact removeCopy_sound removedRequest there released
  · exact removeCopy_sound spare closed released

theorem started_sound {connection : ℕ} {mode : RequestMode} {statement : Option ℕ}
    {chunked possible : Bool} (sound : api.Sound none) :
    ((api.requestStart connection mode statement chunked possible).getD api).Sound none := by
  cases started : api.requestStart connection mode statement chunked possible with
  | none => exact sound
  | some after => exact requestStart_sound sound started

theorem statementPrepareAsync_sound (sound : api.Sound none) (connection : ℕ) (possible : Bool) :
    (api.statementPrepareAsync connection possible).Sound none := by
  unfold statementPrepareAsync
  split
  · exact sound
  · rename_i after started
    refine requestStart_sound ?_ started
    cases found : api.connections connection with
    | none =>
        have missing : (api.addStatement connection false).connections connection = none :=
          none_edited.2 found
        rw [requestStart, missing] at started
        cases started
    | some record => exact addStatement_sound sound found false

theorem copyIo_sound (sound : api.Sound none) (place : ℕ) (ended : Bool) :
    (api.editCopy place fun copy => { copy with ioEnded := ended }).Sound none := by
  have view : ∀ {other copy}, (api.editCopy place fun copy =>
      { copy with ioEnded := ended }).copies other = some copy →
      ∃ old, api.copies other = some old ∧ old.request = copy.request ∧
        old.released = copy.released ∧ old.lease = copy.lease := by
    intro other copy there
    obtain ⟨old, rfl, known, rfl⟩ | ⟨-, known⟩ := edited there
    · exact ⟨old, known, rfl, rfl, rfl⟩
    · exact ⟨copy, known, rfl, rfl, rfl⟩
  refine ⟨{ sound.accounted with }, { sound.fresh with
    copies := fun other behind => none_edited.2 (sound.fresh.copies other behind) }, ?_, ?_⟩
  · refine { sound.linked with copies := ?_, activeCopies := ?_, single := ?_, copyLease := ?_ }
    · intro other copy there notSpared
      obtain ⟨old, known, request, released, -⟩ := view there
      rw [← request, ← released]
      exact sound.linked.copies other old known notSpared
    · intro other request pointer there points
      obtain ⟨record, lives, own, open'⟩ :=
        sound.linked.activeCopies other request pointer there points
      by_cases same : pointer = place
      · subst same
        refine ⟨{ record with ioEnded := ended }, ?_, own, open'⟩
        simp [editCopy, lives]
      · exact ⟨record, (Function.update_of_ne same _ _).trans lives, own, open'⟩
    · intro first second firstCopy secondCopy firstFound secondFound equal
      obtain ⟨firstOld, firstKnown, firstSame, -⟩ := view firstFound
      obtain ⟨secondOld, secondKnown, secondSame, -⟩ := view secondFound
      exact sound.linked.single first second firstOld secondOld firstKnown secondKnown
        (firstSame.trans (equal.trans secondSame.symm))
    · intro other copy there
      obtain ⟨old, known, request, released, lease⟩ := view there
      rw [← request, ← released, ← lease]
      exact sound.linked.copyLease other old known
  · refine ⟨fun other => ?_, sound.leased.freedNodup⟩
    have same : (api.editCopy place fun copy => { copy with ioEnded := ended }).objects other =
        api.objects other := by
      refine congrArg (tally (resultHolds other) api.next api.results + ·) (tally_congr ?_)
      intro index _
      by_cases own : index = place
      · subst own
        simp only [editCopy, Function.update_self]
        cases api.copies index <;> rfl
      · simp only [editCopy, Function.update_of_ne own]
    rw [same]
    exact sound.leased.fits other

theorem apply_sound (sound : api.Sound none) (call : ApiCall)
    (held : ∀ request, requestOf call = some request → api.holds request = true) :
    (api.apply call).Sound none := by
  cases call with
  | connectionOpen => exact connectionOpen_sound sound
  | connectionClose connection released => exact connectionClose_sound sound connection released
  | statementPrepare connection possible =>
      simp only [apply, statementPrepare]
      split
      · exact sound
      · rename_i record found
        split
        · exact sound
        · exact addStatement_sound sound found true
  | statementPrepareAsync connection possible =>
      exact statementPrepareAsync_sound sound connection possible
  | statementClose statement closed => exact statementClose_sound sound statement closed
  | statementCloseAsync statement possible =>
      simp only [apply, statementCloseAsync]
      split
      · exact sound
      · split
        · exact sound
        · exact started_sound sound
  | statementExecuteAsync statement chunked possible =>
      simp only [apply, statementExecuteAsync]
      split
      · exact sound
      · split
        · exact sound
        · exact started_sound sound
  | execute connection script chunked possible => exact started_sound sound
  | progress request answer => exact advances_sound (progress_advances answer) sound
  | wait request wanted answers => exact gives_sound (requestWait_gives wanted answers) sound
  | nextResult request answers => exact gives_sound (requestNextResult_gives answers) sound
  | cancel request sent answers => exact advances_sound (requestCancel_advances sent answers) sound
  | cancelStep request submitted dispatched answer =>
      exact cancelStep_sound sound submitted dispatched answer
  | releaseStep request submitted dispatched copy answer =>
      -- A request that was not given back has no COPY object, or the step does nothing.
      have holds := held request rfl
      cases found : api.requests request with
      | none => simp [Api.holds, found] at holds
      | some record =>
          have kept : record.freePending = false := by simpa [Api.holds, found] using holds
          cases busy : record.activeCopy with
          | some pointer =>
              simpa [apply, releaseStep, found, busy] using sound
          | none =>
              exact releaseStep_sound sound (fun place other there own =>
                absurd own (no_copies sound found busy kept there)) submitted dispatched copy answer
  | free request answers => exact requestFree_sound sound (held request rfl) answers
  | resultFree result => exact resultFree_sound sound result
  | takeCopy result possible => exact takeCopy_sound sound result possible
  | copyIo copy ended => exact copyIo_sound sound copy ended
  | copyClose copy drained answers => exact copyClose_sound sound copy drained answers
  | copyCloseStep copy drained submitted dispatched unclaimed answer =>
      exact copyCloseStep_sound sound copy drained submitted dispatched unclaimed answer

theorem step_sound {call : ApiCall} {after : Api} (sound : api.Sound none)
    (taken : api.step call = .ok (some after)) : after.Sound none := by
  unfold step at taken
  split at taken
  · rename_i none'
    cases taken
    exact apply_sound sound call (by rw [none']; nofun)
  · rename_i request own
    split at taken
    · rename_i holds
      cases taken
      refine apply_sound sound call fun other same => ?_
      rw [own] at same
      exact Option.some.inj same ▸ holds
    · cases taken

theorem empty_accounted : empty.Accounted := by
  refine ⟨List.nodup_nil, ?_, ?_, List.nodup_nil, ?_, ?_, ?_, ?_, ?_, rfl, rfl, rfl, rfl, rfl⟩ <;>
    simp [empty]

theorem tally_zero {α : Type} (test : α → Bool) (table : ℕ → α) : tally test 0 table = 0 :=
  Finset.sum_range_zero _

theorem empty_linked : empty.Linked none := by
  refine ⟨?_, ?_, ?_, fun _ _ => tally_zero _ _, (tally_zero _ _).symm, ?_, ?_, ?_, ?_⟩ <;>
    simp [empty]

theorem empty_leased : empty.Leased := by
  have objects : ∀ address, empty.objects address = 0 := fun address =>
    congrArg₂ (· + ·) (tally_zero _ _) (tally_zero _ _)
  refine ⟨fun address => ?_, List.nodup_nil⟩
  rw [objects]
  exact ⟨rfl, rfl, iff_of_false List.not_mem_nil List.not_mem_nil⟩

theorem empty_sound : empty.Sound none :=
  ⟨empty_accounted, ⟨fun _ _ => rfl, fun _ _ => rfl, fun _ _ => rfl, fun _ _ => rfl,
    fun _ _ => rfl, fun _ _ => rfl⟩, empty_linked, empty_leased⟩

theorem reached_sound (reached : api.Reached) : api.Sound none := by
  obtain ⟨calls, ran⟩ := reached
  exact runs_preserves step_sound empty_sound ran

/-- The entries of a ledger of ended requests are of the three last states. -/
theorem ledger_length {ledger : List (ℕ × RequestState)}
    (ended : ∀ entry ∈ ledger, entry.2.terminal = true) :
    ledger.length = ledger.countP (fun entry => entry.2 = .completed) +
      ledger.countP (fun entry => entry.2 = .canceled) +
      ledger.countP (fun entry => entry.2 = .failed) := by
  induction ledger with
  | nil => rfl
  | cons entry rest induction =>
      have own := ended entry List.mem_cons_self
      have rest := induction fun other member => ended other (List.mem_cons_of_mem _ member)
      obtain ⟨address, state⟩ := entry
      simp only [List.length_cons, List.countP_cons, rest]
      cases state with
      | pending => cases own
      | running => cases own
      | completed => simp; omega
      | canceled => simp; omega
      | failed => simp; omega

/-- The started requests that are not in the ledger are the active ones. -/
theorem active_length (accounted : api.Accounted) :
    (api.started.filter api.isActive).length + api.ledger.length = api.started.length := by
  have listed : (api.started.filter fun address => decide ¬api.isActive address = true).Perm
      (api.ledger.map Prod.fst) := by
    refine (List.perm_ext_iff_of_nodup (accounted.startedNodup.filter _)
      accounted.ledgerNodup).2 fun address => ?_
    rw [List.mem_filter]
    constructor
    · rintro ⟨member, inactive⟩
      cases found : api.requests address with
      | none => exact accounted.gone address member found
      | some request =>
          refine (accounted.marked address request found).2.1 ?_
          simpa [isActive, found] using inactive
    · intro member
      obtain ⟨entry, known, rfl⟩ := List.mem_map.1 member
      refine ⟨accounted.ledgerStarted entry known, ?_⟩
      cases found : api.requests entry.1 with
      | none => simp [isActive, found]
      | some request =>
          have ended := (accounted.marked _ request found).2.2 member
          simp [isActive, found, ended]
  have size : (api.ledger.map Prod.fst).length = api.ledger.length := List.length_map _
  rw [← size, ← listed.length_eq, ← List.countP_eq_length_filter, ← List.countP_eq_length_filter]
  exact (List.length_eq_countP_add_countP api.isActive).symm

/-- Every started request is active and in no counter, or it is in the one counter of the state that
it ended with, once; a start that fails is counted nowhere. -/
theorem request_accounting (reached : api.Reached) :
    api.requestCount =
        api.activeCount + api.completedCount + api.canceledCount + api.failedCount ∧
      api.activeCount = (api.started.filter api.isActive).length ∧
      (∀ address, api.isActive address = true → address ∈ api.started) ∧
      api.started.Nodup ∧ (api.ledger.map Prod.fst).Nodup ∧
      (∀ address, address ∈ api.ledger.map Prod.fst ↔
        address ∈ api.started ∧ api.isActive address = false) ∧
      (∀ address request state, api.requests address = some request →
        (address, state) ∈ api.ledger → request.state = state) ∧
      api.completedCount = api.ledger.countP (fun entry => entry.2 = .completed) ∧
      api.canceledCount = api.ledger.countP (fun entry => entry.2 = .canceled) ∧
      api.failedCount = api.ledger.countP (fun entry => entry.2 = .failed) ∧
      ∀ connection mode statement chunked,
        api.requestStart connection mode statement chunked false = none := by
  have accounted := (reached_sound reached).accounted
  have total := accounted.requestCount
  have active := accounted.activeCount
  have length := active_length accounted
  have split := ledger_length accounted.ledgerTerminal
  rw [← accounted.completedCount, ← accounted.canceledCount, ← accounted.failedCount] at split
  refine ⟨by omega, by omega, ?_, accounted.startedNodup, accounted.ledgerNodup, ?_,
    accounted.recorded, accounted.completedCount, accounted.canceledCount, accounted.failedCount,
    ?_⟩
  · intro address active
    cases found : api.requests address with
    | none => simp [isActive, found] at active
    | some request => exact accounted.live address request found
  · intro address
    constructor
    · intro member
      obtain ⟨entry, known, rfl⟩ := List.mem_map.1 member
      refine ⟨accounted.ledgerStarted entry known, ?_⟩
      cases found : api.requests entry.1 with
      | none => simp [isActive, found]
      | some request => simp [isActive, found, (accounted.marked _ request found).2.2 member]
    · rintro ⟨member, inactive⟩
      cases found : api.requests address with
      | none => exact accounted.gone address member found
      | some request =>
          exact (accounted.marked address request found).2.1 (by simpa [isActive, found] using inactive)
  · intro connection mode statement chunked
    unfold requestStart
    split
    · rfl
    · rw [if_pos (by simp)]

/-- A request is started, completes and is freed; a second one is freed before it completes. -/
theorem request_accounting_two : ∃ api : Api,
    runs step empty
        [.connectionOpen, .execute 0 false false true,
          .wait 1 true [.result .plain false true, .complete .ok false],
          .free 1 ⟨true, [], []⟩, .execute 0 false false true, .free 3 ⟨true, [], []⟩] = some api ∧
      api.completedCount = 1 ∧ api.failedCount = 1 ∧
      api.requestCount =
        api.activeCount + api.completedCount + api.canceledCount + api.failedCount := by
  have reached : Reached _ := ⟨[.connectionOpen, .execute 0 false false true,
    .wait 1 true [.result .plain false true, .complete .ok false],
    .free 1 ⟨true, [], []⟩, .execute 0 false false true, .free 3 ⟨true, [], []⟩], rfl⟩
  exact ⟨_, rfl, rfl, rfl, (request_accounting reached).1⟩

/-- A request whose start fails is in none of the counters. -/
theorem failed_start_uncounted : ∃ api : Api,
    runs step empty [.connectionOpen, .execute 0 false false false] = some api ∧
      api.requestCount = 0 ∧ api.completedCount = 0 ∧ api.canceledCount = 0 ∧
      api.failedCount = 0 :=
  ⟨_, rfl, rfl, rfl, rfl, rfl⟩

/-! ## Object ownership -/

/-- An object of a connection other than a result. -/
def Holds (api : Api) (connection : ℕ) : Prop :=
  (∃ address request, api.requests address = some request ∧ request.connection = connection) ∨
    (∃ address statement, api.statements address = some statement ∧
      statement.connection = connection) ∨
    ∃ address copy request, api.copies address = some copy ∧
      api.requests copy.request = some request ∧ request.connection = connection

theorem connectionClose_refused (sound : api.Sound none) {connection : ℕ}
    (holds : api.Holds connection) (released : Bool) :
    api.connectionClose connection released = api := by
  have busy : ∀ address request, api.requests address = some request →
      request.connection = connection → api.connectionClose connection released = api := by
    rintro address request found rfl
    obtain ⟨record, home, points⟩ := sound.linked.active address request found
    simp [connectionClose, home, points]
  obtain ⟨address, request, found, home⟩ | ⟨address, statement, found, home⟩ |
    ⟨_, copy, request, _, found, home⟩ := holds
  · exact busy address request found home
  · cases record : api.connections connection with
    | none => simp [connectionClose, record]
    | some own =>
        have counted := sound.linked.statementCount connection own record
        have some' : api.statementsOf connection ≠ 0 := by
          intro zero
          have each := tally_eq_zero_iff.1 zero address (statement_inside sound found)
          simp [found, belongs, home] at each
        simp [connectionClose, record, counted, some']
  · exact busy _ request found home

/-- A connection has at most one active request and a request at most one outstanding result or COPY
object, a lease counts its holders and is freed once, the counts of statements and connections are
right, and a close is refused while a request, statement or COPY object is alive. -/
theorem object_ownership (reached : api.Reached) :
    (∀ first second firstRequest secondRequest, api.requests first = some firstRequest →
      api.requests second = some secondRequest →
      firstRequest.connection = secondRequest.connection → first = second) ∧
    (∀ lease, api.objects lease ≤ 1) ∧
    (∀ address lease, api.leases address = some lease →
      lease.references = (api.requests address).isSome.toNat + api.objects address ∧
        0 < lease.references) ∧
    (api.freed.Nodup ∧ ∀ address ∈ api.started,
      address ∈ api.freed ↔ (api.requests address).isSome.toNat + api.objects address = 0) ∧
    api.Fresh ∧ api.connectionCount = tally Option.isSome api.next api.connections ∧
    (∀ address connection, api.connections address = some connection →
      connection.statementCount = tally (belongs address) api.next api.statements) ∧
    (∀ address copy, api.copies address = some copy →
      ∃ request, api.requests copy.request = some request) ∧
    ∀ connection released, api.Holds connection →
      api.connectionClose connection released = api := by
  have sound := reached_sound reached
  refine ⟨?_, ?_, ?_, ⟨sound.leased.freedNodup, ?_⟩, sound.fresh, sound.linked.connectionCount,
    sound.linked.statementCount, ?_,
    fun connection released holds => connectionClose_refused sound holds released⟩
  · intro first second firstRequest secondRequest firstFound secondFound same
    obtain ⟨one, oneHome, onePoints⟩ := sound.linked.active first firstRequest firstFound
    obtain ⟨two, twoHome, twoPoints⟩ := sound.linked.active second secondRequest secondFound
    rw [same, twoHome] at oneHome
    cases oneHome
    exact Option.some.inj (onePoints.symm.trans twoPoints)
  · intro lease
    have fits := sound.leased.fits lease
    cases found : api.leases lease with
    | none =>
        rw [found] at fits
        exact fits.2.1.trans_le (Nat.zero_le 1)
    | some record =>
        rw [found] at fits
        exact fits.2.2.1.trans_le (Bool.toNat_le _)
  · intro address lease found
    have fits := sound.leased.fits address
    rw [found] at fits
    exact ⟨fits.1, fits.2.1⟩
  · intro address member
    have fits := sound.leased.fits address
    cases found : api.leases address with
    | none =>
        rw [found] at fits
        obtain ⟨live, none', freed⟩ := fits
        rw [live, none']
        exact iff_of_true (freed.2 member) rfl
    | some record =>
        rw [found] at fits
        obtain ⟨references, positive, -, -, -, kept⟩ := fits
        exact iff_of_false kept (by omega)
  · intro address copy found
    obtain ⟨request, live, -⟩ := sound.linked.copies address copy found nofun
    exact ⟨request, live⟩

/-- A COPY object outlives the free of its request and holds its connection. -/
theorem object_ownership_copy : ∃ api : Api,
    runs step empty
        [.connectionOpen, .execute 0 false false true,
          .nextResult 1 [.result .copyOut false true], .takeCopy 2 true,
          .free 1 ⟨true, [], []⟩] = some api ∧
      (api.copies 3).isSome = true ∧ api.connectionClose 0 true = api := by
  have reached : Reached _ := ⟨[.connectionOpen, .execute 0 false false true,
    .nextResult 1 [.result .copyOut false true], .takeCopy 2 true, .free 1 ⟨true, [], []⟩], rfl⟩
  exact ⟨_, rfl, rfl, (object_ownership reached).2.2.2.2.2.2.2.2 0 true (.inl ⟨1, _, rfl, rfl⟩)⟩

/-- A result that is still alive does not hold its connection. -/
theorem close_with_live_result : ∃ api : Api,
    runs step empty
        [.connectionOpen, .execute 0 false false true,
          .wait 1 true [.result .plain false true, .complete .ok false],
          .free 1 ⟨true, [], []⟩] = some api ∧
      (api.results 2).isSome = true ∧ (api.connections 0).isSome = true ∧
      ((api.connectionClose 0 true).connections 0).isSome = false :=
  ⟨_, rfl, rfl, rfl, rfl⟩

end Postgamma.Embedded.Api
