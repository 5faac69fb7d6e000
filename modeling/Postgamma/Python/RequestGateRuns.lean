import Mathlib
import Postgamma.Python.RequestGate

/-!
# The gate is not leaked

What each function of the model does to a connection whose flags fit together. From that: in every
run in which no `CopyIn` is left with a failing `finish`, the gate is held exactly while a request
is open, and it is free behind every block and every call.
-/

namespace Postgamma
namespace Python
namespace RequestGate

variable {environment : Environment} {session after : Session} {α β : Type}

/-- The flags of the request and of its COPYs fit together, and the gate was released once for each
time it was acquired but for an open request. -/
structure Sound (session : Session) : Prop where
  handle : session.request.handle = !session.request.closed
  gate : session.request.ownsGate = !session.request.closed
  count : session.acquired = session.released + if session.request.closed then 0 else 1
  handles : ∀ index, (session.copy index).handle = !(session.copy index).closed
  attached : ∀ index, (session.copy index).closed = false →
    session.request.copyRef = some index
  first : session.request.closed = true → ∀ index, (session.copy index).closed = true

/-- Between two calls, a COPY that was closed before its end and a row stream were closed with
their request. -/
structure Settled (session : Session) : Prop where
  sound : Sound session
  ended : ∀ index, (session.copy index).closed = true → (session.copy index).ioEnded = false →
    session.request.closed = true
  stream : session.streamClosed = true → session.request.closed = true

/-- The request is closed and the gate is free. -/
structure Free (session : Session) : Prop where
  sound : Sound session
  closed : session.request.closed = true

/-- A call has raised, and the flags fit together. -/
structure Calm (raised : Raised) (session : Session) : Prop where
  goesOn : raised ≠ .blocked
  settled : Settled session

/-- A call has raised and closed the request. -/
structure Ended (raised : Raised) (session : Session) : Prop where
  calm : Calm raised session
  closed : raised.halts = false → session.request.closed = true

theorem Free.settled (free : Free session) : Settled session :=
  ⟨free.sound, fun _ _ _ => free.closed, fun _ => free.closed⟩

theorem Free.count (free : Free session) : session.acquired = session.released := by
  have count := free.sound.count
  rwa [if_pos free.closed, Nat.add_zero] at count

theorem Free.held (free : Free session) : session.held = false := by
  simp [Session.held, free.count]

variable {raised : Raised} {throws : Raised → Session → Prop} {returns : Unit → Session → Prop}
  {cleanup : Program Raised Session Unit}

theorem Free.ended (free : Free session) (goesOn : raised ≠ .blocked) : Ended raised session :=
  ⟨⟨goesOn, free.settled⟩, fun _ => free.closed⟩

theorem Settled.free (settled : Settled session) (closed : session.request.closed = true) :
    Free session :=
  ⟨settled.sound, closed⟩

theorem Sound.held (sound : Sound session) : session.held = !session.request.closed := by
  have count := sound.count
  cases closed : session.request.closed with
  | true =>
      rw [closed, if_pos rfl] at count
      simp [Session.held, count]
  | false =>
      rw [closed, if_neg Bool.false_ne_true] at count
      simp [Session.held, count]

theorem Sound.asked (sound : Sound session) : Sound session.asked :=
  ⟨sound.handle, sound.gate, sound.count, sound.handles, sound.attached, sound.first⟩

theorem Settled.asked (settled : Settled session) : Settled session.asked :=
  ⟨settled.sound.asked, settled.ended, settled.stream⟩

theorem Free.asked (free : Free session) : Free session.asked := ⟨free.sound.asked, free.closed⟩

/-- Nothing but answers happened. -/
def Same (session after : Session) : Prop := after = { session with calls := after.calls }

theorem Same.refl (session : Session) : Same session session := rfl

theorem Same.asked (same : Same session after) : Same session after.asked := by
  rw [Same] at same ⊢
  rw [same]
  rfl

theorem Same.trans {later : Session} (one : Same session after) (two : Same after later) :
    Same session later := by
  rw [Same] at one two ⊢
  rw [two, one]

theorem Same.settled (same : Same session after) (settled : Settled session) : Settled after := by
  rw [same]
  exact ⟨⟨settled.sound.handle, settled.sound.gate, settled.sound.count, settled.sound.handles,
    settled.sound.attached, settled.sound.first⟩, settled.ended, settled.stream⟩

theorem Same.copy (same : Same session after) (index : ℕ) :
    after.copy index = session.copy index := by
  rw [same]
  rfl

theorem copy_setCopy (session : Session) (index other : ℕ) (change : CopyState → CopyState) :
    (session.setCopy index change).copy other =
      if index = other ∧ other < session.copies.length then change (session.copy other)
      else session.copy other := by
  simp only [Session.copy, Session.setCopy, List.getD_eq_getElem?_getD, List.getElem?_modify]
  by_cases inside : other < session.copies.length
  · rw [List.getElem?_eq_getElem inside]
    by_cases same : index = other
    · simp [same, inside]
    · simp [same]
  · rw [List.getElem?_eq_none (Nat.le_of_not_lt inside)]
    simp [inside]

theorem Session.all_closed (session : Session) :
    (session.copies.all fun copy => copy.closed) = true ↔
      ∀ index, (session.copy index).closed = true := by
  simp only [List.all_eq_true, Session.copy, List.getD_eq_getElem?_getD]
  constructor
  · intro all index
    cases found : session.copies[index]? with
    | none => rfl
    | some copy => exact all copy (List.mem_of_getElem? found)
  · intro all copy member
    obtain ⟨index, found⟩ := List.mem_iff_getElem?.mp member
    have closed := all index
    rwa [found] at closed

theorem yields_ask_bind {answer : ℕ → α} {next : α → Program Raised Session β}
    {returns : β → Session → Prop}
    (holds : Yields (next (answer session.calls)) session.asked returns throws) :
    Yields (ask answer >>= next) session returns throws := holds

theorem yields_call {answer : ℕ → Bool}
    (succeeds : answer session.calls = true → returns () session.asked)
    (fails : answer session.calls = false → throws raised session.asked) :
    Yields (call answer raised) session returns throws := by
  refine yields_ask_bind ?_
  cases outcome : answer session.calls with
  | true => exact succeeds outcome
  | false => exact fails outcome

theorem yields_require {condition : Bool} (passes : condition = true → returns () session)
    (fails : condition = false → throws raised session) :
    Yields (require condition raised) session returns throws := by
  cases outcome : condition with
  | true => exact passes outcome
  | false => exact fails outcome

theorem yields_call_bind {answer : ℕ → Bool}
    {next : Unit → Program Raised Session β} {returns : β → Session → Prop}
    (succeeds : answer session.calls = true → Yields (next ()) session.asked returns throws)
    (fails : answer session.calls = false → throws raised session.asked) :
    Yields (call answer raised >>= next) session returns throws := by
  have attempt : Yields (call answer raised) session
      (fun _ after => answer session.calls = true ∧ after = session.asked) throws :=
    yields_call (fun ok => ⟨ok, rfl⟩) fails
  refine Yields.bind attempt ?_
  rintro ⟨⟩ _ ⟨ok, rfl⟩
  exact succeeds ok

theorem yields_release (held : session.held = true)
    (holds : returns () { session with released := session.released + 1 }) :
    Yields release session returns throws := by
  refine Yields.get_bind ?_
  rw [if_pos held]
  exact holds

theorem yields_require_bind {condition : Bool}
    {next : Unit → Program Raised Session β} {returns : β → Session → Prop}
    (passes : condition = true → Yields (next ()) session returns throws)
    (fails : condition = false → throws raised session) :
    Yields (require condition raised >>= next) session returns throws := by
  cases outcome : condition with
  | true => exact passes outcome
  | false => exact fails outcome

/-- A cleanup that does not raise. -/
theorem yields_guarded {body : Program Raised Session α}
    {returns : α → Session → Prop} {throws caught : Raised → Session → Prop}
    (attempt : Yields body session returns caught)
    (halts : ∀ raised after, caught raised after → raised.halts = true → throws raised after)
    (cleans : ∀ raised after, caught raised after → raised.halts = false →
      Yields cleanup after (fun _ final => throws raised final) fun _ _ => False) :
    Yields (guarded body cleanup) session returns throws := by
  refine Yields.tryCatch attempt fun raised after failed => ?_
  cases stopped : raised.halts with
  | true =>
      rw [if_pos rfl]
      exact Yields.throw (halts raised after failed stopped)
  | false =>
      rw [if_neg Bool.false_ne_true]
      have swallowed : Yields (preserving cleanup) after (fun _ final => throws raised final)
          fun _ _ => False :=
        Yields.tryCatch (cleans raised after failed stopped) fun _ _ => False.elim
      refine Yields.bind (swallowed.weaken (fun _ _ => id) fun _ _ => False.elim) ?_
      exact fun _ final holds => Yields.throw holds

/-- A cleanup in a `finally` that does not raise. -/
theorem yields_finallyDo {body : Program Raised Session α}
    {returns : α → Session → Prop}
    {throws caught : Raised → Session → Prop} {middle : α → Session → Prop}
    (attempt : Yields body session middle caught)
    (halts : ∀ raised after, caught raised after → raised.halts = true → throws raised after)
    (cleans : ∀ raised after, caught raised after → raised.halts = false →
      Yields cleanup after (fun _ final => throws raised final) fun _ _ => False)
    (closes : ∀ value after, middle value after →
      Yields cleanup after (fun _ final => returns value final) fun _ _ => False) :
    Yields (finallyDo body cleanup) session returns throws := by
  refine Yields.bind (yields_guarded attempt halts cleans) fun value after holds => ?_
  refine Yields.bind ((closes value after holds).weaken (fun _ _ => id) fun _ _ => False.elim) ?_
  exact fun _ final holds => Yields.pure holds

/-- The native layer closes a COPY and an idle request. -/
structure Environment.Closes (environment : Environment) : Prop where
  request : ∀ calls, environment.requestClose calls = true
  copy : ∀ calls, environment.copyClose calls = true

theorem Sound.copyClosed (sound : Sound session) (index : ℕ) :
    Sound (session.copyClosed index) := by
  refine ⟨sound.handle, sound.gate, sound.count, ?_, ?_, ?_⟩
  · intro other
    rw [Session.copyClosed, copy_setCopy]
    split_ifs
    · rfl
    · exact sound.handles other
  · intro other
    rw [Session.copyClosed, copy_setCopy]
    split_ifs
    · exact fun impossible => absurd impossible (by simp)
    · exact sound.attached other
  · intro closed other
    rw [Session.copyClosed, copy_setCopy]
    split_ifs
    · rfl
    · exact sound.first closed other

theorem copyClosed_closed (sound : Sound session) {index : ℕ}
    (opened : (session.copy index).closed = false) :
    ∀ other, ((session.copyClosed index).copy other).closed = true := by
  intro other
  rw [Session.copyClosed, copy_setCopy]
  split_ifs with same
  · rfl
  · by_contra open_
    have attached := sound.attached other (by simpa using open_)
    rw [sound.attached index opened] at attached
    obtain rfl := Option.some.inj attached
    have outside : session.copies.length ≤ index := by omega
    rw [Session.copy, List.getD_eq_default _ _ outside] at opened
    cases opened

/-- `Request.close` behind its COPY. -/
theorem retire_yields (closes : environment.Closes) (sound : Sound session)
    (opened : session.request.closed = false)
    (copies : ∀ index, (session.copy index).closed = true) :
    Yields (retire environment) session (fun _ => Free) fun _ _ => False := by
  have handle : session.request.handle = true := by simp [sound.handle, opened]
  have owns : session.request.ownsGate = true := by simp [sound.gate, opened]
  have all := session.all_closed.mpr copies
  have held : session.held = true := by simp [sound.held, opened]
  have count : session.acquired = session.released + 1 := by simpa [opened] using sound.count
  rw [retire]
  refine Yields.get_bind ?_
  rw [if_pos handle]
  refine yields_require_bind (fun _ => ?_) fun fails => by simp [all] at fails
  refine yields_call_bind (fun _ => ?_) fun fails => by simp [closes.request] at fails
  refine Yields.get_bind (Yields.modify_bind ?_)
  rw [if_pos (show session.asked.request.ownsGate = true from owns)]
  refine yields_release held ?_
  refine ⟨⟨rfl, rfl, ?_, sound.handles, ?_, fun _ => copies⟩, rfl⟩
  · exact count
  · intro index impossible
    exact absurd (impossible.symm.trans (copies index)) (by simp)

theorem releaseCopy_yields (closes : environment.Closes) (sound : Sound session) {index : ℕ}
    (opened : (session.copy index).closed = false) {throws : Raised → Session → Prop} :
    Yields (releaseCopy environment index) session
      (fun _ after => after = session.asked.copyClosed index) throws := by
  have handle : (session.copy index).handle = true := by simp [sound.handles, opened]
  refine Yields.get_bind ?_
  refine yields_require_bind (fun _ => ?_) fun fails => by simp [opened, handle] at fails
  refine yields_call_bind (fun _ => ?_) fun fails => by simp [closes.copy] at fails
  exact Yields.modified rfl

theorem closeRequest_idle (closes : environment.Closes) (sound : Sound session)
    (copies : ∀ index, (session.copy index).closed = true) (depth : ℕ) :
    Yields (closeRequest environment (depth + 1)) session (fun _ => Free) fun _ _ => False := by
  rw [closeRequest]
  refine Yields.get_bind ?_
  cases closed : session.request.closed with
  | true => exact Yields.pure ⟨sound, closed⟩
  | false =>
      have retired := retire_yields closes sound closed copies
      rw [if_neg Bool.false_ne_true]
      cases session.request.copyRef with
      | none => exact retired
      | some index =>
          dsimp only
          rwa [if_pos (copies index)]

theorem closeCopy_open (closes : environment.Closes) (sound : Sound session) {index : ℕ}
    (opened : (session.copy index).closed = false) (depth : ℕ) :
    Yields (closeCopy environment (depth + 2) index) session (fun _ => Free) fun _ _ => False := by
  rw [closeCopy]
  refine Yields.get_bind ?_
  rw [if_neg (by simp [opened])]
  have released := @releaseCopy_yields environment session closes sound index opened
    fun _ _ => False
  refine yields_finallyDo released (fun _ _ => False.elim) (fun _ _ => False.elim) ?_
  rintro _ _ rfl
  exact closeRequest_idle closes (sound.asked.copyClosed index)
    (copyClosed_closed sound.asked opened) depth

theorem closeRequest_yields (closes : environment.Closes) (sound : Sound session) (depth : ℕ) :
    Yields (closeRequest environment (depth + 3)) session (fun _ => Free) fun _ _ => False := by
  by_cases copies : ∀ index, (session.copy index).closed = true
  · exact closeRequest_idle closes sound copies (depth + 2)
  · obtain ⟨index, opened⟩ := not_forall.mp copies
    have opened : (session.copy index).closed = false := by simpa using opened
    have requestOpen : session.request.closed = false := by
      by_contra closed
      have all := sound.first (by simpa using closed) index
      rw [opened] at all
      cases all
    rw [closeRequest]
    refine Yields.get_bind ?_
    rw [if_neg (by simp [requestOpen]), sound.attached index opened]
    dsimp only
    rw [if_neg (by simp [opened])]
    refine Yields.bind (closeCopy_open closes sound opened depth) fun _ after free => ?_
    refine Yields.get_bind ?_
    rw [if_pos free.closed]
    exact Yields.pure free

theorem requestClose_yields (closes : environment.Closes) (sound : Sound session) :
    Yields (requestClose environment) session (fun _ => Free) fun _ _ => False :=
  closeRequest_yields closes sound 0

theorem copyClose_yields (closes : environment.Closes) (sound : Sound session) (index : ℕ) :
    Yields (copyClose environment index) session (fun _ => Free) fun _ _ => False := by
  cases opened : (session.copy index).closed with
  | false => exact closeCopy_open closes sound opened 2
  | true =>
      rw [copyClose, closeCopy]
      refine Yields.get_bind ?_
      rw [if_pos opened]
      cases closed : session.request.closed with
      | true => exact Yields.pure ⟨sound, closed⟩
      | false => exact closeRequest_yields closes sound 0

theorem guarded_requestClose (closes : environment.Closes) {body : Program Raised Session α}
    {returns : α → Session → Prop} (attempt : Yields body session returns Calm) :
    Yields (guarded body (requestClose environment)) session returns Ended := by
  refine yields_guarded attempt ?_ ?_
  · intro raised after calm stopped
    exact ⟨calm, fun goesOn => by simp [stopped] at goesOn⟩
  · intro raised after calm _
    exact (requestClose_yields closes calm.settled.sound).weaken
      (fun _ _ free => free.ended calm.goesOn) fun _ _ => False.elim

theorem finallyDo_closes {body : Program Raised Session α}
    (cleans : ∀ {state : Session}, Sound state →
      Yields cleanup state (fun _ => Free) fun _ _ => False)
    (attempt : Yields body session (fun _ => Sound) fun raised after =>
      raised ≠ .blocked ∧ Sound after ∧ (raised.halts = true → Settled after)) :
    Yields (finallyDo body cleanup) session (fun _ => Free) Ended := by
  refine yields_finallyDo attempt ?_ ?_ ?_
  · intro raised after holds stopped
    exact ⟨⟨holds.1, holds.2.2 stopped⟩, fun goesOn => by simp [stopped] at goesOn⟩
  · intro raised after holds _
    exact (cleans holds.2.1).weaken (fun _ _ free => free.ended holds.1) fun _ _ => False.elim
  · intro value after sound
    exact cleans sound

theorem preserving_yields (attempt : Yields cleanup session returns fun raised after =>
      raised.halts = false ∧ returns () after) :
    Yields (preserving cleanup) session returns fun _ _ => False := by
  refine Yields.tryCatch attempt ?_
  rintro raised after ⟨goesOn, holds⟩
  rw [if_neg (by simp [goesOn])]
  exact Yields.pure holds

theorem timedOut_yields (closes : environment.Closes) (settled : Settled session) :
    Yields (timedOut environment) session returns Ended := by
  have canceled : Yields (cancel environment) session (fun _ => Settled)
      fun raised after => raised.halts = false ∧ Settled after := by
    refine Yields.get_bind ?_
    split_ifs
    · exact Yields.pure settled
    · exact yields_call (fun _ => settled.asked) fun _ => ⟨rfl, settled.asked⟩
  refine Yields.bind ((preserving_yields canceled).weaken (fun _ _ => id) fun _ _ => False.elim)
    fun _ after kept => ?_
  have closed := requestClose_yields closes kept.sound
  have quiet := preserving_yields (closed.weaken (fun _ _ => id) fun _ _ => False.elim)
  refine Yields.bind (quiet.weaken (fun _ _ => id) fun _ _ => False.elim) fun _ final free => ?_
  exact Yields.throw (free.ended (by simp))

/-- An open request whose COPYs are closed. -/
structure Idle (session : Session) : Prop where
  settled : Settled session
  opened : session.request.closed = false
  copies : ∀ index, (session.copy index).closed = true

theorem requestNext_yields (settled : Settled session) (opened : session.request.closed = false) :
    Yields (requestNext environment) session (fun _ => Idle) Calm := by
  refine Yields.get_bind ?_
  refine yields_require_bind (fun all => ?_) fun _ => ⟨by simp, settled⟩
  refine yields_ask_bind ?_
  cases environment.next session.calls with
  | none => exact Yields.throw ⟨by simp, settled.asked⟩
  | some delivery =>
      exact Yields.pure ⟨settled.asked, opened, session.all_closed.mp all⟩

theorem dispatchEvents_yields (settled : Settled session) :
    Yields (dispatchEvents environment) session (fun _ after => after = session.asked) Calm :=
  yields_call (fun _ => rfl) fun _ => ⟨by simp, settled.asked⟩

/-- A delivery of an idle request, which `_take` does not give when it waits for another one. -/
structure Delivered (block : Bool) (delivery : Delivery) (session : Session) : Prop where
  idle : Idle session
  waited : ¬(delivery = .again ∧ block = true)

theorem takeLoop_yields (closes : environment.Closes) (block : Bool) (rounds : ℕ)
    (settled : Settled session) (opened : session.request.closed = false) :
    Yields (takeLoop environment block rounds) session (Delivered block) Ended := by
  induction rounds generalizing session with
  | zero => exact Yields.throw ⟨⟨by simp, settled⟩, by simp [Raised.halts]⟩
  | succ rounds induction =>
      have body : Yields (do
            let delivery ← guarded (requestNext environment) (requestClose environment)
            guarded (dispatchEvents environment) (requestClose environment)
            if delivery = .again ∧ block then takeLoop environment block rounds
            else return delivery) session.asked (Delivered block) Ended := by
        refine Yields.bind (guarded_requestClose closes (requestNext_yields settled.asked opened))
          fun delivery after idle => ?_
        have dispatched : Yields (dispatchEvents environment) after (fun _ => Idle) Calm := by
          refine (dispatchEvents_yields idle.settled).weaken ?_ fun _ _ => id
          rintro _ _ rfl
          exact ⟨idle.settled.asked, idle.opened, idle.copies⟩
        refine Yields.bind (guarded_requestClose closes dispatched) fun _ final kept => ?_
        split_ifs with again
        · exact induction kept.settled kept.opened
        · exact Yields.pure ⟨kept, again⟩
      rw [takeLoop]
      refine yields_ask_bind ?_
      split_ifs
      · exact Yields.bind (timedOut_yields closes settled.asked) fun _ _ => False.elim
      · exact body

theorem requireOpen_yields (settled : Settled session) :
    Yields requireOpen session
      (fun _ after => after = session ∧ session.request.closed = false) Ended := by
  refine Yields.get_bind (yields_require (fun passes => ?_) fun fails => ?_)
  · simp only [Bool.and_eq_true, Bool.not_eq_true'] at passes
    exact ⟨rfl, passes.1⟩
  · have closed : session.request.closed = true := by
      cases closed : session.request.closed with
      | true => rfl
      | false => simp [settled.sound.handle, closed] at fails
    exact (settled.free closed).ended (by simp)

theorem take_yields (closes : environment.Closes) (block : Bool) (rounds : ℕ)
    (settled : Settled session) :
    Yields (take environment block rounds) session (Delivered block) Ended := by
  refine Yields.bind (requireOpen_yields settled) ?_
  rintro _ _ ⟨rfl, opened⟩
  exact takeLoop_yields closes block rounds settled opened

theorem copy_attached (session : Session) (input : Bool) (index : ℕ) :
    (session.attached input).copy index =
      if index = session.copies.length then
        { handle := true, closed := false, input := input, ioEnded := false }
      else session.copy index := by
  simp only [Session.copy, Session.attached, List.getD_eq_getElem?_getD]
  split_ifs with same
  · rw [same, List.getElem?_append_right le_rfl, Nat.sub_self]
    rfl
  · obtain below | above := Nat.lt_or_gt_of_ne same
    · rw [List.getElem?_append_left below]
    · rw [List.getElem?_eq_none (by simp; omega), List.getElem?_eq_none (by omega)]

theorem Idle.attached (idle : Idle session) (input : Bool) : Settled (session.attached input) := by
  have sound := idle.settled.sound
  refine ⟨⟨sound.handle, sound.gate, sound.count, ?_, ?_, ?_⟩, ?_, idle.settled.stream⟩
  · intro index
    rw [copy_attached]
    split_ifs
    · rfl
    · exact sound.handles index
  · intro index opened
    rw [copy_attached] at opened
    split_ifs at opened with same
    · rw [same]
      rfl
    · rw [idle.copies index] at opened
      cases opened
  · intro closed
    have requestOpen : (session.attached input).request.closed = false := idle.opened
    rw [requestOpen] at closed
    cases closed
  · intro index closed notEnded
    rw [copy_attached] at closed notEnded
    split_ifs at closed notEnded
    exact idle.settled.ended index closed notEnded

theorem convert_yields (idle : Idle session) {delivery : Delivery} (again : delivery ≠ .again)
    (ended : delivery ≠ .ended) :
    Yields (convert delivery) session (fun item after => Settled after ∧ item ≠ none) throws := by
  cases delivery with
  | again => exact absurd rfl again
  | ended => exact absurd rfl ended
  | result rows => exact Yields.pure ⟨idle.settled, by simp⟩
  | copy input => exact ⟨idle.attached input, by simp⟩

theorem closedEnd_yields (closes : environment.Closes) (settled : Settled session) :
    Yields (do
        requestClose environment
        return none) session
      (fun (item : Option Item) after =>
        Settled after ∧ (item = none → after.request.closed = true)) throws := by
  refine Yields.bind ((requestClose_yields closes settled.sound).weaken (fun _ _ => id)
    fun _ _ => False.elim) fun _ after free => ?_
  exact Yields.pure ⟨free.settled, fun _ => free.closed⟩

/-- `next_result` gives an item, or nothing behind the end of the request. -/
theorem nextResult_yields (closes : environment.Closes) (rounds : ℕ) (settled : Settled session) :
    Yields (nextResult environment rounds) session
      (fun item after => Settled after ∧ (item = none → after.request.closed = true)) Ended := by
  refine Yields.bind (take_yields closes true rounds settled) fun delivery after delivered => ?_
  cases delivery with
  | ended => exact closedEnd_yields closes delivered.idle.settled
  | again => exact absurd ⟨rfl, rfl⟩ delivered.waited
  | result rows =>
      exact (convert_yields delivered.idle (by simp) (by simp)).weaken
        (fun _ _ holds => ⟨holds.1, fun none => absurd none holds.2⟩) fun _ _ => id
  | copy input =>
      exact (convert_yields delivered.idle (by simp) (by simp)).weaken
        (fun _ _ holds => ⟨holds.1, fun none => absurd none holds.2⟩) fun _ _ => id

theorem tryNext_yields (closes : environment.Closes) (rounds : ℕ) (settled : Settled session) :
    Yields (tryNext environment rounds) session (fun _ => Settled) Calm := by
  refine Yields.bind ((take_yields closes false rounds settled).weaken (fun _ _ => id)
    fun _ _ ended => ended.calm) fun delivery after delivered => ?_
  cases delivery with
  | ended =>
      exact (closedEnd_yields closes delivered.idle.settled).weaken (fun _ _ holds => holds.1)
        fun _ _ => id
  | again => exact Yields.pure delivered.idle.settled
  | result rows =>
      exact (convert_yields delivered.idle (by simp) (by simp)).weaken (fun _ _ holds => holds.1)
        fun _ _ => id
  | copy input =>
      exact (convert_yields delivered.idle (by simp) (by simp)).weaken (fun _ _ holds => holds.1)
        fun _ _ => id

theorem results_yields (closes : environment.Closes) (rounds : ℕ) (settled : Settled session) :
    Yields (results environment rounds) session (fun _ => Free) Ended := by
  induction rounds generalizing session with
  | zero => exact Yields.throw ⟨⟨by simp, settled⟩, by simp [Raised.halts]⟩
  | succ rounds induction =>
      rw [results]
      refine Yields.bind (nextResult_yields closes rounds settled) fun item after next => ?_
      cases item with
      | none => exact Yields.pure (next.1.free (next.2 rfl))
      | some item =>
          cases item with
          | copy index =>
              refine Yields.bind ((copyClose_yields closes next.1.sound index).weaken
                (fun _ _ => id) fun _ _ => False.elim) fun _ final free => ?_
              exact Yields.throw (free.ended (by simp))
          | result rows =>
              refine Yields.bind (induction next.1) fun count final free => ?_
              exact Yields.pure free

theorem progress_yields (settled : Settled session) :
    Yields (progress environment) session (fun _ => Same session) Calm := by
  refine Yields.bind ((requireOpen_yields settled).weaken (fun _ _ => id)
    fun _ _ ended => ended.calm) fun _ after found => ?_
  rw [found.1]
  refine yields_call_bind (fun _ => ?_) fun _ => ⟨by simp, settled.asked⟩
  refine (dispatchEvents_yields settled.asked).weaken ?_ fun _ _ => id
  rintro _ _ rfl
  exact (Same.refl session).asked.asked

theorem progressWait_yields (closes : environment.Closes) (settled : Settled session) :
    Yields (progressWait environment) session (fun _ => Same session) Calm := by
  refine Yields.bind (progress_yields settled) fun _ after same => ?_
  refine yields_ask_bind ?_
  have kept := (same.settled settled).asked
  split_ifs
  · exact Yields.bind ((timedOut_yields closes kept).weaken (fun _ _ => id)
      fun _ _ ended => ended.calm) fun _ _ => False.elim
  · exact yields_call (fun _ => same.asked.asked) fun _ => ⟨by simp, kept.asked⟩

/-- An open COPY. -/
structure Active (index : ℕ) (session : Session) : Prop where
  settled : Settled session
  opened : (session.copy index).closed = false

theorem Same.active {index : ℕ} (same : Same session after) (active : Active index session) :
    Active index after :=
  ⟨same.settled active.settled, by rw [same.copy]; exact active.opened⟩

theorem requireOpenCopy_yields {index : ℕ} (settled : Settled session) :
    Yields (requireOpenCopy index) session (fun _ after => after = session ∧ Active index session)
      fun raised after => raised = .interface ∧ after = session ∧
        (session.copy index).closed = true := by
  refine Yields.get_bind (yields_require (fun passes => ?_) fun fails => ?_)
  · simp only [Bool.and_eq_true, Bool.not_eq_true'] at passes
    exact ⟨rfl, settled, passes.1⟩
  · refine ⟨rfl, rfl, ?_⟩
    cases closed : (session.copy index).closed with
    | true => rfl
    | false => simp [settled.sound.handles, closed] at fails

theorem requireOpenCopy_active {index : ℕ} (settled : Settled session) :
    Yields (requireOpenCopy index) session (fun _ => Active index) Calm := by
  refine (requireOpenCopy_yields settled).weaken ?_ ?_
  · rintro _ _ ⟨rfl, active⟩
    exact active
  · rintro _ _ ⟨rfl, rfl, -⟩
    exact ⟨by simp, settled⟩

theorem finishRequest_yields (closes : environment.Closes) (rounds : ℕ)
    (settled : Settled session) :
    Yields (finishRequest environment rounds) session (fun _ => Free) Ended := by
  refine Yields.bind (results_yields closes rounds settled) fun count after free => ?_
  refine Yields.bind ((requestClose_yields closes free.sound).weaken (fun _ _ => id)
    fun _ _ => False.elim) fun _ final closed => ?_
  exact yields_require (fun _ => closed) fun _ => closed.ended (by simp)

/-- The state behind `_release_copy` of a COPY whose input or output has ended. -/
theorem Active.copyEnded {index : ℕ} (active : Active index session)
    (ended : (session.copy index).ioEnded = true) : Settled (session.asked.copyClosed index) := by
  refine ⟨active.settled.sound.asked.copyClosed index, ?_, active.settled.stream⟩
  intro other closed notEnded
  have shape := copy_setCopy session.asked index other fun copy =>
    { copy with handle := false, closed := true }
  rw [Session.copyClosed, shape] at closed notEnded
  split_ifs at closed notEnded with same
  · obtain ⟨rfl, -⟩ := same
    rw [show (session.asked.copy index).ioEnded = true from ended] at notEnded
    cases notEnded
  · exact active.settled.ended other closed notEnded

theorem endIo_yields (closes : environment.Closes) (rounds : ℕ) {index : ℕ}
    (active : Active index session) :
    Yields (endIo environment index rounds) session (fun _ => Free) Ended := by
  refine Yields.modify_bind ?_
  suffices active' : Active index (session.setCopy index fun copy =>
      { copy with ioEnded := true }) ∧ ((session.setCopy index fun copy =>
        { copy with ioEnded := true }).copy index).ioEnded = true by
    refine Yields.bind (releaseCopy_yields closes active'.1.settled.sound active'.1.opened) ?_
    rintro _ _ rfl
    exact finishRequest_yields closes rounds (active'.1.copyEnded active'.2)
  have shape := fun other => copy_setCopy session index other fun copy =>
    { copy with ioEnded := true }
  have sound := active.settled.sound
  have inside : index < session.copies.length := by
    by_contra outside
    have opened := active.opened
    rw [Session.copy, List.getD_eq_default _ _ (Nat.le_of_not_lt outside)] at opened
    cases opened
  refine ⟨⟨⟨⟨sound.handle, sound.gate, sound.count, ?_, ?_, ?_⟩, ?_,
    active.settled.stream⟩, ?_⟩, ?_⟩
  · intro other
    rw [shape]
    split_ifs
    · exact sound.handles other
    · exact sound.handles other
  · intro other
    rw [shape]
    split_ifs
    · exact sound.attached other
    · exact sound.attached other
  · intro closed other
    rw [shape]
    split_ifs
    · exact sound.first closed other
    · exact sound.first closed other
  · intro other closed notEnded
    rw [shape] at closed notEnded
    split_ifs at closed notEnded
    exact active.settled.ended other closed notEnded
  · rw [shape, if_pos ⟨rfl, inside⟩]
    exact active.opened
  · rw [shape, if_pos ⟨rfl, inside⟩]

theorem writeLoop_yields (closes : environment.Closes) (rounds left : ℕ)
    (settled : Settled session) :
    Yields (writeLoop environment rounds left) session (fun _ => Same session) Calm := by
  induction rounds generalizing session left with
  | zero => exact Yields.throw ⟨by simp, settled⟩
  | succ rounds induction =>
      rw [writeLoop]
      split_ifs
      · exact Yields.pure (Same.refl session)
      · refine yields_ask_bind ?_
        have refused : ∀ {raised : Raised}, raised ≠ .blocked → Calm raised session.asked :=
          fun other => ⟨other, settled.asked⟩
        cases environment.copyWrite session.calls with
        | none => exact Yields.throw (refused (by simp))
        | some answer =>
            obtain ⟨consumed, state⟩ := answer
            refine yields_require_bind (fun _ => ?_) fun _ => refused (by simp)
            cases state with
            | ended => exact Yields.throw (refused (by simp))
            | progress =>
                refine yields_require_bind (fun _ => ?_) fun _ => refused (by simp)
                exact (induction _ settled.asked).weaken
                  (fun _ _ same => (Same.refl session).asked.trans same) fun _ _ => id
            | again =>
                refine yields_require_bind (fun _ => ?_) fun _ => refused (by simp)
                refine Yields.bind (progressWait_yields closes settled.asked) fun _ after same => ?_
                refine (induction _ (same.settled settled.asked)).weaken ?_ fun _ _ => id
                exact fun _ _ later => ((Same.refl session).asked.trans same).trans later

theorem finishLoop_yields (closes : environment.Closes) (rounds : ℕ) (settled : Settled session) :
    Yields (finishLoop environment rounds) session (fun _ => Same session) Calm := by
  induction rounds generalizing session with
  | zero => exact Yields.throw ⟨by simp, settled⟩
  | succ rounds induction =>
      rw [finishLoop]
      refine yields_ask_bind ?_
      cases environment.copyFinish session.calls with
      | none => exact Yields.throw ⟨by simp, settled.asked⟩
      | some state =>
          cases state with
          | ended => exact Yields.pure (Same.refl session).asked
          | progress => exact Yields.throw ⟨by simp, settled.asked⟩
          | again =>
              refine Yields.bind (progressWait_yields closes settled.asked) fun _ after same => ?_
              refine (induction (same.settled settled.asked)).weaken ?_ fun _ _ => id
              exact fun _ _ later => ((Same.refl session).asked.trans same).trans later

theorem finish_yields (closes : environment.Closes) (index rounds : ℕ)
    (settled : Settled session) :
    Yields (finish environment index rounds) session (fun _ => Free) Calm := by
  refine Yields.bind (requireOpenCopy_active settled) fun _ after active => ?_
  refine Yields.bind (finishLoop_yields closes rounds active.settled) fun _ final same => ?_
  exact (endIo_yields closes rounds (same.active active)).weaken (fun _ _ => id)
    fun _ _ ended => ended.calm

theorem write_yields (closes : environment.Closes) (index length rounds : ℕ)
    (settled : Settled session) :
    Yields (write environment index length rounds) session (fun _ => Settled) Calm := by
  refine Yields.bind (requireOpenCopy_active settled) fun _ after active => ?_
  exact (writeLoop_yields closes rounds length active.settled).weaken
    (fun _ _ same => same.settled active.settled) fun _ _ => id

theorem copyFromLoop_yields (closes : environment.Closes) (index rounds : ℕ)
    (settled : Settled session) :
    Yields (copyFromLoop environment index rounds) session (fun _ => Settled) Calm := by
  induction rounds generalizing session with
  | zero => exact Yields.throw ⟨by simp, settled⟩
  | succ rounds induction =>
      rw [copyFromLoop]
      refine yields_ask_bind ?_
      cases environment.source session.calls with
      | none => exact Yields.throw ⟨by simp, settled.asked⟩
      | some length =>
          cases length with
          | zero =>
              exact (finish_yields closes index rounds settled.asked).weaken
                (fun _ _ free => free.settled) fun _ _ => id
          | succ length =>
              refine Yields.bind (write_yields closes index _ rounds settled.asked)
                fun _ after kept => ?_
              exact induction kept

theorem readLoop_yields (closes : environment.Closes) (index rounds : ℕ)
    (active : Active index session) :
    Yields (readLoop environment index rounds) session (fun _ => Settled) Calm := by
  induction rounds generalizing session with
  | zero => exact Yields.throw ⟨by simp, active.settled⟩
  | succ rounds induction =>
      rw [readLoop]
      refine yields_ask_bind ?_
      have asked : Active index session.asked := (Same.refl session).asked.active active
      cases environment.copyRead session.calls with
      | none => exact Yields.throw ⟨by simp, asked.settled⟩
      | some answer =>
          obtain ⟨length, state⟩ := answer
          dsimp only
          split_ifs
          · refine yields_require_bind (fun _ => ?_) fun _ => ⟨by simp, asked.settled⟩
            exact Yields.pure asked.settled
          · cases state with
            | progress => exact Yields.throw ⟨by simp, asked.settled⟩
            | ended =>
                refine Yields.bind ((endIo_yields closes rounds asked).weaken (fun _ _ => id)
                  fun _ _ ended => ended.calm) fun _ after free => ?_
                exact Yields.pure free.settled
            | again =>
                refine Yields.bind (progressWait_yields closes asked.settled) fun _ after same => ?_
                exact induction (same.active asked)

theorem read_yields (closes : environment.Closes) (index rounds : ℕ) (settled : Settled session) :
    Yields (read environment index rounds) session (fun _ => Settled) Calm := by
  refine Yields.bind (requireOpenCopy_active settled) fun _ after active => ?_
  refine Yields.get_bind ?_
  split_ifs with ended
  · refine Yields.bind (releaseCopy_yields closes active.settled.sound active.opened) ?_
    rintro _ _ rfl
    refine Yields.bind ((finishRequest_yields closes rounds (active.copyEnded ended)).weaken
      (fun _ _ => id) fun _ _ ended => ended.calm) fun _ final free => ?_
    exact Yields.pure free.settled
  · exact readLoop_yields closes index rounds active

theorem drain_yields (rounds left : ℕ) (settled : Settled session) :
    Yields (drain environment rounds left) session (fun _ => Settled) Calm := by
  induction rounds generalizing session left with
  | zero => exact Yields.throw ⟨by simp, settled⟩
  | succ rounds induction =>
      rw [drain]
      split_ifs
      · exact Yields.pure settled
      · refine yields_ask_bind ?_
        cases environment.target session.calls with
        | none => exact Yields.throw ⟨by simp, settled.asked⟩
        | some answer =>
            cases answer with
            | none => exact Yields.pure settled.asked
            | some consumed =>
                refine yields_require_bind (fun _ => ?_) fun _ => ⟨by simp, settled.asked⟩
                exact induction _ settled.asked

theorem copyToLoop_yields (closes : environment.Closes) (index rounds : ℕ)
    (settled : Settled session) :
    Yields (copyToLoop environment index rounds) session (fun _ => Settled) Calm := by
  induction rounds generalizing session with
  | zero => exact Yields.throw ⟨by simp, settled⟩
  | succ rounds induction =>
      rw [copyToLoop]
      refine Yields.bind (read_yields closes index rounds settled) fun length after kept => ?_
      split_ifs
      · exact Yields.pure kept
      · refine Yields.bind (drain_yields rounds length kept) fun _ final later => ?_
        exact induction later

theorem abort_yields (closes : environment.Closes) (index : ℕ) (settled : Settled session) :
    Yields (abort environment index) session (fun _ => Settled) Calm := by
  refine Yields.get_bind ?_
  split_ifs with closed
  · exact Yields.pure settled
  · refine (finallyDo_closes (fun sound => requestClose_yields closes sound) ?_).weaken
      (fun _ _ free => free.settled) fun _ _ ended => ended.calm
    refine yields_call_bind (fun _ => ?_) fun _ =>
      ⟨by simp, settled.asked.sound, fun _ => settled.asked⟩
    have opened : (session.asked.copy index).closed = false := Bool.eq_false_iff.mpr closed
    refine (releaseCopy_yields closes settled.asked.sound opened).weaken ?_ fun _ _ => id
    rintro _ _ rfl
    exact settled.asked.asked.sound.copyClosed index

theorem Free.streamEnded (free : Free session) :
    Free { session with streamClosed := true, chunksEnded := true } :=
  ⟨⟨free.sound.handle, free.sound.gate, free.sound.count, free.sound.handles, free.sound.attached,
    free.sound.first⟩, free.closed⟩

/-- `RowStream.close` closes the request and gives the gate back. -/
theorem closeStream_yields (closes : environment.Closes) (settled : Settled session) :
    Yields (closeStream environment) session (fun _ => Free) fun _ _ => False := by
  refine Yields.get_bind ?_
  split_ifs with closed
  · exact Yields.pure (settled.free (settled.stream closed))
  · refine Yields.bind (requestClose_yields closes settled.sound) fun _ after free => ?_
    exact Yields.modified free.streamEnded

theorem chunkLoop_yields (closes : environment.Closes) (rounds : ℕ) (settled : Settled session) :
    Yields (chunkLoop environment rounds) session (fun _ => Settled) Ended := by
  induction rounds generalizing session with
  | zero => exact Yields.throw ⟨⟨by simp, settled⟩, by simp [Raised.halts]⟩
  | succ rounds induction =>
      rw [chunkLoop]
      refine Yields.bind (nextResult_yields closes rounds settled) fun item after next => ?_
      cases item with
      | none => exact Yields.modified (next.1.free (next.2 rfl)).streamEnded.settled
      | some item =>
          cases item with
          | copy index =>
              refine Yields.bind ((copyClose_yields closes next.1.sound index).weaken
                (fun _ _ => id) fun _ _ => False.elim) fun _ final free => ?_
              exact Yields.throw (free.ended (by simp))
          | result rows =>
              dsimp only
              split_ifs
              · exact Yields.pure next.1
              · exact induction next.1

theorem fetch_yields (closes : environment.Closes) (rounds : ℕ) (settled : Settled session) :
    Yields (fetch environment rounds) session (fun _ => Settled) Calm := by
  refine Yields.get_bind ?_
  split_ifs
  · exact Yields.pure settled
  · refine yields_guarded ((chunkLoop_yields closes rounds settled).weaken (fun _ _ => id)
      fun _ _ ended => ended.calm) (fun _ _ calm _ => calm) fun raised after calm _ => ?_
    refine Yields.modify_bind ?_
    have kept : Settled { after with chunksEnded := true } :=
      ⟨⟨calm.settled.sound.handle, calm.settled.sound.gate, calm.settled.sound.count,
        calm.settled.sound.handles, calm.settled.sound.attached, calm.settled.sound.first⟩,
        calm.settled.ended, calm.settled.stream⟩
    exact (closeStream_yields closes kept).weaken (fun _ _ free => ⟨calm.goesOn, free.settled⟩)
      fun _ _ => id

theorem Free.made (free : Free session) :
    Settled { session with acquired := session.acquired + 1 }.made := by
  have closed : ∀ index, ({ session with acquired := session.acquired + 1 }.made.copy
      index).closed = true := fun index => rfl
  refine ⟨⟨rfl, rfl, ?_, fun _ => rfl, ?_, ?_⟩, ?_, ?_⟩
  · exact congrArg (· + 1) free.count
  · intro index opened
    rw [closed] at opened
    cases opened
  · intro impossible
    cases impossible
  · intro index _ notEnded
    cases notEnded
  · intro impossible
    cases impossible

/-- A call has not ended, or has raised with the request closed; it does not wait for the gate. -/
theorem yields_acquire_bind (free : Free session) {next : Unit → Program Raised Session β}
    {returns : β → Session → Prop}
    (holds : Yields (next ()) { session with acquired := session.acquired + 1 } returns throws) :
    Yields (acquire >>= next) session returns throws := by
  have acquired : Yields acquire session
      (fun _ after => after = { session with acquired := session.acquired + 1 }) throws := by
    refine Yields.get_bind ?_
    rw [if_neg (by simp [free.held])]
    exact rfl
  refine Yields.bind acquired ?_
  rintro ⟨⟩ _ rfl
  exact holds

/-- The gate that was just acquired by a free connection is given back. -/
theorem release_yields (free : Free session) :
    Yields release { session with acquired := session.acquired + 1 } (fun _ => Free)
      fun _ _ => False := by
  have count := free.count
  refine yields_release ?_ ⟨⟨free.sound.handle, free.sound.gate, ?_, free.sound.handles,
    free.sound.attached, free.sound.first⟩, free.closed⟩
  · simp [Session.held, count]
  · simp [free.closed, count]

/-- A call that only succeeds or fails, with the gate given back behind an error. -/
theorem gatedCall_yields {answer : ℕ → Bool} {handler : Raised → Program Raised Session Unit}
    (handled : Yields (handler raised)
      { session.asked with acquired := session.asked.acquired + 1 } (fun _ _ => False) throws) :
    Yields (tryCatch (call answer raised) handler)
      { session with acquired := session.acquired + 1 }
      (fun _ after => answer session.calls = true ∧
        after = { session.asked with acquired := session.asked.acquired + 1 })
      throws := by
  have attempt : Yields (call answer raised) { session with acquired := session.acquired + 1 }
      (fun _ after => answer session.calls = true ∧
        after = { session.asked with acquired := session.asked.acquired + 1 })
      fun failed after => failed = raised ∧
        after = { session.asked with acquired := session.asked.acquired + 1 } :=
    yields_call (fun ok => ⟨ok, rfl⟩) fun _ => ⟨rfl, rfl⟩
  refine Yields.tryCatch attempt ?_
  rintro _ _ ⟨rfl, rfl⟩
  exact handled.weaken (fun _ _ => False.elim) fun _ _ => id

/-- `release` and the error again. -/
theorem releaseThrow_yields (free : Free session)
    (holds : ∀ after, Free after → throws raised after) :
    Yields (do
        release
        throw raised) { session with acquired := session.acquired + 1 } returns throws := by
  refine Yields.bind ((release_yields free).weaken (fun _ _ => id) fun _ _ => False.elim)
    fun _ after free => ?_
  exact Yields.throw (holds after free)

theorem withGate_yields (free : Free session) {answer : ℕ → Bool} (goesOn : raised ≠ .blocked) :
    Yields (withGate (call answer raised)) session (fun _ => Free) fun raised after =>
      raised ≠ .blocked ∧ Free after := by
  refine yields_acquire_bind free ?_
  refine Yields.bind (gatedCall_yields (releaseThrow_yields free.asked fun _ after =>
    ⟨goesOn, after⟩)) ?_
  rintro _ _ ⟨-, rfl⟩
  exact (release_yields free.asked).weaken (fun _ _ => id) fun _ _ => False.elim

/-- Behind an `__init__` that fails with its own calls the gate is free. -/
theorem init_yields (free : Free session) :
    Yields (init environment true) { session with acquired := session.acquired + 1 }
      (fun _ => Settled) Ended := by
  refine yields_require_bind (fun _ => ?_) nofun
  refine Yields.modify_bind ?_
  have made := free.made
  have attempt : Yields (do
        call environment.succeeds .native
        call environment.succeeds .native)
      { session with acquired := session.acquired + 1 }.made (fun _ => Settled)
      fun raised after => raised = .native ∧
        Same { session with acquired := session.acquired + 1 }.made after := by
    refine yields_call_bind (fun _ => ?_) fun _ => ⟨rfl, (Same.refl _).asked⟩
    exact yields_call (fun _ => made.asked.asked) fun _ => ⟨rfl, (Same.refl _).asked.asked⟩
  refine Yields.tryCatch attempt ?_
  rintro _ after ⟨rfl, same⟩
  have closed : Yields (call environment.requestClose .native) after
      (fun _ final => final = after.asked)
      fun raised final => raised.halts = false ∧ final = after.asked :=
    yields_call (fun _ => rfl) fun _ => ⟨rfl, rfl⟩
  refine Yields.bind ((preserving_yields closed).weaken (fun _ _ => id) fun _ _ => False.elim) ?_
  rintro _ _ rfl
  refine Yields.modify_bind ?_
  have copies : ∀ index, (after.copy index).closed = true := fun index => by rw [same.copy]; rfl
  have released : Yields release after.asked.requestClosed (fun _ => Free) Ended := by
    have count : after.acquired = after.released + 1 := by
      rw [same]
      exact congrArg (· + 1) free.count
    refine yields_release ?_ ⟨⟨rfl, rfl, count, ?_, ?_, fun _ => copies⟩, rfl⟩
    · change decide (after.released < after.acquired) = true
      rw [count]
      exact decide_eq_true (Nat.lt_succ_self _)
    · intro index
      change (after.copy index).handle = !(after.copy index).closed
      rw [same.copy]
      rfl
    · intro index impossible
      exact absurd (impossible.symm.trans (copies index)) (by simp)
  refine Yields.bind released fun _ final free => ?_
  exact Yields.throw (free.ended (by simp))

/-- A request is started with a timeout that is accepted; with another one the gate is kept only
when the native layer has started the request. -/
theorem start_outcome (timed encoded : Bool) (free : Free session) :
    Yields (start environment timed encoded) session
      (fun _ after => timed = true ∧ Settled after)
      fun raised after => raised ≠ .blocked ∧
        ((encoded = true → environment.succeeds session.calls = true → timed = true) →
          Ended raised after) := by
  refine yields_require_bind (fun sent => ?_) fun _ => ⟨by simp, fun _ => free.ended (by simp)⟩
  refine yields_acquire_bind free ?_
  refine Yields.bind (gatedCall_yields (releaseThrow_yields free.asked fun _ after =>
    ⟨by simp, fun _ => after.ended (by simp)⟩)) ?_
  rintro _ _ ⟨succeeds, rfl⟩
  cases timed with
  | true =>
      exact (init_yields free.asked).weaken (fun _ _ settled => ⟨rfl, settled⟩)
        fun _ _ ended => ⟨ended.calm.goesOn, fun _ => ended⟩
  | false =>
      exact yields_require_bind nofun fun _ =>
        ⟨by simp, fun timely => absurd (timely sent succeeds) (by simp)⟩

theorem start_yields (encoded : Bool) (free : Free session) :
    Yields (start environment true encoded) session (fun _ => Settled) Ended :=
  (start_outcome true encoded free).weaken (fun _ _ started => started.2)
    fun _ _ raised => raised.2 fun _ _ => rfl

theorem nativeExecute_yields (encoded : Bool) (free : Free session) :
    Yields (nativeExecute environment encoded) session (fun _ => Free) fun raised after =>
      raised ≠ .blocked ∧ Free after := by
  refine yields_require_bind (fun _ => ?_) fun _ => ⟨by simp, free⟩
  exact withGate_yields free (by simp)

theorem beginIfNeeded_yields (begins : Bool) (free : Free session) :
    Yields (beginIfNeeded environment begins) session (fun _ => Free) fun raised after =>
      raised ≠ .blocked ∧ Free after := by
  rw [beginIfNeeded]
  split_ifs
  · refine yields_call_bind (fun _ => ?_) fun _ => ⟨by simp, free.asked⟩
    refine yields_ask_bind ?_
    split_ifs
    · exact nativeExecute_yields true free.asked.asked
    · exact Yields.pure free.asked.asked
  · exact Yields.pure free

/-- What a call of a free connection without a request raises. -/
theorem freeEnd (holds : raised ≠ .blocked ∧ Free session) : Ended raised session :=
  holds.2.ended holds.1

theorem execute_yields (arguments : Arguments) (free : Free session) :
    Yields (execute environment arguments) session (fun _ => Free) Ended := by
  refine yields_require_bind (fun _ => ?_) fun _ => free.ended (by simp)
  refine Yields.bind ((beginIfNeeded_yields arguments.begins free).weaken (fun _ _ => id)
    fun _ _ => freeEnd) fun _ after begun => ?_
  exact (nativeExecute_yields arguments.encoded begun).weaken (fun _ _ => id) fun _ _ => freeEnd

theorem complete_yields (allowed : Bool) (free : Free session) :
    Yields (complete environment allowed) session (fun _ => Free) Ended := by
  refine yields_require_bind (fun _ => ?_) fun _ => free.ended (by simp)
  refine yields_call_bind (fun _ => ?_) fun _ => free.asked.ended (by simp)
  refine yields_ask_bind ?_
  split_ifs
  · exact Yields.pure free.asked.asked
  · exact (nativeExecute_yields true free.asked.asked).weaken (fun _ _ => id) fun _ _ => freeEnd

theorem stream_yields (arguments : Arguments) (free : Free session) :
    Yields (stream environment arguments) session (fun _ => Settled) Ended := by
  refine yields_require_bind (fun _ => ?_) fun _ => free.ended (by simp)
  refine Yields.bind ((beginIfNeeded_yields arguments.begins free).weaken (fun _ _ => id)
    fun _ _ => freeEnd) fun _ after begun => ?_
  exact start_yields arguments.encoded begun

/-- All results in a `finally` that closes the request. -/
theorem allResults_yields (closes : environment.Closes) (rounds : ℕ) (settled : Settled session) :
    Yields (finallyDo (results environment rounds) (requestClose environment)) session
      (fun _ => Free) Ended :=
  finallyDo_closes (fun sound => requestClose_yields closes sound)
    ((results_yields closes rounds settled).weaken (fun _ _ free => free.sound)
      fun _ _ ended => ⟨ended.calm.goesOn, ended.calm.settled.sound, fun _ => ended.calm.settled⟩)

theorem executeScript_yields (closes : environment.Closes) (arguments : Arguments) (rounds : ℕ)
    (free : Free session) :
    Yields (executeScript environment arguments rounds) session (fun _ => Free) Ended := by
  refine yields_require_bind (fun _ => ?_) fun _ => free.ended (by simp)
  refine Yields.bind (start_yields true free) fun _ after settled => ?_
  refine Yields.bind (allResults_yields closes rounds settled) fun _ final closed => ?_
  exact Yields.pure closed

theorem executeStatement_yields (closes : environment.Closes) (arguments : Arguments) (rounds : ℕ)
    (free : Free session) :
    Yields (executeStatement environment arguments rounds) session (fun _ => Free) Ended := by
  refine Yields.bind (stream_yields arguments free) fun _ after settled => ?_
  refine Yields.bind (allResults_yields closes rounds settled) fun _ final closed => ?_
  exact yields_require (fun _ => closed) fun _ => closed.ended (by simp)

theorem copy_yields (closes : environment.Closes) (arguments : Arguments) (rounds : ℕ)
    (free : Free session) :
    Yields (copy environment arguments rounds) session (fun _ => Settled) Ended := by
  refine yields_require_bind (fun _ => ?_) fun _ => free.ended (by simp)
  refine Yields.bind ((beginIfNeeded_yields arguments.begins free).weaken (fun _ _ => id)
    fun _ _ => freeEnd) fun _ after begun => ?_
  refine Yields.bind (start_yields true begun) fun _ final settled => ?_
  have refused : ∀ {state : Session}, Settled state → Yields (do
      requestClose environment
      throw .programming) state (fun (_ : ℕ) => Settled) Ended := by
    intro state kept
    refine Yields.bind ((requestClose_yields closes kept.sound).weaken (fun _ _ => id)
      fun _ _ => False.elim) fun _ closed free => ?_
    exact Yields.throw (free.ended (by simp))
  refine Yields.bind (guarded_requestClose closes ((nextResult_yields closes rounds
    settled).weaken (fun _ _ next => next.1) fun _ _ ended => ended.calm)) fun item last kept => ?_
  cases item with
  | none => exact refused kept
  | some item =>
      cases item with
      | result rows => exact refused kept
      | copy index => exact Yields.pure kept

theorem transfer_yields (closes : environment.Closes) (index : ℕ) {condition encoded : Bool}
    {body : Program Raised Session Unit} (settled : Settled session)
    (attempt : Yields body session (fun _ => Settled) Calm) :
    Yields (finallyDo (do
        require condition .application
        require encoded .application
        body) (copyClose environment index)) session (fun _ => Free) Ended := by
  refine finallyDo_closes (fun sound => copyClose_yields closes sound index) ?_
  refine yields_require_bind (fun _ => ?_) fun _ => ⟨by simp, settled.sound, fun _ => settled⟩
  refine yields_require_bind (fun _ => ?_) fun _ => ⟨by simp, settled.sound, fun _ => settled⟩
  exact attempt.weaken (fun _ _ kept => kept.sound) fun _ _ calm =>
    ⟨calm.goesOn, calm.settled.sound, fun _ => calm.settled⟩

/-- Every call ends with the request closed and the gate free. -/
theorem call_yields (closes : environment.Closes) (call : Call) (rounds : ℕ)
    (free : Free session) :
    Yields (call.program environment rounds) session (fun _ => Free) Ended := by
  cases call with
  | execute arguments => exact execute_yields arguments free
  | executeScript arguments => exact executeScript_yields closes arguments rounds free
  | prepare => exact (withGate_yields free (by simp)).weaken (fun _ _ => id) fun _ _ => freeEnd
  | executeStatement arguments => exact executeStatement_yields closes arguments rounds free
  | complete allowed => exact complete_yields allowed free
  | copyFrom arguments =>
      refine Yields.bind (copy_yields closes arguments rounds free) fun index after settled => ?_
      exact transfer_yields closes index settled (copyFromLoop_yields closes index rounds settled)
  | copyTo arguments =>
      refine Yields.bind (copy_yields closes arguments rounds free) fun index after settled => ?_
      exact transfer_yields closes index settled (copyToLoop_yields closes index rounds settled)

/-- A block is entered with a timeout that is accepted; with another one an expression that raises
may keep the gate. -/
theorem opening_yields (closes : environment.Closes) (opening : Opening) (rounds : ℕ)
    (free : Free session) :
    Yields (opening.program environment rounds) session (fun _ => Settled)
      fun raised after => raised ≠ .blocked ∧
        (opening.Timely environment session → Ended raised after) := by
  have always {raised : Raised} {after : Session} (ended : Ended raised after) :
      raised ≠ .blocked ∧ (True → Ended raised after) := ⟨ended.calm.goesOn, fun _ => ended⟩
  cases opening with
  | request timed encoded =>
      exact Yields.bind (start_outcome timed encoded free) fun _ _ started =>
        Yields.pure started.2
  | rows timed encoded =>
      exact Yields.bind (start_outcome timed encoded free) fun _ _ started =>
        Yields.pure started.2
  | stream arguments =>
      exact Yields.bind ((stream_yields arguments free).weaken (fun _ _ => id)
        fun _ _ => always) fun _ _ settled => Yields.pure settled
  | copy arguments =>
      exact Yields.bind ((copy_yields closes arguments rounds free).weaken (fun _ _ => id)
        fun _ _ => always) fun _ _ settled => Yields.pure settled

theorem methodOf_yields {input : Bool} {index : ℕ} {body : Program Raised Session Unit}
    (settled : Settled session) (attempt : Yields body session (fun _ => Settled) Calm) :
    Yields (methodOf input index body) session (fun _ => Settled) Calm := by
  refine Yields.get_bind ?_
  exact yields_require_bind (fun _ => attempt) fun _ => ⟨by simp, settled⟩

/-- A call inside a block. -/
theorem operation_yields (closes : environment.Closes) (operation : Operation) (rounds : ℕ)
    (settled : Settled session) :
    Yields (operation.program environment rounds) session (fun _ => Settled) Calm := by
  have freed : ∀ {program : Program Raised Session Unit},
      Yields program session (fun _ => Free) (fun _ _ => False) →
      Yields program session (fun _ => Settled) Calm := fun holds =>
    holds.weaken (fun _ _ free => free.settled) fun _ _ => False.elim
  cases operation with
  | poll =>
      refine Yields.bind ((requireOpen_yields settled).weaken (fun _ _ => id)
        fun _ _ ended => ended.calm) fun _ after found => ?_
      rw [found.1]
      exact yields_call (fun _ => settled.asked) fun _ => ⟨by simp, settled.asked⟩
  | tryNext =>
      exact Yields.bind (tryNext_yields closes rounds settled) fun _ _ kept => Yields.pure kept
  | nextResult =>
      exact Yields.bind ((nextResult_yields closes rounds settled).weaken (fun _ _ => id)
        fun _ _ ended => ended.calm) fun _ _ next => Yields.pure next.1
  | progress =>
      exact (progress_yields settled).weaken (fun _ _ same => same.settled settled) fun _ _ => id
  | cancel =>
      refine Yields.get_bind ?_
      split_ifs
      · exact Yields.pure settled
      · exact yields_call (fun _ => settled.asked) fun _ => ⟨by simp, settled.asked⟩
  | closeRequest => exact freed (requestClose_yields closes settled.sound)
  | fetch => exact fetch_yields closes rounds settled
  | closeStream => exact freed (closeStream_yields closes settled)
  | write index length =>
      exact methodOf_yields settled (write_yields closes index length rounds settled)
  | finish index =>
      exact methodOf_yields settled ((finish_yields closes index rounds settled).weaken
        (fun _ _ free => free.settled) fun _ _ => id)
  | copyFrom index =>
      exact methodOf_yields settled (copyFromLoop_yields closes index rounds settled)
  | read index =>
      refine methodOf_yields settled ?_
      exact Yields.bind (read_yields closes index rounds settled) fun _ _ kept => Yields.pure kept
  | copyTo index =>
      exact methodOf_yields settled (copyToLoop_yields closes index rounds settled)
  | abort index => exact abort_yields closes index settled
  | closeCopy index => exact freed (copyClose_yields closes settled.sound index)

/-! ## The end of a block -/

/-- Where its native calls do not fail, `_progress_wait` returns or closes the request at the
deadline. -/
theorem progressWait_ends (closes : environment.Closes) (settled : Settled session)
    (opened : session.request.closed = false)
    (progressed : environment.succeeds session.calls = true)
    (dispatched : environment.dispatch (session.calls + 1) = true)
    (selected : environment.expired (session.calls + 2) = false →
      environment.succeeds (session.calls + 3) = true) :
    Yields (progressWait environment) session
      (fun _ after => after = session.asked.asked.asked.asked ∧
        environment.expired (session.calls + 2) = false) Ended := by
  have handle : session.request.handle = true := by simp [settled.sound.handle, opened]
  have progress : Yields (progress environment) session
      (fun _ after => after = session.asked.asked) Ended := by
    refine Yields.bind (requireOpen_yields settled) fun _ after found => ?_
    rw [found.1]
    refine yields_call_bind (fun _ => ?_) fun fails => by simp [progressed] at fails
    refine yields_call (fun _ => rfl) fun fails => ?_
    rw [show session.asked.calls = session.calls + 1 from rfl, dispatched] at fails
    cases fails
  refine Yields.bind progress ?_
  rintro _ _ rfl
  refine yields_ask_bind ?_
  rw [show session.asked.asked.calls = session.calls + 2 from rfl]
  cases late : environment.expired (session.calls + 2) with
  | true =>
      rw [if_pos rfl]
      exact Yields.bind (timedOut_yields closes settled.asked.asked.asked) fun _ _ => False.elim
  | false =>
      rw [if_neg Bool.false_ne_true]
      refine yields_call (fun _ => ⟨rfl, rfl⟩) fun fails => ?_
      rw [show session.asked.asked.asked.calls = session.calls + 3 from rfl,
        selected late] at fails
      cases fails

/-- Where the native calls of `finish` do not fail, its loop ends with the COPY as it was, or the
deadline has closed the request. -/
theorem finishLoop_ends (closes : environment.Closes) (rounds : ℕ) (settled : Settled session)
    (opened : session.request.closed = false)
    (succeeds : FinishSucceeds environment rounds session.calls) :
    Yields (finishLoop environment rounds) session (fun _ => Same session) Ended := by
  induction rounds generalizing session with
  | zero => exact Yields.throw ⟨⟨by simp, settled⟩, by simp [Raised.halts]⟩
  | succ rounds induction =>
      rw [finishLoop]
      rw [FinishSucceeds] at succeeds
      refine yields_ask_bind ?_
      cases answer : environment.copyFinish session.calls with
      | none =>
          rw [answer] at succeeds
          exact succeeds.elim
      | some state =>
          rw [answer] at succeeds
          cases state with
          | ended => exact Yields.pure (Same.refl session).asked
          | progress => exact succeeds.elim
          | again =>
              obtain ⟨progressed, dispatched, rest⟩ := succeeds
              have waits := progressWait_ends closes settled.asked opened progressed dispatched
                fun early => by
                  obtain late | goesOn := rest
                  · rw [show session.asked.calls + 2 = session.calls + 3 from rfl, late] at early
                    cases early
                  · exact goesOn.1
              refine Yields.bind waits ?_
              rintro _ _ ⟨rfl, early⟩
              obtain late | ⟨-, goesOn⟩ := rest
              · rw [show session.asked.calls + 2 = session.calls + 3 from rfl, late] at early
                cases early
              · have kept : Settled session.asked.asked.asked.asked.asked :=
                  settled.asked.asked.asked.asked.asked
                refine (induction kept opened goesOn).weaken (fun _ _ same => ?_) fun _ _ => id
                exact ((Same.refl session).asked.asked.asked.asked.asked).trans same

theorem exitCopy_yields (closes : environment.Closes) (index : ℕ) (normal : Bool) (rounds : ℕ)
    (settled : Settled session)
    (finishes : Finishes environment session index normal rounds) :
    Yields (exitCopy environment index normal rounds) session (fun _ => Free) Ended := by
  refine Yields.get_bind ?_
  split_ifs with unfinished
  · obtain ⟨isNormal, input, notEnded⟩ := unfinished
    have running : (session.copy index).ioEnded = false := by simpa using notEnded
    have entered : Yields (requireOpenCopy index) session
        (fun _ after => after = session ∧ Active index session) Ended := by
      refine (requireOpenCopy_yields settled).weaken (fun _ _ => id) ?_
      rintro _ _ ⟨rfl, rfl, closed⟩
      exact (settled.free (settled.ended index closed running)).ended (by simp)
    refine Yields.bind entered ?_
    rintro _ _ ⟨rfl, active⟩
    rename_i after
    have opened : after.request.closed = false := by
      by_contra closed
      have all := settled.sound.first (by simpa using closed) index
      rw [active.opened] at all
      cases all
    refine Yields.bind (finishLoop_ends closes rounds settled opened
      (finishes isNormal input running active.opened)) fun _ final same => ?_
    exact endIo_yields closes rounds (same.active active)
  · exact (copyClose_yields closes settled.sound index).weaken (fun _ _ => id)
      fun _ _ => False.elim

/-- Every block ends with the request closed and the gate free. -/
theorem exit_yields (closes : environment.Closes) (block : Block) (normal : Bool) (rounds : ℕ)
    (settled : Settled session)
    (finishes : block.Finishes environment session normal rounds) :
    Yields (block.exit environment normal rounds) session (fun _ => Free) Ended := by
  cases block with
  | request =>
      exact (requestClose_yields closes settled.sound).weaken (fun _ _ => id) fun _ _ => False.elim
  | stream => exact (closeStream_yields closes settled).weaken (fun _ _ => id) fun _ _ => False.elim
  | copy index => exact exitCopy_yields closes index normal rounds settled finishes

/-! ## Runs -/

theorem Left.free {program : Program Raised Session α} (left : Left program session after)
    (yields : Yields program session (fun _ => Free) Ended) : Free after := by
  obtain ⟨value, outcome⟩ | ⟨raised, outcome, goesOn⟩ := left
  · exact yields.of_ok outcome
  · have ended := yields.of_error outcome
    exact ended.calm.settled.free (ended.closed goesOn)

theorem Left.settled {program : Program Raised Session α} (left : Left program session after)
    (yields : Yields program session (fun _ => Settled) Calm) : Settled after := by
  obtain ⟨value, outcome⟩ | ⟨raised, outcome, -⟩ := left
  · exact yields.of_ok outcome
  · exact (yields.of_error outcome).settled

/-- What a run keeps. -/
theorem Reached.settled (closes : environment.Closes) {block : Option Block}
    (reached : Reached environment session block) :
    Settled session ∧ (block = none → session.request.closed = true) := by
  induction reached with
  | start =>
      have copies : ∀ index, (Session.start.copy index) =
          { handle := false, closed := true, input := false, ioEnded := true } := fun _ => rfl
      refine ⟨⟨⟨rfl, rfl, rfl, fun _ => rfl, ?_, fun _ _ => rfl⟩, fun _ _ _ => rfl, fun _ => rfl⟩,
        fun _ => rfl⟩
      intro index opened
      rw [copies] at opened
      cases opened
  | call reached call rounds left induction =>
      have free := left.free (call_yields closes call rounds (induction.1.free (induction.2 rfl)))
      exact ⟨free.settled, fun _ => free.closed⟩
  | enter reached opening rounds entered induction =>
      have yields := opening_yields closes opening rounds (induction.1.free (induction.2 rfl))
      exact ⟨yields.of_ok entered, by simp⟩
  | refused reached opening rounds timely raises ended induction =>
      have yields := opening_yields closes opening rounds (induction.1.free (induction.2 rfl))
      have holds := (yields.of_error raises).2 timely
      exact ⟨holds.calm.settled, fun _ => holds.closed ended⟩
  | operate reached operation rounds left induction =>
      exact ⟨left.settled (operation_yields closes operation rounds induction.1), by simp⟩
  | leaveCopy reached index normal rounds finishes left induction =>
      have free := left.free (exitCopy_yields closes index normal rounds induction.1 finishes)
      exact ⟨free.settled, by simp⟩
  | leave reached normal rounds finishes left induction =>
      have free := left.free (exit_yields closes _ normal rounds induction.1 finishes)
      exact ⟨free.settled, fun _ => free.closed⟩

/-- A COPY of one command, whose input ends as `finish` says. -/
def copying (finish : Option IoState) : Environment where
  succeeds _ := true
  requestClose _ := true
  copyClose _ := true
  next calls :=
    if calls = 4 then some (.copy true)
    else if calls = 9 then some (.result false)
    else some .ended
  copyFinish _ := finish
  copyWrite _ := none
  copyRead _ := none
  idle _ := false
  dispatch _ := true
  expired _ := false
  source _ := none
  target _ := none

/-- The connection inside the block of the COPY. -/
def inside : Session where
  acquired := 1
  released := 0
  request := { handle := true, closed := false, ownsGate := true, copyRef := some 0 }
  copies := [{ handle := true, closed := false, input := true, ioEnded := false }]
  streamClosed := false
  chunksEnded := false
  calls := 6

/-- The connection behind the block of the COPY. -/
def behind : Session where
  acquired := 1
  released := 1
  request := { handle := false, closed := true, ownsGate := false, copyRef := some 0 }
  copies := [{ handle := false, closed := true, input := true, ioEnded := true }]
  streamClosed := false
  chunksEnded := false
  calls := 15

/-- A timeout that `__init__` refuses keeps the gate without a request. -/
theorem refused_timeout_leaks (finish : Option IoState) :
    ∃ after, Opening.program (copying finish) 3 (.request false true) Session.start =
        .error .application after ∧
      after.request.closed = true ∧ after.held = true ∧
      Call.program (copying finish) 3 .prepare after = .error .blocked after :=
  ⟨{ Session.start with acquired := 1, calls := 1 }, rfl, rfl, rfl, rfl⟩

end RequestGate
end Python
end Postgamma
