import Mathlib.Tactic

/-!
# Programs with state and errors

A program over a state type returns a value or throws, and keeps the state either way. `Yields`
says what holds of the outcome from one initial state: a condition on the value and the state of
a return, and one on the error and the state of a throw. The rules below follow the program's
text, so that a proof about a program cites one lemma for each call.  A machine takes one action
at a time, and `runs` takes a list of them.
-/

namespace Postgamma

theorem except_bind_eq_ok {ε α β : Type} {first : Except ε α} {next : α → Except ε β}
    {result : β} :
    (first >>= next) = .ok result ↔ ∃ value, first = .ok value ∧ next value = .ok result := by
  cases first <;> simp [bind, Except.bind]

theorem except_bind_ne_error {ε α β : Type} {first : Except ε α} {next : α → Except ε β}
    {thrown : ε} (head : first ≠ .error thrown) (tail : ∀ value, next value ≠ .error thrown) :
    (first >>= next) ≠ .error thrown := by
  cases first with
  | error other =>
      intro same
      exact head (congrArg Except.error (Except.error.inj same))
  | ok value => exact tail value

theorem except_ok_bind {ε α β : Type} (value : α) (next : α → Except ε β) :
    ((.ok value : Except ε α) >>= next) = next value := rfl

theorem except_throw_bind {ε α β : Type} (thrown : ε) (next : α → Except ε β) :
    ((throw thrown : Except ε α) >>= next) = .error thrown := rfl

/-- A check that throws when its condition holds is passed when the condition fails. -/
theorem except_check_eq_ok {ε α : Type} {condition : Prop} [Decidable condition] {thrown : ε}
    {next : Except ε α} {result : α} :
    (if condition then .error thrown else next) = .ok result ↔
      ¬condition ∧ next = .ok result := by
  split_ifs <;> simp [*]

/-- A program that may change a state and may throw. -/
abbrev Program (ε σ α : Type) := EStateM ε σ α

/-- The outcome of a program from a state meets a condition on returns and one on throws. -/
def Yields {ε σ α : Type} (program : Program ε σ α) (state : σ) (returns : α → σ → Prop)
    (throws : ε → σ → Prop) : Prop :=
  match program state with
  | .ok value next => returns value next
  | .error thrown next => throws thrown next

namespace Yields

variable {ε σ α β : Type} {state : σ} {returns : α → σ → Prop} {throws : ε → σ → Prop}

theorem pure {value : α} (holds : returns value state) :
    Yields (Pure.pure value : Program ε σ α) state returns throws := holds

theorem throw {thrown : ε} (holds : throws thrown state) :
    Yields (MonadExcept.throw thrown : Program ε σ α) state returns throws := holds

theorem bind {first : Program ε σ β} {next : β → Program ε σ α} {middle : β → σ → Prop}
    (head : Yields first state middle throws)
    (tail : ∀ value after, middle value after → Yields (next value) after returns throws) :
    Yields (first >>= next) state returns throws := by
  unfold Yields at head ⊢
  change match EStateM.bind first next state with
    | .ok value next => returns value next
    | .error thrown next => throws thrown next
  unfold EStateM.bind
  cases outcome : first state with
  | ok value after =>
      rw [outcome] at head
      exact tail value after head
  | error thrown after =>
      rw [outcome] at head
      exact head

theorem weaken {program : Program ε σ α} {returns' : α → σ → Prop} {throws' : ε → σ → Prop}
    (holds : Yields program state returns throws)
    (onReturn : ∀ value after, returns value after → returns' value after)
    (onThrow : ∀ thrown after, throws thrown after → throws' thrown after) :
    Yields program state returns' throws' := by
  unfold Yields at holds ⊢
  cases outcome : program state with
  | ok value after =>
      rw [outcome] at holds
      exact onReturn value after holds
  | error thrown after =>
      rw [outcome] at holds
      exact onThrow thrown after holds

theorem bind_of_ok {first : Program ε σ β} {next : β → Program ε σ α} {value : β} {after : σ}
    (run : first state = .ok value after) (tail : Yields (next value) after returns throws) :
    Yields (first >>= next) state returns throws := by
  have head : Yields first state (fun result final => result = value ∧ final = after) throws := by
    unfold Yields
    rw [run]
    exact ⟨rfl, rfl⟩
  refine bind head ?_
  rintro _ _ ⟨rfl, rfl⟩
  exact tail

theorem bind_of_error {first : Program ε σ β} {next : β → Program ε σ α} {thrown : ε} {after : σ}
    (run : first state = .error thrown after) (holds : throws thrown after) :
    Yields (first >>= next) state returns throws := by
  have head : Yields first state (fun _ _ => False) throws := by
    unfold Yields
    rw [run]
    exact holds
  exact bind head fun _ _ => False.elim

/-- A call in front of a program, whose throws are carried over. -/
theorem seq {first : Program ε σ β} {next : β → Program ε σ α} {middle : β → σ → Prop}
    {throws' : ε → σ → Prop} (head : Yields first state middle throws')
    (onThrow : ∀ thrown after, throws' thrown after → throws thrown after)
    (tail : ∀ value after, middle value after → Yields (next value) after returns throws) :
    Yields (first >>= next) state returns throws :=
  bind (head.weaken (fun _ _ => id) onThrow) tail

theorem and {program : Program ε σ α} {returns' : α → σ → Prop} {throws' : ε → σ → Prop}
    (left : Yields program state returns throws) (right : Yields program state returns' throws') :
    Yields program state (fun value after => returns value after ∧ returns' value after)
      (fun thrown after => throws thrown after ∧ throws' thrown after) := by
  unfold Yields at left right ⊢
  cases outcome : program state with
  | ok value after =>
      rw [outcome] at left right
      exact ⟨left, right⟩
  | error thrown after =>
      rw [outcome] at left right
      exact ⟨left, right⟩

theorem get_bind {next : σ → Program ε σ α}
    (holds : Yields (next state) state returns throws) :
    Yields (MonadState.get >>= next : Program ε σ α) state returns throws :=
  holds

theorem modified {change : σ → σ} {returns : PUnit → σ → Prop}
    (holds : returns ⟨⟩ (change state)) :
    Yields (modify change : Program ε σ PUnit) state returns throws := holds

theorem modify_bind {change : σ → σ} {next : PUnit → Program ε σ α}
    (holds : Yields (next ⟨⟩) (change state) returns throws) :
    Yields (modify change >>= next) state returns throws :=
  holds

theorem tryCatch {body : Program ε σ α} {handler : ε → Program ε σ α}
    {caught : ε → σ → Prop} (attempt : Yields body state returns caught)
    (recover : ∀ thrown after, caught thrown after →
      Yields (handler thrown) after returns throws) :
    Yields (MonadExcept.tryCatch body handler) state returns throws := by
  unfold Yields at attempt ⊢
  change match EStateM.tryCatch body handler state with
    | .ok value next => returns value next
    | .error thrown next => throws thrown next
  unfold EStateM.tryCatch
  cases outcome : body state with
  | ok value after =>
      rw [outcome] at attempt
      exact attempt
  | error thrown after =>
      rw [outcome] at attempt
      exact recover thrown after attempt

theorem of_ok {program : Program ε σ α} {value : α} {after : σ}
    (holds : Yields program state returns throws) (outcome : program state = .ok value after) :
    returns value after := by
  unfold Yields at holds
  rw [outcome] at holds
  exact holds

theorem of_error {program : Program ε σ α} {thrown : ε} {after : σ}
    (holds : Yields program state returns throws)
    (outcome : program state = .error thrown after) : throws thrown after := by
  unfold Yields at holds
  rw [outcome] at holds
  exact holds

end Yields

/-- Carry a change of the state over the outcome of a program. -/
def mapState {ε σ α : Type} (change : σ → σ) : EStateM.Result ε σ α → EStateM.Result ε σ α
  | .ok value state => .ok value (change state)
  | .error thrown state => .error thrown (change state)

/-- A change of the state before the program is one behind it. -/
def Commutes {ε σ α : Type} (change : σ → σ) (program : Program ε σ α) : Prop :=
  ∀ state, program (change state) = mapState change (program state)

namespace Commutes

variable {ε σ α β : Type} {change : σ → σ}

theorem pure (value : α) : Commutes change (Pure.pure value : Program ε σ α) := fun _ => rfl

theorem throw (thrown : ε) : Commutes change (MonadExcept.throw thrown : Program ε σ α) :=
  fun _ => rfl

theorem modified {effect : σ → σ} (commute : ∀ state, effect (change state) = change (effect state)) :
    Commutes change (modify effect : Program ε σ PUnit) :=
  fun state => congrArg (EStateM.Result.ok PUnit.unit) (commute state)

theorem bind {first : Program ε σ β} {next : β → Program ε σ α} (head : Commutes change first)
    (tail : ∀ value, Commutes change (next value)) : Commutes change (first >>= next) := by
  intro state
  have shape : ∀ start, (first >>= next) start =
      match first start with
      | .ok value after => next value after
      | .error thrown after => .error thrown after := fun _ => rfl
  rw [shape, shape, head state]
  cases first state with
  | ok value after => exact tail value after
  | error thrown after => rfl

theorem get_bind {next : σ → Program ε σ α} (blind : ∀ state, next (change state) = next state)
    (tail : ∀ state, Commutes change (next state)) : Commutes change (MonadState.get >>= next) := by
  intro state
  have read : ∀ start, (MonadState.get >>= next) start = next start start := fun _ => rfl
  rw [read, read, blind state]
  exact tail state state

end Commutes

/-- The state behind a list of actions of a machine that all apply.  A step may stop the machine
with an error, and an action that does not apply has no next state. -/
def runs {σ α ε : Type} (step : σ → α → Except ε (Option σ)) (state : σ) : List α → Option σ
  | [] => some state
  | action :: rest =>
      match step state action with
      | .ok (some after) => runs step after rest
      | _ => none

/-- What every step preserves, every run preserves. -/
theorem runs_preserves {σ α ε : Type} {step : σ → α → Except ε (Option σ)} {motive : σ → Prop}
    (preserved : ∀ {state after : σ} {action : α}, motive state →
      step state action = .ok (some after) → motive after)
    {actions : List α} {state after : σ} (before : motive state)
    (ran : runs step state actions = some after) : motive after := by
  induction actions generalizing state with
  | nil => exact Option.some.inj ran ▸ before
  | cons action rest induction =>
      rw [runs] at ran
      split at ran
      · rename_i next taken
        exact induction (preserved before taken) ran
      · cases ran

end Postgamma
