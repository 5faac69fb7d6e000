import Mathlib

/-!
# Objects with owners

A library makes objects for its user. Each has a class, and an owner that was made before it or
none. The contract of the user: a call takes only objects that are there, of the class that the
call is for, and an object is freed when nothing that it owns is there any more. This file gives
what a sequence of calls that keeps the contract does not do.
-/

namespace Postgamma
namespace Ownership

variable {κ : Type}

/-- An object of the library. -/
structure Object (κ : Type) where
  kind : κ
  owner : Option ℕ

/-- The objects that are there, and the number of the next one. -/
structure World (κ : Type) where
  next : ℕ
  objects : ℕ → Option (Object κ)

/-- A call of the library. -/
inductive Call (κ : Type) where
  | create (kind : κ) (owner : Option ℕ) (object : ℕ)
  | use (kind : κ) (object : ℕ)
  | free (kind : κ) (object : ℕ)
  /-- A call with an argument that is no object at all. -/
  | wild
  deriving DecidableEq, Repr

/-- The object is an argument or the result of the call. -/
def Call.Mentions (object : ℕ) : Call κ → Prop
  | create _ owner made => made = object ∨ owner = some object
  | use _ used => used = object
  | free _ freed => freed = object
  | wild => False

namespace World

/-- No object has been made. -/
def empty : World κ := { next := 0, objects := fun _ => none }

/-- The class of an object that is there. -/
def kindOf (world : World κ) (object : ℕ) : Option κ := (world.objects object).map Object.kind

/-- What a call leaves. -/
def after (world : World κ) : Call κ → World κ
  | .create kind owner object =>
      { next := object + 1
        objects := Function.update world.objects object (some { kind, owner }) }
  | .use _ _ => world
  | .free _ object => { world with objects := Function.update world.objects object none }
  | .wild => world

/-- What a sequence of calls leaves. -/
def afterAll (world : World κ) (calls : List (Call κ)) : World κ := calls.foldl after world

/-- The call keeps the contract; `mayOwn` says what may be the owner of a class. -/
def Accepts (mayOwn : κ → Option κ → Prop) (world : World κ) : Call κ → Prop
  | .create kind owner object =>
      object = world.next ∧
        match owner with
        | none => mayOwn kind none
        | some above => ∃ class_, world.kindOf above = some class_ ∧ mayOwn kind (some class_)
  | .use kind object => world.kindOf object = some kind
  | .free kind object =>
      world.kindOf object = some kind ∧
        ∀ other entry, world.objects other = some entry → entry.owner ≠ some object
  | .wild => False

/-- Every call of a sequence keeps the contract. -/
def Keeps (mayOwn : κ → Option κ → Prop) (world : World κ) : List (Call κ) → Prop
  | [] => True
  | call :: rest => Accepts mayOwn world call ∧ Keeps mayOwn (world.after call) rest

/-- Objects are numbered in the order in which they are made, owners before what they own. -/
structure Rooted (world : World κ) : Prop where
  made : ∀ {object : ℕ} {entry : Object κ}, world.objects object = some entry →
    object < world.next
  owned : ∀ {object above : ℕ} {entry : Object κ}, world.objects object = some entry →
    entry.owner = some above → above < object ∧ (world.objects above).isSome

variable {mayOwn : κ → Option κ → Prop} {world : World κ}

theorem kindOf_eq_some {object : ℕ} {kind : κ} :
    world.kindOf object = some kind ↔ ∃ entry, world.objects object = some entry ∧
      entry.kind = kind := by
  rw [kindOf, Option.map_eq_some_iff]

@[simp] theorem create_self (kind : κ) (owner : Option ℕ) (object : ℕ) :
    (world.after (.create kind owner object)).objects object = some { kind, owner } :=
  Function.update_self ..

@[simp] theorem create_other (kind : κ) (owner : Option ℕ) {object other : ℕ}
    (different : other ≠ object) :
    (world.after (.create kind owner object)).objects other = world.objects other :=
  Function.update_of_ne different ..

@[simp] theorem free_self (kind : κ) (object : ℕ) :
    (world.after (.free kind object)).objects object = none :=
  Function.update_self ..

@[simp] theorem free_other (kind : κ) {object other : ℕ} (different : other ≠ object) :
    (world.after (.free kind object)).objects other = world.objects other :=
  Function.update_of_ne different ..

theorem afterAll_append (first second : List (Call κ)) :
    world.afterAll (first ++ second) = (world.afterAll first).afterAll second := by
  rw [afterAll, List.foldl_append]
  rfl

theorem keeps_append {first second : List (Call κ)} :
    Keeps mayOwn world (first ++ second) ↔
      Keeps mayOwn world first ∧ Keeps mayOwn (world.afterAll first) second := by
  induction first generalizing world with
  | nil => simp [Keeps, afterAll]
  | cons call rest induction =>
      rw [List.cons_append, Keeps, Keeps, induction, and_assoc]
      rfl

theorem empty_rooted : (empty : World κ).Rooted where
  made found := by cases found
  owned found := by cases found

/-- A call that keeps the contract keeps the order of the objects. -/
theorem Rooted.after (rooted : world.Rooted) {call : Call κ}
    (accepted : Accepts mayOwn world call) : (world.after call).Rooted := by
  cases call with
  | create kind owner object =>
      obtain ⟨rfl, owned⟩ := accepted
      constructor
      · intro other entry found
        by_cases same : other = world.next
        · subst same
          exact Nat.lt_succ_self _
        · rw [create_other _ _ same] at found
          exact Nat.lt_succ_of_lt (rooted.made found)
      · intro other above entry found up
        by_cases same : other = world.next
        · subst same
          rw [create_self] at found
          cases found
          simp only at up
          subst up
          obtain ⟨kindAbove, there, -⟩ := owned
          obtain ⟨entry, there, -⟩ := kindOf_eq_some.mp there
          have earlier := rooted.made there
          refine ⟨earlier, ?_⟩
          rw [create_other _ _ (Nat.ne_of_lt earlier), there]
          rfl
        · rw [create_other _ _ same] at found
          obtain ⟨earlier, there⟩ := rooted.owned found up
          have before := rooted.made found
          refine ⟨earlier, ?_⟩
          rwa [create_other _ _ (by omega)]
  | use kind object => exact rooted
  | free kind object =>
      constructor
      · intro other entry found
        by_cases same : other = object
        · rw [same, free_self] at found
          cases found
        · rw [free_other _ same] at found
          exact rooted.made found
      · intro other above entry found up
        by_cases same : other = object
        · rw [same, free_self] at found
          cases found
        · rw [free_other _ same] at found
          obtain ⟨earlier, there⟩ := rooted.owned found up
          have different : above ≠ object := by
            rintro rfl
            exact accepted.2 other entry found up
          refine ⟨earlier, ?_⟩
          rwa [free_other _ different]
  | wild => exact accepted.elim

theorem Rooted.afterAll (rooted : world.Rooted) {calls : List (Call κ)}
    (kept : Keeps mayOwn world calls) : (world.afterAll calls).Rooted := by
  induction calls generalizing world with
  | nil => exact rooted
  | cons call rest induction => exact induction (rooted.after kept.1) kept.2

/-- A call that keeps the contract does not mention an object that is gone, and leaves it so. -/
theorem Accepts.gone {call : Call κ} (accepted : Accepts mayOwn world call) {object : ℕ}
    (old : object < world.next) (gone : world.objects object = none) :
    ¬call.Mentions object ∧ object < (world.after call).next ∧
      (world.after call).objects object = none := by
  have absent : ∀ kind, world.kindOf object ≠ some kind := by
    intro kind there
    rw [kindOf, gone] at there
    cases there
  cases call with
  | create kind owner made =>
      obtain ⟨rfl, owned⟩ := accepted
      refine ⟨?_, Nat.lt_succ_of_lt old, ?_⟩
      · rintro (same | rfl)
        · omega
        · obtain ⟨class_, there, -⟩ := owned
          exact absent class_ there
      · rw [create_other _ _ (Nat.ne_of_lt old), gone]
  | use kind used =>
      refine ⟨?_, old, gone⟩
      rintro rfl
      exact absent kind accepted
  | free kind freed =>
      have different : object ≠ freed := by
        rintro rfl
        exact absent kind accepted.1
      refine ⟨fun mentions => different mentions.symm, old, ?_⟩
      rw [free_other _ different, gone]
  | wild => exact accepted.elim

theorem Keeps.gone {calls : List (Call κ)} (kept : Keeps mayOwn world calls) {object : ℕ}
    (old : object < world.next) (gone : world.objects object = none) :
    ∀ call ∈ calls, ¬call.Mentions object := by
  induction calls generalizing world with
  | nil =>
      intro call member
      cases member
  | cons first rest induction =>
      obtain ⟨unmentioned, old, gone⟩ := Accepts.gone kept.1 old gone
      intro call member
      rcases List.mem_cons.mp member with rfl | member
      · exact unmentioned
      · exact induction kept.2 old gone call member

/-- **No use after free**: once an object has been freed, no call mentions it. -/
theorem Keeps.freed (rooted : world.Rooted) {front back : List (Call κ)} {kind : κ} {object : ℕ}
    (kept : Keeps mayOwn world (front ++ .free kind object :: back)) :
    ∀ call ∈ back, ¬call.Mentions object := by
  obtain ⟨before, freed, behind⟩ := keeps_append.mp kept
  obtain ⟨entry, there, -⟩ := kindOf_eq_some.mp freed.1
  have rooted := rooted.afterAll before
  exact Keeps.gone behind (rooted.made there) (free_self ..)

/-- An object that a call made and no later call freed is there, with its class and its owner. -/
theorem remains {calls : List (Call κ)} (kept : Keeps mayOwn world calls) {object : ℕ}
    {entry : Object κ} (rooted : world.Rooted) (there : world.objects object = some entry)
    (unfreed : ∀ kind, .free kind object ∉ calls) :
    (world.afterAll calls).objects object = some entry := by
  induction calls generalizing world with
  | nil => exact there
  | cons call rest induction =>
      refine induction kept.2 (rooted.after kept.1) ?_ fun kind member =>
        unfreed kind (List.mem_cons_of_mem _ member)
      cases call with
      | create kind owner made =>
          obtain ⟨rfl, -⟩ := kept.1
          rw [create_other _ _ (Nat.ne_of_lt (rooted.made there)), there]
      | use kind used => exact there
      | free kind freed =>
          have different : object ≠ freed := by
            rintro rfl
            exact unfreed kind List.mem_cons_self
          rw [free_other _ different, there]
      | wild => exact there

/-- **Children first**: an object is freed only after everything that it owns has been freed. -/
theorem Keeps.children (rooted : world.Rooted) {front middle back : List (Call κ)}
    {kind class_ : κ} {owner object : ℕ}
    (kept : Keeps mayOwn world
      (front ++ .create kind (some owner) object :: middle ++ .free class_ owner :: back)) :
    ∃ kind, .free kind object ∈ middle := by
  by_contra unfreed
  push Not at unfreed
  rw [List.append_assoc, keeps_append, List.cons_append, Keeps, keeps_append] at kept
  obtain ⟨before, made, between, freed, -⟩ := kept
  have rooted := rooted.afterAll before
  have there := remains between (rooted.after made) (create_self ..) unfreed
  exact freed.2 object _ there rfl

end World

end Ownership
end Postgamma
