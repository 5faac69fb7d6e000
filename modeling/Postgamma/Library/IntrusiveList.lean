import Mathlib

/-!
# Intrusive singly linked lists

A list threaded through its items: a head, a tail and a next field for every item.  The operations
rewrite links only; what they do is stated on the list of items that following the links visits.
-/

namespace Postgamma

/-- Head, tail and next fields of a list threaded through items of type `α`. -/
structure Links (α : Type) where
  head : Option α
  tail : Option α
  next : α → Option α

namespace Links

variable {α : Type}

/-- No items. -/
def empty : Links α := { head := none, tail := none, next := fun _ => none }

/-- Following `next` from `first` visits exactly the given items and ends. -/
def Path (next : α → Option α) : Option α → List α → Prop
  | first, [] => first = none
  | first, item :: rest => first = some item ∧ Path next (next item) rest

/-- The links thread exactly the given items, each once. -/
structure Holds (links : Links α) (items : List α) : Prop where
  path : Path links.next links.head items
  last : links.tail = items.getLast?
  nodup : items.Nodup

theorem empty_holds : (empty : Links α).Holds [] := ⟨rfl, rfl, List.nodup_nil⟩

theorem Path.head_eq {next : α → Option α} {first : Option α} {items : List α}
    (path : Path next first items) : first = items.head? := by
  cases items with
  | nil => exact path
  | cons item rest => exact path.1

theorem Holds.head_eq {links : Links α} {items : List α} (holds : links.Holds items) :
    links.head = items.head? := holds.path.head_eq

theorem Holds.tail_eq_none_iff {links : Links α} {items : List α} (holds : links.Holds items) :
    links.tail = none ↔ items = [] := by
  rw [holds.last, List.getLast?_eq_none_iff]

/-- The items of a path are determined by its links. -/
theorem Path.unique {next : α → Option α} {first : Option α} {items others : List α}
    (path : Path next first items) (other : Path next first others) : items = others := by
  induction items generalizing first others with
  | nil =>
      cases others with
      | nil => rfl
      | cons item rest => cases path.symm.trans other.1
  | cons item rest induction =>
      cases others with
      | nil => cases other.symm.trans path.1
      | cons item' rest' =>
          obtain rfl := Option.some.inj (path.1.symm.trans other.1)
          rw [induction path.2 other.2]

/-- A path depends on the next fields of its items only. -/
theorem Path.congr {next other : α → Option α} {first : Option α} {items : List α}
    (path : Path next first items) (same : ∀ item ∈ items, other item = next item) :
    Path other first items := by
  induction items generalizing first with
  | nil => exact path
  | cons item rest induction =>
      refine ⟨path.1, ?_⟩
      rw [same item List.mem_cons_self]
      exact induction path.2 fun member inside => same member (List.mem_cons_of_mem _ inside)

variable [DecidableEq α]

/-- Link an item behind the tail. -/
def append (links : Links α) (item : α) : Links α :=
  let next := Function.update links.next item none
  match links.tail with
  | none => { head := some item, tail := some item, next := next }
  | some tail =>
      { head := links.head, tail := some item, next := Function.update next tail (some item) }

/-- Unlink an item behind a known predecessor. -/
def remove (links : Links α) (previous : Option α) (item : α) : Links α :=
  let tail := if links.tail = some item then previous else links.tail
  match previous with
  | none =>
      { head := links.next item, tail := tail, next := Function.update links.next item none }
  | some previous =>
      { head := links.head
        tail := tail
        next := Function.update (Function.update links.next previous (links.next item)) item none }

/-- Unlink the head. -/
def pop (links : Links α) (item : α) : Links α :=
  { head := links.next item
    tail := if links.next item = none then none else links.tail
    next := Function.update links.next item none }

/-- A path grows by an item that its last item is linked to. -/
theorem Path.snoc {next : α → Option α} {first : Option α} {items : List α} {tail item : α}
    (path : Path next first (items ++ [tail])) (fresh : item ∉ items ++ [tail])
    (nodup : (items ++ [tail]).Nodup) :
    Path (Function.update (Function.update next item none) tail (some item)) first
      (items ++ [tail] ++ [item]) := by
  induction items generalizing first with
  | nil =>
      have apart : item ≠ tail := by simpa using fresh
      exact ⟨path.1, by simp [Path, apart]⟩
  | cons other items induction =>
      simp only [List.cons_append, List.nodup_cons, List.mem_cons, not_or] at fresh nodup
      have notLast : other ≠ tail := by
        rintro rfl
        exact nodup.1 (by simp)
      refine ⟨path.1, ?_⟩
      rw [Function.update_of_ne notLast, Function.update_of_ne (Ne.symm fresh.1)]
      exact induction path.2 fresh.2 nodup.2

theorem append_holds {links : Links α} {items : List α} (holds : links.Holds items) {item : α}
    (fresh : item ∉ items) : (links.append item).Holds (items ++ [item]) := by
  have nodup : (items ++ [item]).Nodup := by
    rw [← List.concat_eq_append]
    exact List.Nodup.concat fresh holds.nodup
  rcases List.eq_nil_or_concat items with rfl | ⟨front, tail, rfl⟩
  · have none : links.tail = none := holds.tail_eq_none_iff.mpr rfl
    simp only [append, none]
    exact ⟨⟨rfl, by simp [Path]⟩, rfl, nodup⟩
  · rw [List.concat_eq_append] at holds fresh nodup ⊢
    have last : links.tail = some tail := by simpa using holds.last
    simp only [append, last]
    exact ⟨holds.path.snoc fresh holds.nodup, by simp, nodup⟩

/-- A path shrinks by an item that its predecessor is linked past. -/
theorem Path.unlink {next : α → Option α} {first : Option α} {front back : List α}
    {previous item : α} (path : Path next first (front ++ previous :: item :: back))
    (nodup : (front ++ previous :: item :: back).Nodup) :
    Path (Function.update (Function.update next previous (next item)) item none) first
      (front ++ previous :: back) := by
  induction front generalizing first with
  | nil =>
      simp only [List.nil_append, List.nodup_cons, List.mem_cons, not_or] at nodup
      obtain ⟨⟨apart, fresh⟩, absent, -⟩ := nodup
      refine ⟨path.1, ?_⟩
      rw [Function.update_of_ne apart, Function.update_self]
      refine path.2.2.congr fun member inside => ?_
      have notItem : member ≠ item := by
        rintro rfl
        exact absent inside
      have notPrevious : member ≠ previous := by
        rintro rfl
        exact fresh inside
      rw [Function.update_of_ne notItem, Function.update_of_ne notPrevious]
  | cons other front induction =>
      simp only [List.cons_append, List.nodup_cons, List.mem_append, List.mem_cons, not_or]
        at nodup
      obtain ⟨⟨-, notPrevious, notItem, -⟩, rest⟩ := nodup
      refine ⟨path.1, ?_⟩
      rw [Function.update_of_ne notItem, Function.update_of_ne notPrevious]
      exact induction path.2 rest

/-- The tail after unlinking an item behind its predecessor. -/
theorem Holds.tail_remove {links : Links α} {front back : List α} {item : α}
    (holds : links.Holds (front ++ item :: back)) :
    (if links.tail = some item then front.getLast? else links.tail) =
      (front ++ back).getLast? := by
  have absent := (List.nodup_cons.mp (List.nodup_middle.mp holds.nodup)).1
  rcases List.eq_nil_or_concat back with rfl | ⟨back, last, rfl⟩
  · rw [if_pos (by simpa using holds.last), List.append_nil]
  · rw [List.concat_eq_append] at holds absent ⊢
    have ends : links.tail = some last := by
      rw [holds.last, ← List.cons_append, ← List.append_assoc, List.getLast?_concat]
    rw [ends, if_neg, ← List.append_assoc, List.getLast?_concat]
    intro same
    obtain rfl : last = item := Option.some.inj same
    exact absent (by simp)

theorem remove_holds {links : Links α} {front back : List α} {item : α}
    (holds : links.Holds (front ++ item :: back)) :
    (links.remove front.getLast? item).Holds (front ++ back) := by
  have distinct := List.nodup_middle.mp holds.nodup
  have tail := holds.tail_remove
  rcases List.eq_nil_or_concat front with rfl | ⟨front, previous, rfl⟩
  · refine ⟨?_, tail, distinct.of_cons⟩
    refine holds.path.2.congr fun member inside => ?_
    have apart : member ≠ item := by
      rintro rfl
      exact (List.nodup_cons.mp distinct).1 inside
    exact Function.update_of_ne apart _ _
  · simp only [List.concat_eq_append, List.append_assoc, List.singleton_append] at *
    rw [List.getLast?_concat] at *
    exact ⟨holds.path.unlink holds.nodup, tail, distinct.of_cons⟩

theorem pop_holds {links : Links α} {item : α} {rest : List α}
    (holds : links.Holds (item :: rest)) : (links.pop item).Holds rest := by
  have distinct := List.nodup_cons.mp holds.nodup
  have behind : links.next item = rest.head? := holds.path.2.head_eq
  refine ⟨?_, ?_, distinct.2⟩
  · refine holds.path.2.congr fun member inside => ?_
    have apart : member ≠ item := by
      rintro rfl
      exact distinct.1 inside
    exact Function.update_of_ne apart _ _
  · simp only [pop, behind, List.head?_eq_none_iff]
    cases rest with
    | nil => rfl
    | cons second rest => simpa using holds.last

/-- The links thread exactly the items that satisfy a condition, each once. -/
def Lists (links : Links α) (member : α → Prop) : Prop :=
  ∃ items, links.Holds items ∧ ∀ item, item ∈ items ↔ member item

omit [DecidableEq α] in
theorem empty_lists {member : α → Prop} (none : ∀ item, ¬member item) :
    (empty : Links α).Lists member :=
  ⟨[], empty_holds, fun item => by simp [none item]⟩

omit [DecidableEq α] in
theorem Lists.congr {links : Links α} {member other : α → Prop} (lists : links.Lists member)
    (same : ∀ item, member item ↔ other item) : links.Lists other := by
  obtain ⟨items, holds, listed⟩ := lists
  exact ⟨items, holds, fun item => (listed item).trans (same item)⟩

omit [DecidableEq α] in
theorem Lists.of_head {links : Links α} {member : α → Prop} (lists : links.Lists member) {item : α}
    (head : links.head = some item) : member item := by
  obtain ⟨items, holds, listed⟩ := lists
  refine (listed item).mp ?_
  rw [holds.head_eq] at head
  exact List.mem_of_head? head

/-- A new item behind the tail. -/
theorem Lists.append {links : Links α} {member other : α → Prop} (lists : links.Lists member)
    {item : α} (fresh : ¬member item) (grown : ∀ place, other place ↔ member place ∨ place = item) :
    (links.append item).Lists other := by
  obtain ⟨items, holds, listed⟩ := lists
  refine ⟨items ++ [item], append_holds holds ?_, fun place => ?_⟩
  · rwa [listed item]
  · rw [List.mem_append, List.mem_singleton, listed place, grown place]

/-- An item goes from between its neighbours. -/
theorem Lists.remove {links : Links α} {member other : α → Prop} {front back : List α} {item : α}
    (holds : links.Holds (front ++ item :: back))
    (listed : ∀ place, place ∈ front ++ item :: back ↔ member place)
    (shrunk : ∀ place, other place ↔ member place ∧ place ≠ item) :
    (links.remove front.getLast? item).Lists other := by
  refine ⟨front ++ back, remove_holds holds, fun place => ?_⟩
  have absent := (List.nodup_cons.mp (List.nodup_middle.mp holds.nodup)).1
  have spread : place ∈ front ++ item :: back ↔ place ∈ front ++ back ∨ place = item := by
    simp only [List.mem_append, List.mem_cons]
    tauto
  rw [shrunk place, ← listed place, spread]
  constructor
  · intro inside
    refine ⟨.inl inside, ?_⟩
    rintro rfl
    exact absent inside
  · rintro ⟨inside | same, apart⟩
    · exact inside
    · exact absurd same apart

/-- The head goes. -/
theorem Lists.pop {links : Links α} {member other : α → Prop} (lists : links.Lists member)
    {item : α} (head : links.head = some item)
    (shrunk : ∀ place, other place ↔ member place ∧ place ≠ item) : (links.pop item).Lists other := by
  obtain ⟨items, holds, listed⟩ := lists
  rw [holds.head_eq, List.head?_eq_some_iff] at head
  obtain ⟨rest, rfl⟩ := head
  refine ⟨rest, pop_holds holds, fun place => ?_⟩
  have absent := (List.nodup_cons.mp holds.nodup).1
  rw [shrunk place, ← listed place, List.mem_cons]
  constructor
  · intro inside
    refine ⟨.inr inside, ?_⟩
    rintro rfl
    exact absent inside
  · rintro ⟨same | inside, apart⟩
    · exact absurd same apart
    · exact inside

/-- The next field of an item outside the list does not matter. -/
theorem Holds.clear {links : Links α} {items : List α} (holds : links.Holds items) {item : α}
    (outside : item ∉ items) :
    Holds { links with next := Function.update links.next item none } items := by
  refine ⟨holds.path.congr fun place inside => Function.update_of_ne ?_ _ _, holds.last, holds.nodup⟩
  rintro rfl
  exact outside inside

theorem Lists.clear {links : Links α} {member : α → Prop} (lists : links.Lists member) {item : α}
    (outside : ¬member item) :
    Lists { links with next := Function.update links.next item none } member := by
  obtain ⟨items, holds, listed⟩ := lists
  exact ⟨items, holds.clear fun inside => outside ((listed item).mp inside), listed⟩

end Links

end Postgamma
