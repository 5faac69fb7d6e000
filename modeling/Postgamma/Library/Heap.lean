import Mathlib

/-!
# Binary heaps

The keys of a binary heap by place, with the smallest key at the root.  A key that is put into the
place of another may be too small or too large for it, and changes places with its parent or its
smallest child until every key is at least its parent's.
-/

namespace Postgamma

def parent (place : ℕ) : ℕ := (place - 1) / 2

theorem parent_lt {place : ℕ} (positive : 0 < place) : parent place < place := by
  unfold parent
  omega

theorem parent_eq {place hole : ℕ} (positive : 0 < place) :
    parent place = hole ↔ place = 2 * hole + 1 ∨ place = 2 * hole + 2 := by
  unfold parent
  omega

/-- The keys at two places exchanged. -/
def exchanged {α : Type} (values : ℕ → α) (first second : ℕ) : ℕ → α :=
  Function.update (Function.update values first (values second)) second (values first)

theorem exchanged_first {α : Type} (values : ℕ → α) {first second : ℕ} (apart : first ≠ second) :
    exchanged values first second first = values second := by
  simp [exchanged, apart]

theorem exchanged_second {α : Type} (values : ℕ → α) (first second : ℕ) :
    exchanged values first second second = values first := by
  simp [exchanged]

theorem exchanged_other {α : Type} (values : ℕ → α) {first second place : ℕ}
    (one : place ≠ first) (two : place ≠ second) :
    exchanged values first second place = values place := by
  simp [exchanged, one, two]

/-- Every key is at least its parent's. -/
def Ordered (values : ℕ → ℕ) (count : ℕ) : Prop :=
  ∀ place, 0 < place → place < count → values (parent place) ≤ values place

/-- The keys are in order but for one place, which may be too small or too large. -/
structure OrderedBut (values : ℕ → ℕ) (count hole : ℕ) : Prop where
  others : ∀ place, 0 < place → place < count → place ≠ hole → parent place ≠ hole →
    values (parent place) ≤ values place
  around : hole ≠ 0 → ∀ place, 0 < place → place < count → parent place = hole →
    values (parent hole) ≤ values place

/-- The key of the place is not too large for its children. -/
def FitsBelow (values : ℕ → ℕ) (count hole : ℕ) : Prop :=
  ∀ place, 0 < place → place < count → parent place = hole → values hole ≤ values place

/-- The key of the place is not too small for its parent. -/
def FitsAbove (values : ℕ → ℕ) (hole : ℕ) : Prop :=
  hole ≠ 0 → values (parent hole) ≤ values hole

theorem OrderedBut.ordered {values : ℕ → ℕ} {count hole : ℕ} (but : OrderedBut values count hole)
    (below : FitsBelow values count hole) (above : FitsAbove values hole) :
    Ordered values count := by
  intro place positive inside
  by_cases here : place = hole
  · subst here
    exact above positive.ne'
  · by_cases child : parent place = hole
    · rw [child]
      exact below place positive inside child
    · exact but.others place positive inside here child

theorem Ordered.but {values : ℕ → ℕ} {count : ℕ} (ordered : Ordered values count) (hole : ℕ) :
    OrderedBut values count hole := by
  refine ⟨fun place positive inside _ _ => ordered place positive inside, ?_⟩
  intro inner place positive inside child
  have upper := ordered hole (Nat.pos_of_ne_zero inner) (child ▸ (parent_lt positive).trans inside)
  have lower := ordered place positive inside
  rw [child] at lower
  exact upper.trans lower

theorem Ordered.root_le {values : ℕ → ℕ} {count : ℕ} (ordered : Ordered values count) {place : ℕ}
    (inside : place < count) : values 0 ≤ values place := by
  induction place using Nat.strong_induction_on with
  | h place induction =>
      by_cases root : place = 0
      · rw [root]
      · have upper := parent_lt (Nat.pos_of_ne_zero root)
        exact (induction (parent place) upper (upper.trans inside)).trans
          (ordered place (Nat.pos_of_ne_zero root) inside)

/-- A key that is too small changes places with its parent. -/
theorem OrderedBut.up {values : ℕ → ℕ} {count hole : ℕ} (but : OrderedBut values count hole)
    (below : FitsBelow values count hole) (inner : hole ≠ 0) (inside : hole < count)
    (small : values hole < values (parent hole)) :
    OrderedBut (exchanged values (parent hole) hole) count (parent hole) ∧
      FitsBelow (exchanged values (parent hole) hole) count (parent hole) := by
  have lower := parent_lt (Nat.pos_of_ne_zero inner)
  have apart : parent hole ≠ hole := lower.ne
  have beyond : parent hole ≠ 0 → parent (parent hole) < parent hole :=
    fun positive => parent_lt (Nat.pos_of_ne_zero positive)
  have upper : parent hole ≠ 0 → values (parent (parent hole)) ≤ values (parent hole) :=
    fun positive => but.others (parent hole) (Nat.pos_of_ne_zero positive) (lower.trans inside)
      apart ((beyond positive).trans lower).ne
  have sibling : ∀ place, 0 < place → parent place = parent hole → place ≠ parent hole :=
    fun place positive child here => (parent_lt positive).ne (child.trans here.symm)
  refine ⟨⟨fun place positive within away notChild => ?_, fun top place positive within child => ?_⟩,
    fun place positive within child => ?_⟩
  · have elsewhere : place ≠ hole := by
      rintro rfl
      exact notChild rfl
    rw [exchanged_other values away elsewhere]
    by_cases under : parent place = hole
    · rw [under, exchanged_second]
      exact but.around inner place positive within under
    · rw [exchanged_other values notChild under]
      exact but.others place positive within elsewhere under
  · rw [exchanged_other values (beyond top).ne ((beyond top).trans lower).ne]
    by_cases here : place = hole
    · rw [here, exchanged_second]
      exact upper top
    · rw [exchanged_other values (sibling place positive child) here]
      have edge := but.others place positive within here (by rw [child]; exact apart)
      rw [child] at edge
      exact (upper top).trans edge
  · rw [exchanged_first values apart]
    by_cases here : place = hole
    · rw [here, exchanged_second]
      exact small.le
    · rw [exchanged_other values (sibling place positive child) here]
      have edge := but.others place positive within here (by rw [child]; exact apart)
      rw [child] at edge
      exact small.le.trans edge

/-- A key that is too large changes places with its smallest child. -/
theorem OrderedBut.down {values : ℕ → ℕ} {count hole child : ℕ}
    (but : OrderedBut values count hole) (above : FitsAbove values hole) (positive : 0 < child)
    (inside : child < count) (under : parent child = hole)
    (smallest : ∀ place, 0 < place → place < count → parent place = hole →
      values child ≤ values place)
    (large : values child < values hole) :
    OrderedBut (exchanged values hole child) count child ∧
      FitsAbove (exchanged values hole child) child := by
  have apart : hole ≠ child := under ▸ (parent_lt positive).ne
  refine ⟨⟨fun place positive within away notChild => ?_, fun _ place positive within below => ?_⟩,
    fun _ => ?_⟩
  · by_cases here : place = hole
    · subst here
      rw [exchanged_first values apart, exchanged_other values (parent_lt positive).ne notChild]
      exact but.around positive.ne' child ‹_› inside under
    · rw [exchanged_other values here away]
      by_cases sibling : parent place = hole
      · rw [sibling, exchanged_first values apart]
        exact smallest place positive within sibling
      · rw [exchanged_other values sibling notChild]
        exact but.others place positive within here sibling
  · have deeper : child < place := below ▸ parent_lt positive
    have lower : hole < place := (under ▸ parent_lt ‹0 < child›).trans deeper
    rw [under, exchanged_first values apart, exchanged_other values lower.ne' deeper.ne']
    have edge := but.others place positive within lower.ne' (by rw [below]; exact apart.symm)
    rwa [below] at edge
  · rw [under, exchanged_first values apart, exchanged_second]
    exact large.le

/-- Another key in one place, and the last keys given up. -/
theorem Ordered.replaced {values : ℕ → ℕ} {count fewer : ℕ} (ordered : Ordered values count)
    (less : fewer ≤ count) (hole value : ℕ) :
    OrderedBut (Function.update values hole value) fewer hole := by
  refine ⟨fun place positive inside away notChild => ?_, fun inner place positive inside child => ?_⟩
  · rw [Function.update_of_ne notChild, Function.update_of_ne away]
    exact ordered place positive (inside.trans_le less)
  · have deeper : hole < place := child ▸ parent_lt positive
    rw [Function.update_of_ne (parent_lt (Nat.pos_of_ne_zero inner)).ne,
      Function.update_of_ne deeper.ne']
    exact (ordered.but hole).around inner place positive (inside.trans_le less) child

/-- A key behind the last one. -/
theorem Ordered.extended {values : ℕ → ℕ} {count : ℕ} (ordered : Ordered values count)
    (value : ℕ) : OrderedBut (Function.update values count value) (count + 1) count := by
  refine ⟨fun place positive inside away notChild => ?_, fun _ place positive inside child => ?_⟩
  · rw [Function.update_of_ne notChild, Function.update_of_ne away]
    exact ordered place positive (by omega)
  · exact absurd (child ▸ parent_lt positive) (by omega)

end Postgamma
