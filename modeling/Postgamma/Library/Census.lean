import Mathlib

/-!
# Counting the entries of a table

How many entries of a finite table satisfy a test, what a measure of its entries comes to, and how
the numbers change with one entry.
-/

namespace Postgamma

variable {ι α : Type} [Fintype ι] [DecidableEq ι]

/-- The sum of a measure of the entries. -/
def total (measure : α → ℕ) (table : ι → α) : ℕ := ∑ index, measure (table index)

/-- Rewriting one entry moves the total by that entry. -/
theorem total_update (measure : α → ℕ) (table : ι → α) (index : ι) (entry : α) :
    total measure (Function.update table index entry) + measure (table index) =
      total measure table + measure entry := by
  have rest (other : ι → α) : total measure other =
      measure (other index) + ∑ place ∈ Finset.univ.erase index, measure (other place) :=
    (Finset.add_sum_erase _ _ (Finset.mem_univ index)).symm
  have same : ∑ place ∈ Finset.univ.erase index,
      measure (Function.update table index entry place) =
        ∑ place ∈ Finset.univ.erase index, measure (table place) := by
    refine Finset.sum_congr rfl fun place member => ?_
    rw [Function.update_of_ne (Finset.ne_of_mem_erase member)]
  rw [rest, rest table, same, Function.update_self]
  ring

omit [DecidableEq ι] in
theorem entry_le_total (measure : α → ℕ) (table : ι → α) (index : ι) :
    measure (table index) ≤ total measure table :=
  Finset.single_le_sum (f := fun place => measure (table place)) (fun _ _ => Nat.zero_le _)
    (Finset.mem_univ index)

omit [DecidableEq ι] in
theorem total_eq_zero {measure : α → ℕ} {table : ι → α}
    (zero : ∀ index, measure (table index) = 0) : total measure table = 0 :=
  Finset.sum_eq_zero fun index _ => zero index

omit [DecidableEq ι] in
theorem total_le_total {measure other : α → ℕ} {table : ι → α}
    (below : ∀ index, measure (table index) ≤ other (table index)) :
    total measure table ≤ total other table :=
  Finset.sum_le_sum fun index _ => below index

/-- Number of entries that satisfy a test. -/
def census (test : α → Bool) (table : ι → α) : ℕ := ∑ index, (test (table index)).toNat

/-- Rewriting one entry moves the census by that entry. -/
theorem census_update (test : α → Bool) (table : ι → α) (index : ι) (entry : α) :
    census test (Function.update table index entry) + (test (table index)).toNat =
      census test table + (test entry).toNat :=
  total_update (fun entry => (test entry).toNat) table index entry

omit [DecidableEq ι] in
theorem census_eq_card (test : α → Bool) (table : ι → α) :
    census test table = (Finset.univ.filter fun index => test (table index) = true).card := by
  rw [census, Finset.card_filter]
  refine Finset.sum_congr rfl fun index _ => ?_
  cases test (table index) <;> rfl

omit [DecidableEq ι] in
/-- A satisfied entry is counted. -/
theorem census_pos {test : α → Bool} {table : ι → α} (index : ι)
    (holds : test (table index) = true) : 0 < census test table := by
  rw [census_eq_card, Finset.card_pos]
  exact ⟨index, by simp [holds]⟩

omit [DecidableEq ι] in
/-- An entry that fails the test leaves room below the size of the table. -/
theorem census_lt_card {test : α → Bool} {table : ι → α} {index : ι}
    (fails : test (table index) = false) : census test table < Fintype.card ι := by
  rw [census_eq_card]
  apply Finset.card_lt_univ_of_notMem (x := index)
  simp [fails]

/-- A list of exactly the satisfied entries, each once, is as long as the census. -/
theorem length_eq_census {test : α → Bool} {table : ι → α} {items : List ι}
    (nodup : items.Nodup) (listed : ∀ index, index ∈ items ↔ test (table index) = true) :
    items.length = census test table := by
  rw [census_eq_card, ← List.toFinset_card_of_nodup nodup]
  congr 1
  ext index
  simp [listed index]

/-- Number of entries below a bound that satisfy a test. -/
def tally {α : Type} (test : α → Bool) (bound : ℕ) (table : ℕ → α) : ℕ :=
  ∑ index ∈ Finset.range bound, (test (table index)).toNat

section

variable {α β : Type} {test : α → Bool} {bound : ℕ} {table : ℕ → α}

/-- Rewriting one entry moves the tally by that entry. -/
theorem tally_update {index : ℕ} (entry : α) (inside : index < bound) :
    tally test bound (Function.update table index entry) + (test (table index)).toNat =
      tally test bound table + (test entry).toNat := by
  have member := Finset.mem_range.2 inside
  have same : ∑ place ∈ (Finset.range bound).erase index,
      (test (Function.update table index entry place)).toNat =
        ∑ place ∈ (Finset.range bound).erase index, (test (table place)).toNat := by
    refine Finset.sum_congr rfl fun place other => ?_
    rw [Function.update_of_ne (Finset.ne_of_mem_erase other)]
  rw [tally, tally, ← Finset.add_sum_erase _ _ member, ← Finset.add_sum_erase _ _ member, same,
    Function.update_self]
  ring

theorem tally_succ (test : α → Bool) (bound : ℕ) (table : ℕ → α) :
    tally test (bound + 1) table = tally test bound table + (test (table bound)).toNat :=
  Finset.sum_range_succ _ _

/-- A new entry at the bound. -/
theorem tally_push (entry : α) :
    tally test (bound + 1) (Function.update table bound entry) =
      tally test bound table + (test entry).toNat := by
  rw [tally_succ, Function.update_self]
  congr 1
  refine Finset.sum_congr rfl fun place member => ?_
  rw [Function.update_of_ne (Finset.mem_range.1 member).ne]

theorem tally_congr {other : β → Bool} {second : ℕ → β}
    (same : ∀ index < bound, test (table index) = other (second index)) :
    tally test bound table = tally other bound second :=
  Finset.sum_congr rfl fun index member => by rw [same index (Finset.mem_range.1 member)]

theorem tally_eq_zero (none : ∀ index < bound, test (table index) = false) :
    tally test bound table = 0 :=
  Finset.sum_eq_zero fun index member => by rw [none index (Finset.mem_range.1 member)]; rfl

/-- Only entries that fail the test are counted nowhere. -/
theorem tally_eq_zero_iff :
    tally test bound table = 0 ↔ ∀ index < bound, test (table index) = false := by
  refine ⟨fun zero index inside => ?_, tally_eq_zero⟩
  have each := Finset.sum_eq_zero_iff.1 zero index (Finset.mem_range.2 inside)
  exact Bool.toNat_eq_zero.1 each

end

end Postgamma
