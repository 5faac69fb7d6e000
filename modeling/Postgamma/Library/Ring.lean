import Mathlib

/-!
# Ring buffers

A ring buffer keeps a queue in consecutive places of an array, counted modulo its capacity from the
place of the first element.  The queue is read off as a list, and pushing, popping and removing are
operations of that list.
-/

namespace Postgamma

variable {α : Type}

/-- The queue of a ring: `count` places from `head` on. -/
def window (entries : ℕ → α) (capacity head count : ℕ) : List α :=
  (List.range count).map fun offset => entries ((head + offset) % capacity)

@[simp] theorem window_length (entries : ℕ → α) (capacity head count : ℕ) :
    (window entries capacity head count).length = count := by
  simp [window]

@[simp] theorem window_zero (entries : ℕ → α) (capacity head : ℕ) :
    window entries capacity head 0 = [] := rfl

theorem window_succ (entries : ℕ → α) (capacity head count : ℕ) :
    window entries capacity head (count + 1) =
      window entries capacity head count ++ [entries ((head + count) % capacity)] := by
  simp [window, List.range_succ]

/-- Places of one ring are different. -/
theorem place_ne {capacity first second : ℕ} (head : ℕ) (less : first < second)
    (inside : second < capacity) : (head + first) % capacity ≠ (head + second) % capacity := by
  intro same
  have congruent : first ≡ second [MOD capacity] := Nat.ModEq.add_left_cancel' head same
  rw [Nat.ModEq, Nat.mod_eq_of_lt (less.trans inside), Nat.mod_eq_of_lt inside] at congruent
  omega

theorem window_congr {entries others : ℕ → α} {capacity head count : ℕ}
    (same : ∀ offset < count, entries ((head + offset) % capacity) =
      others ((head + offset) % capacity)) :
    window entries capacity head count = window others capacity head count :=
  List.map_congr_left fun offset member => same offset (List.mem_range.1 member)

/-- A write outside of the queue. -/
theorem window_update {capacity head count offset : ℕ} (entries : ℕ → α) (value : α)
    (behind : count ≤ offset) (inside : offset < capacity) :
    window (Function.update entries ((head + offset) % capacity) value) capacity head count =
      window entries capacity head count :=
  window_congr fun _ less =>
    Function.update_of_ne (place_ne head (less.trans_le behind) inside) _ _

/-- Pushing writes the place behind the queue. -/
theorem window_push {capacity head count : ℕ} (entries : ℕ → α) (value : α)
    (room : count < capacity) :
    window (Function.update entries ((head + count) % capacity) value) capacity head (count + 1) =
      window entries capacity head count ++ [value] := by
  rw [window_succ, window_update entries value le_rfl room, Function.update_self]

/-- A write inside of the queue. -/
theorem window_set {capacity head count offset : ℕ} (entries : ℕ → α) (value : α)
    (full : count ≤ capacity) (inside : offset < count) :
    window (Function.update entries ((head + offset) % capacity) value) capacity head count =
      (window entries capacity head count).set offset value := by
  refine List.ext_getElem (by simp) fun other less _ => ?_
  rw [window_length] at less
  simp only [window, List.getElem_map, List.getElem_range, List.getElem_set]
  by_cases same : offset = other
  · rw [if_pos same, same, Function.update_self]
  · rw [if_neg same]
    refine Function.update_of_ne ?_ _ _
    obtain before | behind := Nat.lt_or_gt_of_ne same
    · exact (place_ne head before (by omega)).symm
    · exact place_ne head behind (by omega)

/-- Popping moves the head. -/
theorem window_drop (entries : ℕ → α) (capacity head count amount : ℕ) :
    window entries capacity ((head + amount) % capacity) (count - amount) =
      (window entries capacity head count).drop amount := by
  refine List.ext_getElem (by simp) fun offset less _ => ?_
  simp only [window, List.getElem_map, List.getElem_range, List.getElem_drop]
  rw [Nat.mod_add_mod, Nat.add_assoc]

theorem window_take (entries : ℕ → α) (capacity head : ℕ) {count amount : ℕ}
    (enough : amount ≤ count) :
    window entries capacity head amount = (window entries capacity head count).take amount := by
  rw [window, window, ← List.map_take, List.take_range, Nat.min_eq_left enough]

/-- The elements of a list written behind the queue, one place after another. -/
def pushAll (capacity head : ℕ) : ℕ → List α → (ℕ → α) → ℕ → α
  | _, [], entries => entries
  | count, value :: rest, entries =>
      pushAll capacity head (count + 1) rest
        (Function.update entries ((head + count) % capacity) value)

theorem window_pushAll {capacity head count : ℕ} (entries : ℕ → α) (values : List α)
    (room : count + values.length ≤ capacity) :
    window (pushAll capacity head count values entries) capacity head (count + values.length) =
      window entries capacity head count ++ values := by
  induction values generalizing entries count with
  | nil => rw [pushAll, List.length_nil, Nat.add_zero, List.append_nil]
  | cons value rest induction =>
      rw [List.length_cons] at room ⊢
      have next := induction (Function.update entries ((head + count) % capacity) value)
        (show count + 1 + rest.length ≤ capacity by omega)
      rw [pushAll, show count + (rest.length + 1) = count + 1 + rest.length by omega, next,
        window_push entries value (by omega), List.append_assoc, List.singleton_append]

/-- Every element from a place on is replaced by the next one; `amount` elements move. -/
def shift (capacity head : ℕ) : ℕ → ℕ → (ℕ → α) → ℕ → α
  | _, 0, entries => entries
  | offset, amount + 1, entries =>
      shift capacity head (offset + 1) amount
        (Function.update entries ((head + offset) % capacity)
          (entries ((head + offset + 1) % capacity)))

/-- Places outside of the moved ones keep their elements. -/
theorem shift_outside {capacity head offset amount other : ℕ} (entries : ℕ → α)
    (inside : offset + amount ≤ capacity) (before : other < offset) :
    shift capacity head offset amount entries ((head + other) % capacity) =
      entries ((head + other) % capacity) := by
  induction amount generalizing entries offset with
  | zero => rfl
  | succ amount induction =>
      rw [shift, induction _ (by omega) (by omega)]
      exact Function.update_of_ne (place_ne head before (by omega)) _ _

theorem shift_moved {capacity head offset amount other : ℕ} (entries : ℕ → α)
    (inside : offset + amount < capacity) (low : offset ≤ other) (high : other < offset + amount) :
    shift capacity head offset amount entries ((head + other) % capacity) =
      entries ((head + other + 1) % capacity) := by
  induction amount generalizing entries offset with
  | zero => omega
  | succ amount induction =>
      rw [shift]
      obtain rfl | later := Nat.eq_or_lt_of_le low
      · rw [shift_outside _ (by omega) (Nat.lt_succ_self _), Function.update_self]
      · rw [induction _ (by omega) later (by omega)]
        have apart : (head + (other + 1)) % capacity ≠ (head + offset) % capacity :=
          (place_ne head (by omega) (by omega)).symm
        exact Function.update_of_ne apart _ _

theorem window_remove {capacity head count offset : ℕ} (entries : ℕ → α) (full : count ≤ capacity)
    (inside : offset < count) :
    window (shift capacity head offset (count - 1 - offset) entries) capacity head (count - 1) =
      (window entries capacity head count).eraseIdx offset := by
  refine List.ext_getElem ?_ fun other less _ => ?_
  · rw [List.length_eraseIdx_of_lt (by simpa using inside), window_length, window_length]
  · rw [window_length] at less
    simp only [window, List.getElem_map, List.getElem_range, List.getElem_eraseIdx]
    split_ifs with before
    · rw [shift_outside entries (by omega) before]
    · rw [shift_moved entries (by omega) (by omega) (by omega), Nat.add_assoc]

/-- Consecutive places of an array. -/
def segment (entries : ℕ → α) (start count : ℕ) : List α :=
  (List.range count).map fun offset => entries (start + offset)

/-- A list copied into an array, from a place on. -/
def copyInto (entries : ℕ → α) (start : ℕ) (source : List α) : ℕ → α := fun place =>
  if start ≤ place then (source[place - start]?).getD (entries place) else entries place

@[simp] theorem segment_length (entries : ℕ → α) (start count : ℕ) :
    (segment entries start count).length = count := by
  simp [segment]

theorem copyInto_inside {entries : ℕ → α} {start offset : ℕ} {source : List α}
    (inside : offset < source.length) :
    copyInto entries start source (start + offset) = source[offset] := by
  simp [copyInto, inside]

theorem copyInto_outside {entries : ℕ → α} {start place : ℕ} {source : List α}
    (outside : place < start ∨ start + source.length ≤ place) :
    copyInto entries start source place = entries place := by
  rw [copyInto]
  split_ifs with behind
  · rw [List.getElem?_eq_none (by omega), Option.getD_none]
  · rfl

/-- A place of a ring, when it is counted past the end at most once. -/
theorem place_wrap {capacity start : ℕ} (inside : start < capacity) (offset : ℕ)
    (once : offset ≤ capacity) :
    (start + offset) % capacity =
      if start + offset < capacity then start + offset else start + offset - capacity := by
  split_ifs with before
  · exact Nat.mod_eq_of_lt before
  · rw [Nat.mod_eq_sub_mod (by omega), Nat.mod_eq_of_lt (by omega)]

/-- Reading a ring in two segments. -/
theorem segment_append_segment (entries : ℕ → α) {capacity head amount : ℕ}
    (inside : head < capacity) (fits : amount ≤ capacity) :
    segment entries head (min amount (capacity - head)) ++
        segment entries 0 (amount - min amount (capacity - head)) =
      window entries capacity head amount := by
  refine List.ext_getElem (by simp) fun offset left right => ?_
  rw [window_length] at right
  simp only [window, segment, List.getElem_append, List.getElem_map, List.getElem_range,
    List.length_map, List.length_range, place_wrap inside offset (by omega)]
  split_ifs with first before before
  · rfl
  · omega
  · omega
  · congr 1
    omega

/-- Writing a ring in two segments, from a place on. -/
def copyAround (entries : ℕ → α) (capacity tail : ℕ) (source : List α) : ℕ → α :=
  copyInto (copyInto entries tail (source.take (capacity - tail))) 0 (source.drop (capacity - tail))

theorem copyAround_inside {entries : ℕ → α} {capacity tail offset : ℕ} {source : List α}
    (inside : tail < capacity) (fits : source.length ≤ capacity) (within : offset < source.length) :
    copyAround entries capacity tail source ((tail + offset) % capacity) = source[offset] := by
  rw [copyAround, place_wrap inside offset (by omega)]
  split_ifs with before
  · have written : offset < (source.take (capacity - tail)).length := by
      rw [List.length_take]
      omega
    have later : 0 + (source.drop (capacity - tail)).length ≤ tail + offset := by
      rw [List.length_drop]
      omega
    rw [copyInto_outside (.inr later), copyInto_inside written, List.getElem_take]
  · have written : tail + offset - capacity < (source.drop (capacity - tail)).length := by
      rw [List.length_drop]
      omega
    have copied : copyInto (copyInto entries tail (source.take (capacity - tail))) 0
        (source.drop (capacity - tail)) (0 + (tail + offset - capacity)) =
          (source.drop (capacity - tail))[tail + offset - capacity] := copyInto_inside written
    rw [Nat.zero_add] at copied
    rw [copied, List.getElem_drop]
    congr 1
    omega

theorem copyAround_outside {entries : ℕ → α} {capacity tail offset : ℕ} {source : List α}
    (inside : tail < capacity) (behind : source.length ≤ offset) (within : offset < capacity) :
    copyAround entries capacity tail source ((tail + offset) % capacity) =
      entries ((tail + offset) % capacity) := by
  have first : (source.take (capacity - tail)).length = min (capacity - tail) source.length :=
    List.length_take ..
  have second : (source.drop (capacity - tail)).length = source.length - (capacity - tail) :=
    List.length_drop ..
  have place := place_wrap inside offset within.le
  rw [copyAround, copyInto_outside, copyInto_outside]
  · rw [first, place]
    split_ifs <;> omega
  · rw [second, place]
    split_ifs <;> omega

/-- Writing behind the queue in two segments. -/
theorem window_copyAround {capacity head count : ℕ} (entries : ℕ → α) (source : List α)
    (positive : 0 < capacity) (room : count + source.length ≤ capacity) :
    window (copyAround entries capacity ((head + count) % capacity) source) capacity head
        (count + source.length) = window entries capacity head count ++ source := by
  have tail : (head + count) % capacity < capacity := Nat.mod_lt _ positive
  refine List.ext_getElem (by simp) fun offset left _ => ?_
  rw [window_length] at left
  simp only [window, List.getElem_append, List.getElem_map, List.getElem_range, List.length_map,
    List.length_range]
  split_ifs with queued
  · -- The place is `capacity - count` places behind the tail.
    have place : (head + offset) % capacity =
        ((head + count) % capacity + (offset + (capacity - count))) % capacity := by
      rw [Nat.mod_add_mod, show head + count + (offset + (capacity - count)) =
        head + offset + capacity by omega, Nat.add_mod_right]
    rw [place, copyAround_outside tail (by omega) (by omega)]
  · have place : (head + offset) % capacity =
        ((head + count) % capacity + (offset - count)) % capacity := by
      rw [Nat.mod_add_mod, show head + count + (offset - count) = head + offset by omega]
    rw [place, copyAround_inside tail (by omega) (by omega)]

end Postgamma
