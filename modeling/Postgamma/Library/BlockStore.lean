import Mathlib

/-!
# Stores of blocks

What an allocator of byte blocks is for: a block is in use or not, and holds bytes while it is.  The
operations say what becomes of the block that they name; all other blocks stay as they are.
-/

namespace Postgamma

variable {ι : Type} [DecidableEq ι]

/-- The bytes of the blocks in use. -/
abbrev BlockStore (ι : Type) := ι → Option (List UInt8)

namespace BlockStore

/-- An allocation fails, or answers a block that was not in use. -/
def Allocates (before after : BlockStore ι) (size : ℕ) : Option ι → Prop
  | none => after = before
  | some block => before block = none ∧
      ∃ bytes : List UInt8, bytes.length = size ∧ after = Function.update before block (some bytes)

def AllocatesZeros (before after : BlockStore ι) (size : ℕ) : Option ι → Prop
  | none => after = before
  | some block => before block = none ∧
      after = Function.update before block (some (List.replicate size 0))

/-- A block goes out of use. -/
def Frees (before after : BlockStore ι) (block : ι) : Prop :=
  before block ≠ none ∧ after = Function.update before block none

/-- A block is replaced by one of another size with the same bytes in front; a failure changes
nothing. -/
def Resizes (before after : BlockStore ι) (block : ι) (size : ℕ) (answer : Option ι) : Prop :=
  ∃ bytes, before block = some bytes ∧
    match answer with
    | none => after = before
    | some fresh => before fresh = none ∧ ∃ resized : List UInt8, resized.length = size ∧
        resized.take (min bytes.length size) = bytes.take (min bytes.length size) ∧
        after = Function.update (Function.update before block none) fresh (some resized)

/-- One byte of a block is written. -/
def Writes (before after : BlockStore ι) (block : ι) (place : ℕ) (byte : UInt8) : Prop :=
  ∃ bytes, before block = some bytes ∧ place < bytes.length ∧
    after = Function.update before block (some (bytes.set place byte))

variable {before after : BlockStore ι} {block other : ι} {size place : ℕ} {answer : Option ι}

theorem Allocates.keeps (allocates : Allocates before after size answer)
    (used : before other ≠ none) : after other = before other := by
  cases answer with
  | none => rw [allocates]
  | some block =>
      obtain ⟨fresh, bytes, -, rfl⟩ := allocates
      refine Function.update_of_ne ?_ ..
      rintro rfl
      exact used fresh

theorem AllocatesZeros.keeps (allocates : AllocatesZeros before after size answer)
    (used : before other ≠ none) : after other = before other := by
  cases answer with
  | none => rw [allocates]
  | some block =>
      obtain ⟨fresh, rfl⟩ := allocates
      refine Function.update_of_ne ?_ ..
      rintro rfl
      exact used fresh

theorem Frees.keeps (frees : Frees before after block) (apart : other ≠ block) :
    after other = before other := by
  rw [frees.2]
  exact Function.update_of_ne apart ..

theorem Resizes.keeps (resizes : Resizes before after block size answer)
    (used : before other ≠ none) (apart : other ≠ block) : after other = before other := by
  obtain ⟨bytes, -, resizes⟩ := resizes
  cases answer with
  | none => rw [resizes]
  | some fresh =>
      obtain ⟨unused, resized, -, -, rfl⟩ := resizes
      have different : other ≠ fresh := by
        rintro rfl
        exact used unused
      rw [Function.update_of_ne different, Function.update_of_ne apart]

theorem Writes.keeps {byte : UInt8} (writes : Writes before after block place byte)
    (apart : other ≠ block) : after other = before other := by
  obtain ⟨bytes, -, -, rfl⟩ := writes
  exact Function.update_of_ne apart ..

end BlockStore
end Postgamma
