import Mathlib

/-!
# Substituting ranges of a list

`substitute` cuts a list at the ranges of some edits and puts the text of each edit in the place of
its range.  Splicing the edits in one at a time, from the last to the first, computes the same list,
because a splice leaves everything before it where it was.
-/

namespace Postgamma

variable {α : Type}

/-- The range from `start` up to `stop` becomes `text`. -/
structure Edit (α : Type) where
  start : ℕ
  stop : ℕ
  text : List α

/-- The place of an element in the result. -/
def shifted (index place : ℕ) : List (Edit α) → ℕ
  | [] => index - place
  | edit :: rest =>
      if index < edit.start then index - place
      else edit.start - place + edit.text.length + shifted index edit.stop rest

end Postgamma
