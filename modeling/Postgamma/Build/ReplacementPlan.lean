import Mathlib

/-!
# Replacement plans

A plan lists, for each source file, the byte ranges to be replaced.  `merge` combines the plans of
several generators, and `applyBytes` applies the entry of one file to its bytes.  The digest of a
file is a parameter.
-/

namespace Postgamma.Build

/-- A replacement object; `rest` stands for the fields that are only compared. -/
structure Replacement (ρ : Type) where
  offset : ℤ
  length : ℤ
  original : String
  replacement : String
  ruleId : Option String
  rest : ρ
  deriving DecidableEq

/-- An entry of the `files` of a plan. -/
structure FileEntry (ρ : Type) where
  path : String
  sha256 : String
  replacements : List (Replacement ρ)
  deriving DecidableEq

/-- A plan document. -/
structure Plan (ρ : Type) where
  files : List (FileEntry ρ)
  deriving DecidableEq

/-- The `ValueError`s of `merge`. -/
inductive MergeError where
  | tooFewPlans
  | digestDisagreement (path : String)
  | conflicting (path : String) (offset length : ℤ)
  | overlapping (path : String) (start : ℤ)
  deriving DecidableEq

/-- What `merge` returns. -/
structure Merged (ρ : Type) where
  files : List (FileEntry ρ)
  componentCount : ℕ
  fileCount : ℕ
  replacementCount : ℕ
  deriving DecidableEq

section Merge

variable {ρ : Type} [DecidableEq ρ]

/-- One file entry joins `by_path`. -/
def gather (targets : List (FileEntry ρ)) (entry : FileEntry ρ) :
    Except MergeError (List (FileEntry ρ)) :=
  match targets with
  | [] => .ok [entry]
  | target :: others =>
      if target.path = entry.path then
        if target.sha256 ≠ entry.sha256 then .error (.digestDisagreement entry.path)
        else
          .ok ({ target with replacements := target.replacements ++ entry.replacements } :: others)
      else (gather others entry).map (target :: ·)

/-- The first loop of `merge`. -/
def gatherAll : List (FileEntry ρ) → List (FileEntry ρ) →
    Except MergeError (List (FileEntry ρ))
  | targets, [] => .ok targets
  | targets, entry :: rest =>
      match gather targets entry with
      | .error problem => .error problem
      | .ok targets => gatherAll targets rest

def Replacement.key (replacement : Replacement ρ) : ℤ × ℤ :=
  (replacement.offset, replacement.length)

/-- The loop over `unique`.  The replacement that is put in the place of an equal one is that one. -/
def collapse (path : String) : List (Replacement ρ) → List (Replacement ρ) →
    Except MergeError (List (Replacement ρ))
  | unique, [] => .ok unique
  | unique, replacement :: rest =>
      match unique.find? fun previous => previous.key = replacement.key with
      | some previous =>
          if previous ≠ replacement then
            .error (.conflicting path replacement.offset replacement.length)
          else collapse path unique rest
      | none => collapse path (unique ++ [replacement]) rest

/-- The order of the merged replacements: by offset, length and rule. -/
def Replacement.before (first second : Replacement ρ) : Prop :=
  first.offset < second.offset ∨
    first.offset = second.offset ∧
      (first.length < second.length ∨
        first.length = second.length ∧ first.ruleId.getD "" ≤ second.ruleId.getD "")

instance : DecidableRel (Replacement.before (ρ := ρ)) := fun _ _ =>
  inferInstanceAs (Decidable (_ ∨ _ ∧ (_ ∨ _ ∧ _)))

/-- The loop that rejects overlapping replacements. -/
def separate (path : String) (previousStart previousEnd : ℤ) :
    List (Replacement ρ) → Except MergeError Unit
  | [] => .ok ()
  | replacement :: rest =>
      let start := replacement.offset
      let stop := start + replacement.length
      if start < previousEnd ∨ start = previousStart then .error (.overlapping path start)
      else separate path start (max previousEnd stop) rest

/-- The body of the second loop of `merge`. -/
def mergeFile (entry : FileEntry ρ) : Except MergeError (FileEntry ρ) := do
  let unique ← collapse entry.path [] entry.replacements
  let replacements := unique.insertionSort Replacement.before
  separate entry.path (-1) (-1) replacements
  .ok { entry with replacements := replacements }

/-- The second loop of `merge`. -/
def mergeFiles : List (FileEntry ρ) → Except MergeError (List (FileEntry ρ))
  | [] => .ok []
  | entry :: rest =>
      match mergeFile entry with
      | .error problem => .error problem
      | .ok merged => (mergeFiles rest).map (merged :: ·)

def merge (plans : List (Plan ρ)) : Except MergeError (Merged ρ) :=
  if plans.length < 2 then .error .tooFewPlans
  else
    match gatherAll [] (plans.flatMap Plan.files) with
    | .error problem => .error problem
    | .ok targets =>
        (mergeFiles (targets.insertionSort fun first second => first.path ≤ second.path)).map
          fun files =>
            { files := files
              componentCount := plans.length
              fileCount := files.length
              replacementCount := (files.map fun entry => entry.replacements.length).sum }

end Merge

/-- `str.encode("utf-8")`. -/
def utf8 (text : String) : List UInt8 := text.toUTF8.data.toList

/-- A slice index over a sequence of the given length. -/
def sliceIndex (length : ℕ) (index : ℤ) : ℕ :=
  if index < 0 then (index + length).toNat else min index.toNat length

/-- `bytes[start:stop]`. -/
def slice (bytes : List UInt8) (start stop : ℤ) : List UInt8 :=
  (bytes.take (sliceIndex bytes.length stop)).drop (sliceIndex bytes.length start)

section Apply

variable {ρ : Type}

/-- The order of `sorted(..., reverse=True)` by offset and length, which keeps equal keys in their
order. -/
def Replacement.behind (first second : Replacement ρ) : Prop :=
  second.offset < first.offset ∨
    second.offset = first.offset ∧ second.length ≤ first.length

instance : DecidableRel (Replacement.behind (ρ := ρ)) := fun _ _ =>
  inferInstanceAs (Decidable (_ ∨ _ ∧ _))

end Apply

end Postgamma.Build
