import Mathlib.Tactic

/-!
# Files that may lose what was not flushed

A file holds the bytes that are durable and the list of edits since the last flush. A reader sees
all edits; a crash keeps a prefix of them, in which the last write may be cut at any byte. The
element type is arbitrary, so that a byte may carry where it came from.
-/

namespace Postgamma
namespace CrashFile

variable {β : Type} [Inhabited β]

/-- Overwrite from an offset on. A gap behind the end is filled. -/
def splice (bytes : List β) (offset : Nat) (data : List β) : List β :=
  bytes.take offset ++ (List.replicate (offset - bytes.length) default ++
    (data ++ bytes.drop (offset + data.length)))

/-- Cut or extend to a length. -/
def resize (bytes : List β) (size : Nat) : List β :=
  bytes.take size ++ List.replicate (size - bytes.length) default

/-- One change of a file. -/
inductive Edit (β : Type) where
  /-- Overwrite from an offset on. -/
  | write (offset : Nat) (data : List β)
  /-- Cut or extend to a length. -/
  | truncate (size : Nat)

/-- The bytes after an edit. -/
def Edit.apply : Edit β → List β → List β
  | .write offset data, bytes => splice bytes offset data
  | .truncate size, bytes => resize bytes size

/-- What a crash may leave of the edits of a file. -/
inductive Left : List β → List (Edit β) → List β → Prop where
  | stop {bytes : List β} {edits : List (Edit β)} : Left bytes edits bytes
  | torn {bytes : List β} {offset : Nat} {data : List β} {edits : List (Edit β)} (count : Nat) :
      Left bytes (.write offset data :: edits) (splice bytes offset (data.take count))
  | next {bytes left : List β} {edit : Edit β} {edits : List (Edit β)}
      (later : Left (edit.apply bytes) edits left) : Left bytes (edit :: edits) left

/-- A file with its unflushed edits. -/
structure File (β : Type) where
  /-- The bytes that every crash keeps. -/
  durable : List β
  /-- The edits since the last flush. -/
  pending : List (Edit β)

namespace File

/-- A file without unflushed edits. -/
def ofBytes (bytes : List β) : File β := { durable := bytes, pending := [] }

/-- The bytes that a reader sees. -/
def content (file : File β) : List β :=
  file.pending.foldl (fun bytes edit => edit.apply bytes) file.durable

def edit (file : File β) (edit : Edit β) : File β :=
  { file with pending := file.pending ++ [edit] }

/-- Make every edit durable. -/
def flush (file : File β) : File β := ofBytes file.content

/-- The bytes that a crash may leave. -/
def Survives (file : File β) (bytes : List β) : Prop := Left file.durable file.pending bytes

@[simp]
theorem content_ofBytes (bytes : List β) : (ofBytes bytes).content = bytes := rfl

@[simp]
theorem content_edit (file : File β) (edit : Edit β) :
    (file.edit edit).content = edit.apply file.content := by
  simp [content, File.edit]

@[simp]
theorem content_flush (file : File β) : file.flush.content = file.content := rfl

@[simp]
theorem survives_ofBytes {bytes left : List β} : (ofBytes bytes).Survives left ↔ left = bytes := by
  constructor
  · intro survives
    cases survives
    rfl
  · rintro rfl
    exact .stop

theorem survives_flush {file : File β} {left : List β} :
    file.flush.Survives left ↔ left = file.content := survives_ofBytes

/-- A crash may keep everything. -/
theorem survives_content (file : File β) : file.Survives file.content := by
  obtain ⟨durable, pending⟩ := file
  induction pending generalizing durable with
  | nil => exact .stop
  | cons edit edits induction => exact .next (induction (edit.apply durable))

/-- What the last edit of a list adds to the outcomes of a crash. -/
theorem left_append {bytes left : List β} {edits : List (Edit β)} {last : Edit β}
    (leaves : Left bytes (edits ++ [last]) left) :
    Left bytes edits left ∨
      left = last.apply (edits.foldl (fun bytes edit => edit.apply bytes) bytes) ∨
      ∃ offset data count, last = .write offset data ∧
        left = splice (edits.foldl (fun bytes edit => edit.apply bytes) bytes) offset
          (data.take count) := by
  induction edits generalizing bytes with
  | nil =>
      cases leaves with
      | stop => exact .inl .stop
      | torn count => exact .inr (.inr ⟨_, _, count, rfl, rfl⟩)
      | next later =>
          cases later
          exact .inr (.inl rfl)
  | cons edit edits induction =>
      cases leaves with
      | stop => exact .inl .stop
      | torn count => exact .inl (.torn count)
      | next later => exact (induction later).imp .next id

/-- A write adds the outcomes in which some of its bytes have reached the file. -/
theorem survives_write {file : File β} {offset : Nat} {data left : List β}
    (survives : (file.edit (.write offset data)).Survives left) :
    file.Survives left ∨ ∃ count, left = splice file.content offset (data.take count) := by
  rcases left_append survives with before | whole | ⟨_, _, count, same, torn⟩
  · exact .inl before
  · exact .inr ⟨data.length, by rw [List.take_length]; exact whole⟩
  · cases same
    exact .inr ⟨count, torn⟩

/-- A truncation adds its own outcome. -/
theorem survives_truncate {file : File β} {size : Nat} {left : List β}
    (survives : (file.edit (.truncate size)).Survives left) :
    file.Survives left ∨ left = resize file.content size := by
  rcases left_append survives with before | whole | ⟨_, _, count, same, _⟩
  · exact .inl before
  · exact .inr whole
  · cases same

end File

theorem splice_length (bytes : List β) (offset : Nat) (data : List β) :
    (splice bytes offset data).length = max bytes.length (offset + data.length) := by
  simp only [splice, List.length_append, List.length_take, List.length_replicate, List.length_drop]
  omega

theorem resize_length (bytes : List β) (size : Nat) : (resize bytes size).length = size := by
  simp only [resize, List.length_append, List.length_take, List.length_replicate]
  omega

/-- A write inside the file. -/
theorem splice_eq {bytes : List β} {offset : Nat} (inside : offset ≤ bytes.length)
    (data : List β) :
    splice bytes offset data = bytes.take offset ++ (data ++ bytes.drop (offset + data.length)) := by
  simp [splice, Nat.sub_eq_zero_of_le inside]

/-- A write at the end appends. -/
theorem splice_end {bytes : List β} {offset : Nat} (place : bytes.length = offset)
    (data : List β) : splice bytes offset data = bytes ++ data := by
  subst place
  simp [splice]

/-- A write at the start that covers the file replaces it. -/
theorem splice_cover {bytes data : List β} (covers : bytes.length ≤ data.length) :
    splice bytes 0 data = data := by
  simp [splice, List.drop_eq_nil_of_le covers]

/-- Consecutive writes of the parts of a string are one write of the string. -/
theorem splice_splice {bytes : List β} {offset : Nat} (inside : offset ≤ bytes.length)
    (first second : List β) :
    splice (splice bytes offset first) (offset + first.length) second =
      splice bytes offset (first ++ second) := by
  have written : offset + first.length ≤ (splice bytes offset first).length := by
    rw [splice_length]
    omega
  rw [splice_eq written, splice_eq inside, splice_eq inside]
  have front : (bytes.take offset ++ first).length = offset + first.length := by
    rw [List.length_append, List.length_take]
    omega
  rw [← List.append_assoc (bytes.take offset) first, List.take_left' front]
  have rest : (bytes.take offset ++ first ++ bytes.drop (offset + first.length)).drop
      (offset + first.length + second.length) =
        bytes.drop (offset + (first ++ second).length) := by
    rw [← front, List.drop_length_add_append, List.drop_drop, front, List.length_append,
      Nat.add_assoc]
  rw [rest]
  simp only [List.append_assoc]

theorem resize_of_le {bytes : List β} {size : Nat} (inside : size ≤ bytes.length) :
    resize bytes size = bytes.take size := by
  simp [resize, Nat.sub_eq_zero_of_le inside]

end CrashFile
end Postgamma
