import Mathlib.Tactic
import Postgamma.Library.LittleEndian

/-!
# Readers that move a cursor through a buffer

A reader is a program over a buffer and an offset that may fail. `Reads` says that it reads certain
bytes, wherever they stand in the buffer, and returns a value. The rules follow the text of a
reader, so that a round trip needs one lemma for each part of a message.
-/

namespace Postgamma

open Text (Bytes)

/-- A buffer with the offset of the next byte. -/
structure Cursor where
  buffer : Bytes
  offset : ℕ

/-- A program that moves a cursor. -/
abbrev Scan (ε α : Type) := StateT Cursor (Except ε) α

/-- Run a reader a number of times. -/
def Scan.times {ε α : Type} : ℕ → Scan ε α → Scan ε (List α)
  | 0, _ => pure []
  | count + 1, reader => do
      let first ← reader
      let rest ← Scan.times count reader
      return first :: rest

/-- The cursor in front of a part of a buffer. -/
def Cursor.before (front bytes rest : Bytes) : Cursor :=
  { buffer := front ++ (bytes ++ rest), offset := front.length }

def Cursor.behind (front bytes rest : Bytes) : Cursor :=
  { buffer := front ++ (bytes ++ rest), offset := front.length + bytes.length }

/-- The reader consumes the bytes and returns the value. -/
def Reads {ε α : Type} (scan : Scan ε α) (bytes : Bytes) (value : α) : Prop :=
  ∀ front rest, scan (.before front bytes rest) = .ok (value, .behind front bytes rest)

namespace Reads

variable {ε α β : Type}

theorem pure (value : α) : Reads (Pure.pure value : Scan ε α) [] value := fun _ _ => rfl

/-- After the first reader the next one stands in front of what is left. -/
theorem step {first : Scan ε α} {next : α → Scan ε β} {head : Bytes} {middle : α}
    (reads : Reads first head middle) (front tail rest : Bytes) :
    (first >>= next) (.before front (head ++ tail) rest) =
      next middle (.before (front ++ head) tail rest) := by
  have start : Cursor.before front (head ++ tail) rest = Cursor.before front head (tail ++ rest) := by
    simp [Cursor.before]
  have between : Cursor.behind front head (tail ++ rest) =
      Cursor.before (front ++ head) tail rest := by
    simp [Cursor.behind, Cursor.before]
  have stepped : (first >>= next) (.before front (head ++ tail) rest) =
      (first (.before front head (tail ++ rest))).bind fun result => next result.1 result.2 := by
    rw [start]
    rfl
  rw [stepped, reads front (tail ++ rest), between]
  rfl

theorem behind_append (front head tail rest : Bytes) :
    Cursor.behind (front ++ head) tail rest = Cursor.behind front (head ++ tail) rest := by
  simp [Cursor.behind, Nat.add_assoc]

theorem bind {first : Scan ε α} {next : α → Scan ε β} {head tail : Bytes} {middle : α} {value : β}
    (reads : Reads first head middle) (after : Reads (next middle) tail value) :
    Reads (first >>= next) (head ++ tail) value := by
  intro front rest
  rw [reads.step, after, behind_append]

/-- After the last reader the cursor is behind its bytes. -/
theorem last {first : Scan ε α} {next : α → Scan ε β} {bytes : Bytes} {middle : α}
    (reads : Reads first bytes middle) (front rest : Bytes) :
    (first >>= next) (.before front bytes rest) = next middle (.behind front bytes rest) := by
  have stepped : (first >>= next) (.before front bytes rest) =
      (first (.before front bytes rest)).bind fun result => next result.1 result.2 := rfl
  rw [stepped, reads front rest]
  rfl

/-- A last step that computes without reading. -/
theorem map {scan : Scan ε α} {bytes : Bytes} {value : α} (reads : Reads scan bytes value)
    (change : α → β) : Reads (scan >>= fun value => Pure.pure (change value)) bytes (change value) := by
  have chained := @Reads.bind ε α β scan (fun value => Pure.pure (change value)) bytes [] value
    (change value) reads (Reads.pure (change value))
  rwa [List.append_nil] at chained

/-- A reader that is run once for each item, the items one behind the other. -/
theorem times {γ : Type} {reader : Scan ε α} {items : List γ} {encode : γ → Bytes} {value : γ → α}
    (reads : ∀ item ∈ items, Reads reader (encode item) (value item)) :
    Reads (Scan.times items.length reader) (items.flatMap encode) (items.map value) := by
  induction items with
  | nil => exact Reads.pure []
  | cons item items induction =>
      have head := reads item List.mem_cons_self
      have tail := induction fun other member => reads other (List.mem_cons_of_mem _ member)
      exact head.bind (tail.map _)

/-- A reader for each item of a list, one behind the other. -/
theorem mapM {γ δ : Type} {reader : γ → Scan ε α} {encode : δ → Bytes} {value : γ → δ → α}
    {keys : List γ} {items : List δ} (length : items.length = keys.length)
    (reads : ∀ pair ∈ keys.zip items, Reads (reader pair.1) (encode pair.2)
      (value pair.1 pair.2)) :
    Reads (keys.mapM reader) (items.flatMap encode)
      ((keys.zip items).map fun pair => value pair.1 pair.2) := by
  induction keys generalizing items with
  | nil =>
      obtain rfl := List.eq_nil_of_length_eq_zero length
      exact Reads.pure []
  | cons key keys induction =>
      cases items with
      | nil => simp at length
      | cons item items =>
          have head := reads (key, item) List.mem_cons_self
          have tail := induction (Nat.succ.inj length)
            fun other member => reads other (List.mem_cons_of_mem _ member)
          rw [List.mapM_cons]
          exact head.bind (tail.map _)

end Reads
end Postgamma
