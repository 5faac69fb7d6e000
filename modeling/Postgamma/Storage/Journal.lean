import Postgamma.Library.CrashFile
import Postgamma.Storage.Checkpoint

/-!
# The namespace journal

The journal of `storage/journal.ts`: two slot files, of which one holds the current snapshot with
the records behind it and the other one is retired. Every call on an access handle takes its
outcome from a script, so that any call may be short or fail, and every directory that the calls
leave behind is kept in the past of the world. A crash may happen at each of them.
-/

namespace Postgamma
namespace Storage

open Text Json LittleEndian CrashFile

/-- The two journal files, in the order of `journalNames`. -/
inductive Slot where
  /-- `namespace-v1`. -/
  | first
  /-- `namespace-v2`. -/
  | second
  deriving DecidableEq, Repr

/-- The other journal file. -/
def Slot.other : Slot → Slot
  | .first => .second
  | .second => .first

/-- The element of a slot in a pair. -/
def Slot.pick {α : Type} (slot : Slot) (first second : α) : α :=
  match slot with
  | .first => first
  | .second => second

/-- The database directory. -/
structure Directory (β : Type) where
  /-- The journal files. -/
  slots : Slot → Option (File UInt8)
  /-- The data objects `file-<id>` in the order of enumeration. -/
  objects : List (Nat × File β)

/-- Replace a journal file. -/
def Directory.setSlot {β : Type} (directory : Directory β) (slot : Slot) (file : File UInt8) :
    Directory β :=
  { directory with slots := Function.update directory.slots slot (some file) }

/-- The directory of a new database. -/
def Directory.empty (β : Type) : Directory β := { slots := fun _ => none, objects := [] }

/-- What a call on a directory or an access handle does. -/
inductive Outcome where
  /-- The call succeeds. -/
  | full
  /-- A read or write moves at most so many bytes; any other call succeeds. -/
  | short (count : Nat)
  /-- The call throws. At most so many bytes of a write, but not all, have reached the file; a
  truncation or a flush has taken effect unless the count is zero. -/
  | fail (count : Nat)
  deriving DecidableEq, Repr

/-- The directory together with its past and the outcomes to come. -/
structure World (β : Type) where
  directory : Directory β
  /-- Every directory since the last operation began, the present one among them. -/
  past : List (Directory β)
  /-- Outcomes of the next calls; all later calls succeed. -/
  script : List Outcome

/-- `Journal`. -/
structure Journal where
  /-- `namespace`. -/
  ns : Namespace
  /-- `handles`, by the file they belong to. -/
  handles : List Slot
  sizes : Slot → Nat
  active : Slot
  generation : Nat

/-- `new Journal()`. -/
def Journal.new : Journal :=
  { ns := .initial, handles := [], sizes := fun _ => 0, active := .first, generation := 0 }

/-- A journal and the world that it works on. -/
structure Session (β : Type) where
  journal : Journal
  world : World β

/-- A program of the journal. -/
abbrev Action (β α : Type) := Program Thrown (Session β) α

variable {β : Type}

/-- The world of a process that starts on a directory, with the outcomes of its calls. -/
def Directory.start (directory : Directory β) (script : List Outcome) : Session β where
  journal := .new
  world := { directory, past := [directory], script }

namespace Session

/-- Replace the directory. -/
def enter (session : Session β) (directory : Directory β) : Session β :=
  { session with world :=
      { session.world with directory, past := directory :: session.world.past } }

/-- Replace a journal file. -/
def setSlot (session : Session β) (slot : Slot) (file : File UInt8) : Session β :=
  session.enter (session.world.directory.setSlot slot file)

/-- A journal file; a missing one is empty. -/
def file (session : Session β) (slot : Slot) : File UInt8 :=
  (session.world.directory.slots slot).getD (.ofBytes [])

/-- Replace the journal object. -/
def setJournal (session : Session β) (journal : Journal) : Session β := { session with journal }

/-- Assign the size of a slot. -/
def setSize (session : Session β) (slot : Slot) (size : Nat) : Session β :=
  session.setJournal
    { session.journal with sizes := Function.update session.journal.sizes slot size }

/-- Assign the namespace. -/
def setNs (session : Session β) (ns : Namespace) : Session β :=
  session.setJournal { session.journal with ns }

end Session

/-- Take the outcome of the next call. -/
def outcome : Action β Outcome := fun session =>
  match session.world.script with
  | [] => .ok .full session
  | next :: script => .ok next { session with world := { session.world with script } }

/-- The error of a failing call. -/
def Thrown.unknown : Thrown := ⟨"UnknownError", "The operation failed"⟩

/-- The error of a missing entry. -/
def Thrown.notFound (message : String) : Thrown := ⟨"NotFoundError", message⟩

namespace AccessHandle

def write (slot : Slot) (data : Bytes) (offset : Nat) : Action β Nat := do
  match ← outcome with
  | .full =>
      modify fun session => session.setSlot slot ((session.file slot).edit (.write offset data))
      return data.length
  | .short count =>
      modify fun session =>
        session.setSlot slot ((session.file slot).edit (.write offset (data.take count)))
      return (data.take count).length
  | .fail count =>
      modify fun session =>
        session.setSlot slot ((session.file slot).edit (.write offset (data.dropLast.take count)))
      throw .unknown

def truncate (slot : Slot) (size : Nat) : Action β Unit := do
  match ← outcome with
  | .fail 0 => throw .unknown
  | .fail (_ + 1) =>
      modify fun session => session.setSlot slot ((session.file slot).edit (.truncate size))
      throw .unknown
  | _ => modify fun session => session.setSlot slot ((session.file slot).edit (.truncate size))

def flush (slot : Slot) : Action β Unit := do
  match ← outcome with
  | .fail 0 => throw .unknown
  | .fail (_ + 1) =>
      modify fun session => session.setSlot slot (session.file slot).flush
      throw .unknown
  | _ => modify fun session => session.setSlot slot (session.file slot).flush

/-- `getSize`. -/
def getSize (slot : Slot) : Action β Nat := do
  match ← outcome with
  | .fail _ => throw .unknown
  | _ => return ((← get).file slot).content.length

/-- `read` of at most so many bytes at an offset. -/
def read (slot : Slot) (length offset : Nat) : Action β Bytes := do
  let bytes := (((← get).file slot).content.drop offset).take length
  match ← outcome with
  | .fail _ => throw .unknown
  | .short count => return bytes.take count
  | .full => return bytes

def close : Action β Unit := do
  match ← outcome with
  | .fail _ => throw .unknown
  | _ => return

end AccessHandle

/-- `getFileHandle` of a journal file. -/
def getFileHandle (slot : Slot) (create : Bool) : Action β Unit := do
  match ← outcome with
  | .fail _ => throw .unknown
  | _ =>
      match (← get).world.directory.slots slot with
      | some _ => return
      | none =>
          if create then modify fun session => session.setSlot slot (.ofBytes [])
          else throw (.notFound "missing")

/-- `createSyncAccessHandle` of a journal file. -/
def createSyncAccessHandle (slot : Slot) : Action β Unit := do
  match ← outcome with
  | .fail _ => throw .unknown
  | _ =>
      modify fun session =>
        session.setJournal { session.journal with handles := session.journal.handles ++ [slot] }

def replayRecordLimit : Nat := 1024

/-- The marker that `retire` writes. -/
def marker : Bytes := words [retiredMagic, 0, 0, 0, 0, 0, 0, 0]

namespace Journal

/-- Throw the error of a pure computation. -/
def ofExcept {α : Type} (result : Except Thrown α) : Action β α :=
  match result with
  | .ok value => pure value
  | .error thrown => throw thrown

/-- The loop of `read` from an offset on. -/
def readFrom (slot : Slot) (remaining offset : Nat) : Action β Bytes := do
  if remaining = 0 then return []
  else
    let bytes ← AccessHandle.read slot remaining offset
    if _ : bytes.length = 0 ∨ remaining < bytes.length then
      throw (.error "Short namespace read")
    else
      let rest ← readFrom slot (remaining - bytes.length) (offset + bytes.length)
      return bytes ++ rest
termination_by remaining

def read (slot : Slot) : Action β Bytes := do
  let size ← AccessHandle.getSize slot
  if journalLimit < size then throw (.error "Namespace journal exceeds its limit")
  else
    modify (·.setSize slot size)
    readFrom slot size 0

/-- `write`, with the bytes that are left and the offset that they go to. -/
def write (slot : Slot) (bytes : Bytes) (offset : Nat) : Action β Unit := do
  if bytes = [] then return
  else
    let count ← AccessHandle.write slot bytes offset
    if _ : count = 0 ∨ bytes.length < count then
      throw (.error "Namespace write made invalid progress")
    else
      modify fun session =>
        session.setSize slot (max (session.journal.sizes slot) (offset + count))
      write slot (bytes.drop count) (offset + count)
termination_by bytes.length
decreasing_by
  simp only [List.length_drop]
  omega

def truncate (slot : Slot) (size : Nat) : Action β Unit := do
  AccessHandle.truncate slot size
  modify (·.setSize slot size)

def retire (slot : Slot) : Action β Unit := do
  write slot marker 0
  AccessHandle.flush slot
  truncate slot marker.length
  AccessHandle.flush slot

/-- The last assignments of `checkpoint`. -/
def publish (session : Session β) (target : Slot) : Session β :=
  session.setJournal
    { session.journal with
      active := target, generation := session.journal.generation + 1,
      ns := session.journal.ns.setSequence 0 }

def checkpoint : Action β Unit := do
  let session ← get
  let target := session.journal.active.other
  let bytes ← ofExcept (Checkpoint.snapshot session.journal.ns (session.journal.generation + 1))
  retire target
  write target bytes 0
  AccessHandle.flush target
  retire session.journal.active
  modify (publish · target)

/-- `namespace.apply` on the namespace of the journal. -/
def applyChange (change : Value) : Action β Unit := fun session =>
  match Namespace.apply change session.journal.ns with
  | .ok _ ns => .ok () (session.setNs ns)
  | .error thrown ns => .error thrown (session.setNs ns)

def nextRecord (change : Change) : Action β Bytes := do
  ofExcept (encode change ((← get).journal.ns.sequence + 1))

/-- The record of a change, behind a checkpoint where the tail is long or the slot is full. -/
def prepare (change : Change) : Action β Bytes := do
  let record ← nextRecord change
  let journal := (← get).journal
  if replayRecordLimit ≤ journal.ns.sequence ∨
      slotLimit < journal.sizes journal.active + record.length then
    checkpoint
    nextRecord change
  else return record

/-- Everything in `append` up to the write of the record. -/
def record (change : Change) : Action β Unit := do
  let record ← prepare change
  let journal := (← get).journal
  if slotLimit < journal.sizes journal.active + record.length then
    throw ⟨"QuotaExceededError", "Namespace snapshot leaves no journal space"⟩
  else write journal.active record (journal.sizes journal.active)

def flush : Action β Unit := do
  AccessHandle.flush (← get).journal.active

/-- Everything in `append` behind the write of the record. -/
def conclude (change : Change) : Action β Unit := do
  flush
  applyChange change.value
  modify fun session => session.setNs (session.journal.ns.setSequence
    (session.journal.ns.sequence + 1))

def append (change : Change) : Action β Unit := do
  record change
  conclude change

/-! ### Opening -/

/-- Close each handle, keep those that refuse, and say whether one has. -/
def closeAll : List Slot → Action β (List Slot)
  | [] => return []
  | slot :: slots => do
      let kept ← tryCatch (do AccessHandle.close; return []) fun _ => return [slot]
      let remaining ← closeAll slots
      return kept ++ remaining

def close : Action β Unit := do
  let remaining ← closeAll (← get).journal.handles
  modify fun session => session.setJournal { session.journal with handles := remaining }
  if remaining ≠ [] then throw .unknown

/-- Find or create the first journal file, and say whether it is new. -/
def openFirst : Action β Bool :=
  tryCatch (do getFileHandle .first false; return false) fun cause => do
    if cause.name ≠ "NotFoundError" then throw cause
    else
      let directory := (← get).world.directory
      if (directory.slots .second).isSome ∨ directory.objects ≠ [] then
        throw (.notFound "Namespace journal is missing from nonempty database storage")
      else
        getFileHandle .first true
        return true

/-- The snapshots of the two slots that can be restored, the newest one first. -/
def candidates (first second : Bytes) : List (Slot × Checkpoint.Restored) :=
  let restored := [(Slot.first, first), (Slot.second, second)].filterMap fun (slot, bytes) =>
    match Checkpoint.restore bytes with
    | .ok state => some (slot, state)
    | .error _ => none
  restored.insertionSort fun newer older => older.2.generation ≤ newer.2.generation

/-- Whether the first slot holds a journal of the old format. -/
def Legacy (first : Bytes) : Prop := 4 ≤ first.length ∧ getUint32 first 0 = legacyMagic

instance (first : Bytes) : Decidable (Legacy first) := inferInstanceAs (Decidable (_ ∧ _))

/-- The branch of `open` that replays a journal of the old format. -/
def migrate (first : Bytes) : Action β Unit := do
  match Namespace.initial.replay first with
  | (_, .error thrown) => throw thrown
  | (ns, .ok _) =>
      modify (·.setNs ns)
      checkpoint

/-- The branch of `open` that recovers the newest snapshot from its slot. -/
def recover (slot : Slot) (state : Checkpoint.Restored) (bytes : Bytes) : Action β Unit := do
  modify fun session => session.setJournal { session.journal with active := slot }
  match state.ns.replay (bytes.drop state.size) with
  | (_, .error thrown) => throw thrown
  | (ns, .ok replayed) =>
      modify (·.setNs ns)
      if replayed.discardedBytes ≠ 0 then truncate slot (state.size + replayed.validBytes)
      flush
      retire slot.other

/-- The branch of `open` that starts an empty database. -/
def start : Action β Unit := do
  if (← get).world.directory.objects ≠ [] then
    throw (.error "Empty namespace journal in nonempty database storage")
  else checkpoint

/-- What `open` does with the bytes of the two slots. -/
def resume (fresh : Bool) (first second : Bytes) : Action β Unit := do
  let candidates := candidates first second
  modify fun session => session.setJournal { session.journal with
    generation := (candidates.head?.map fun newest => newest.2.generation).getD 0 }
  if Legacy first then migrate first
  else
    match candidates with
    | (slot, state) :: rest =>
        if rest.any fun older => older.2.generation = state.generation then
          throw (.error "Ambiguous namespace checkpoint generations")
        else recover slot state (slot.pick first second)
    | [] =>
        if fresh ∨ first = [] then start
        else throw (.error "No complete namespace checkpoint is available")

/-- `open`, without the cleanup. -/
def openSlots : Action β Unit := do
  let fresh ← openFirst
  createSyncAccessHandle .first
  let first ← read .first
  getFileHandle .second (fresh || Legacy first || first = [])
  createSyncAccessHandle .second
  let second ← read .second
  resume fresh first second

/-- `open`. -/
def «open» : Action β Unit := do
  modify (·.setJournal .new)
  tryCatch openSlots fun cause => do
    tryCatch close fun _ => return
    throw cause

end Journal

end Storage
end Postgamma
