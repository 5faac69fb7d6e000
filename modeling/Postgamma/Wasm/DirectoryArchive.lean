import Mathlib.Tactic
import Postgamma.Library.FileTree
import Postgamma.Wasm.Wire

/-!
# The directory archive of the bridge

`archive_read` walks a database directory one record a call, and `archive_write` rebuilds a directory
from the records. A system call may fail at any time, and a read or a write may move fewer bytes than
it was asked for.
-/

namespace Postgamma
namespace Wasm

open Text (Bytes)
open LittleEndian (getUint32)
open FileTree

/-- The reader of a command, with the bytes behind its offset. -/
structure BridgeReader where
  rest : Bytes
  failed : Bool

namespace BridgeReader

/-- A reader of a message. -/
def of (bytes : Bytes) : BridgeReader := { rest := bytes, failed := false }

def get (reader : BridgeReader) : ℕ × BridgeReader :=
  if reader.failed = true ∨ reader.rest.length < 4 then (0, { reader with failed := true })
  else (getUint32 reader.rest 0, { reader with rest := reader.rest.drop 4 })

def blob (reader : BridgeReader) : Option Bytes × BridgeReader :=
  let (size, reader) := reader.get
  if reader.failed = true ∨ reader.rest.length < size then (none, { reader with failed := true })
  else (some (reader.rest.take size), { reader with rest := reader.rest.drop size })

def string (reader : BridgeReader) : Option Bytes × BridgeReader :=
  match reader.blob with
  | (none, reader) => (none, { reader with failed := true })
  | (some bytes, reader) =>
      if 0 ∈ bytes then (none, { reader with failed := true }) else (some bytes, reader)

end BridgeReader

/-- A number of two words. -/
def joinWords (low high : ℕ) : ℕ := high <<< 32 ||| low

def maxFileSize : ℕ := 9223372036854775807

def Writer.number64 (writer : Writer) (number : ℕ) : Writer :=
  (writer.put number).put (number >>> 32)

def archiveChunk : ℕ := 256 * 1024

def archiveDepth : ℕ := 64

/-- An open directory: the entries that it still returns, and its relative path. -/
structure Level where
  entries : List Bytes
  path : Bytes

/-- The static state of the archive. The open directories are listed from the deepest one. -/
structure Archive where
  databasePath : Option Bytes
  ready : Bool
  restoring : Bool
  restoreComplete : Bool
  levels : List Level
  file : Option (Place × ℕ)
  remaining : ℕ
  started : Bool
  ended : Bool

/-- The loop of `archive_path` behind a part of a component. -/
def scanPath (part : Bytes) : Bytes → Prop
  | [] => Proper part
  | byte :: rest =>
      byte ≠ 92 ∧ byte < 128 ∧
        if byte = separator then Proper part ∧ scanPath [] rest
        else 32 ≤ byte ∧ scanPath (part ++ [byte]) rest

instance scanPath.decide (part : Bytes) : (rest : Bytes) → Decidable (scanPath part rest)
  | [] => inferInstanceAs (Decidable (Proper part))
  | byte :: rest =>
      have := scanPath.decide [] rest
      have := scanPath.decide (part ++ [byte]) rest
      inferInstanceAs (Decidable (byte ≠ 92 ∧ byte < 128 ∧
        if byte = separator then Proper part ∧ scanPath [] rest
        else 32 ≤ byte ∧ scanPath (part ++ [byte]) rest))

def archivePath (databasePath relative : Bytes) : Option Bytes :=
  if relative = [] ∨ relative.head? = some separator ∨ 2048 < relative.length then none
  else if ¬scanPath [] relative then none
  else if 4096 ≤ (databasePath ++ separator :: relative).length then none
  else some (databasePath ++ separator :: relative)

/-- What the system does in a call of `archive_read`. -/
structure ReadCalls where
  read : ℕ → Except Errno ℕ
  close : Option Errno
  openDatabase : Option Errno
  readdir : ℕ → Option Errno
  lstat : Option Errno
  opendir : Option Errno
  open_ : Option Errno

/-- The outcome of a call that fails when the system says so. -/
def attempt {α : Type} (fault : Option Errno) (outcome : Except Errno α) : Except Errno α :=
  match fault with
  | some error => .error error
  | none => outcome

/-- The relative path of an entry. -/
def Level.relative (level : Level) (name : Bytes) : Bytes :=
  if level.path = [] then name else level.path ++ separator :: name

/-- An entry of the deepest directory. -/
def archiveEntry (calls : ReadCalls) (files : Files) (databasePath : Bytes) (out : Writer)
    (archive : Archive) (relative : Bytes) : Except Errno Writer × Archive :=
  if 4096 ≤ relative.length then (.error .invalid, archive)
  else
    match archivePath databasePath relative with
    | none => (.error .invalid, archive)
    | some absolute =>
        match attempt calls.lstat (lstat files absolute) with
        | .error error => (.error error, archive)
        | .ok .directory =>
            if archive.levels.length = archiveDepth then (.error .overflow, archive)
            else
              match attempt calls.opendir (locateDirectory files absolute) with
              | .error error => (.error error, archive)
              | .ok place =>
                  let level := { entries := files.listing place, path := relative }
                  (.ok ((out.put 1).text (some relative)),
                    { archive with levels := level :: archive.levels })
        | .ok (.regular content) =>
            match attempt calls.open_ (locate files absolute) with
            | .error error => (.error error, archive)
            | .ok place =>
                (.ok (((out.put 2).text (some relative)).number64 content.length),
                  { archive with file := some (place, 0), remaining := content.length })
        | .ok _ => (.error .invalid, archive)

/-- The loop of `archive_read` over the open directories. -/
def archiveScan (calls : ReadCalls) (files : Files) (databasePath : Bytes) (out : Writer)
    (archive : Archive) : List Level → Except Errno Writer × Archive
  | [] => (.ok (out.put 0), { archive with levels := [], ended := true })
  | { entries := [], path } :: above =>
      match calls.readdir above.length with
      | some error => (.error error, { archive with levels := { entries := [], path } :: above })
      | none => archiveScan calls files databasePath out archive above
  | { entries := name :: entries, path } :: above =>
      if name = dot ∨ name = dotDot then
        archiveScan calls files databasePath out archive ({ entries, path } :: above)
      else
        archiveEntry calls files databasePath out
          { archive with levels := { entries, path } :: above }
          (Level.relative { entries, path } name)
termination_by levels => (levels.map fun level => level.entries.length + 1).sum

def archiveRead (calls : ReadCalls) (files : Files) (out : Writer) (archive : Archive) :
    Except Errno Writer × Archive :=
  match archive.databasePath with
  | none => (.error .invalid, archive)
  | some databasePath =>
      if archive.ready = false ∨ archive.restoring = true ∨ archive.ended = true then
        (.error .invalid, archive)
      else
        match archive.file with
        | some (place, position) =>
            if archive.remaining ≠ 0 then
              match calls.read (min archive.remaining archiveChunk) with
              | .error error => (.error error, archive)
              | .ok amount =>
                  let count := min (min archive.remaining archiveChunk) amount
                  let data := ((files.content place).drop position).take count
                  if data = [] then (.error .io, archive)
                  else
                    (.ok ((out.put 3).value (some data)),
                      { archive with
                        file := some (place, position + data.length)
                        remaining := archive.remaining - data.length })
            else
              let archive := { archive with file := none }
              match calls.close with
              | some error => (.error error, archive)
              | none => (.ok (out.put 4), archive)
        | none =>
            if archive.started = false then
              match attempt calls.openDatabase (locateDirectory files databasePath) with
              | .error error => (.error error, archive)
              | .ok place =>
                  let level := { entries := files.listing place, path := [] }
                  archiveScan calls files databasePath out { archive with started := true } [level]
            else archiveScan calls files databasePath out archive archive.levels

/-- What the system does in a call of `archive_write`. -/
structure WriteCalls where
  mkdir : Option Errno
  open_ : Option Errno
  write : ℕ → Except Errno ℕ
  fsync : Option Errno
  close : Option Errno

/-- The loop over the data of a record, from an offset. -/
def writeData (calls : WriteCalls) (place : Place) (data : Bytes) (offset : ℕ) (files : Files) :
    Option Errno × Files :=
  if offset < data.length then
    match calls.write offset with
    | .error error => (some error, files)
    | .ok 0 => (some .io, files)
    | .ok (amount + 1) =>
        let chunk := (data.drop offset).take (amount + 1)
        writeData calls place data (offset + (amount + 1)) (append files place chunk)
  else (none, files)
termination_by data.length - offset

/-- The size that a record of a file declares. -/
def readSize (kind : ℕ) (reader : BridgeReader) : ℕ × BridgeReader :=
  if kind = 2 then
    let (low, reader) := reader.get
    let (high, reader) := reader.get
    (joinWords low high, reader)
  else (0, reader)

/-- The checks of a record of a directory or of a file, its path apart. -/
def entryRefused (reader : BridgeReader) (archive : Archive) (size : ℕ) : Bool :=
  reader.failed || !reader.rest.isEmpty || archive.file.isSome || decide (maxFileSize < size)

/-- A record of a directory or of a file, of which the kind has been read. -/
def writeEntry (calls : WriteCalls) (kind : ℕ) (reader : BridgeReader) (databasePath : Bytes)
    (files : Files) (archive : Archive) : Option Errno × Files × Archive :=
  let (relative, reader) := reader.string
  let (size, reader) := readSize kind reader
  if entryRefused reader archive size = true then (some .invalid, files, archive)
  else
    match relative.bind (archivePath databasePath) with
    | none => (some .invalid, files, archive)
    | some absolute =>
        if kind = 1 then
          match attempt calls.mkdir (mkdir files absolute) with
          | .error error => (some error, files, archive)
          | .ok files => (none, files, archive)
        else
          let archive := { archive with remaining := size }
          match attempt calls.open_ (create files absolute) with
          | .error error => (some error, files, archive)
          | .ok (place, files) => (none, files, { archive with file := some (place, 0) })

/-- A record of data, of which the kind has been read. -/
def writeChunk (calls : WriteCalls) (reader : BridgeReader) (files : Files) (archive : Archive) :
    Option Errno × Files × Archive :=
  let (blob, reader) := reader.blob
  let data := blob.getD []
  match archive.file with
  | none => (some .invalid, files, archive)
  | some (place, _) =>
      if reader.failed = true ∨ reader.rest ≠ [] ∨ data = [] ∨ archiveChunk < data.length ∨
          archive.remaining < data.length then (some .invalid, files, archive)
      else
        match writeData calls place data 0 files with
        | (some error, files) => (some error, files, archive)
        | (none, files) =>
            (none, files, { archive with remaining := archive.remaining - data.length })

/-- The end of a file. -/
def writeClose (calls : WriteCalls) (files : Files) (archive : Archive) :
    Option Errno × Files × Archive :=
  if archive.file = none ∨ archive.remaining ≠ 0 then (some .invalid, files, archive)
  else
    match calls.fsync with
    | some error => (some error, files, archive)
    | none => (calls.close, files, { archive with file := none })

def archiveWrite (calls : WriteCalls) (reader : BridgeReader) (files : Files) (archive : Archive) :
    Option Errno × Files × Archive :=
  match archive.databasePath with
  | none => (some .invalid, files, archive)
  | some databasePath =>
      if archive.restoring = false ∨ archive.restoreComplete = true then
        (some .invalid, files, archive)
      else
        let (kind, reader) := reader.get
        if kind = 1 ∨ kind = 2 then writeEntry calls kind reader databasePath files archive
        else if kind = 3 then writeChunk calls reader files archive
        else if reader.failed = true ∨ reader.rest ≠ [] then (some .invalid, files, archive)
        else if kind = 4 then writeClose calls files archive
        else if kind ≠ 0 ∨ archive.file ≠ none then (some .invalid, files, archive)
        else (none, files, { archive with restoreComplete := true })

end Wasm
end Postgamma
