import Mathlib.Tactic
import Postgamma.Wasm.DirectoryRestoring

/-!
# The round trip of a directory

Reading a directory and restoring its records move in lock step. What has not been read yet is the
part of the tree below a frontier, and the destination has the rest of the tree at every moment.
-/

namespace Postgamma
namespace Wasm

open Text (Bytes)
open LittleEndian (getUint32)
open FileTree

namespace BridgeReader

theorem get_ok {word : ℕ} (small : word < 2 ^ 32) (rest : Bytes) :
    get (of (LittleEndian.u32 word ++ rest)) = (word, of rest) := by
  unfold get of
  rw [if_neg (by simp)]
  simp only [LittleEndian.getUint32_u32 small]
  rfl

theorem blob_ok {data : Bytes} (small : data.length < 2 ^ 32) (rest : Bytes) :
    blob (of (Writer.valueBytes (some data) ++ rest)) = (some data, of rest) := by
  unfold blob
  rw [Writer.valueBytes, List.append_assoc, get_ok small]
  simp [of]

theorem string_eq_some {reader next : BridgeReader} {bytes : Bytes}
    (blob : reader.blob = (some bytes, next)) (terminated : 0 ∉ bytes) :
    reader.string = (some bytes, next) := by
  rw [string, blob]
  exact if_neg terminated

theorem string_ok {data : Bytes} (small : data.length < 2 ^ 32) (terminated : 0 ∉ data)
    (rest : Bytes) : string (of (Writer.valueBytes (some data) ++ rest)) = (some data, of rest) :=
  string_eq_some (blob_ok small rest) terminated

end BridgeReader

namespace Writer

theorem bytes_fits {writer : Writer} {data : Bytes} (sound : writer.failed = false)
    (fits : writer.data.length + data.length ≤ commandBytes) :
    writer.bytes data = { data := writer.data ++ data, failed := false } := by
  unfold bytes
  rw [if_neg (by rw [sound]; simp; omega), sound]

end Writer

theorem noZero_of_scanPath {part rest : Bytes} (scanned : scanPath part rest) : 0 ∉ rest := by
  induction rest generalizing part with
  | nil => exact List.not_mem_nil
  | cons byte rest induction =>
      obtain ⟨-, -, scanned⟩ := scanned
      split_ifs at scanned with same
      · rw [List.mem_cons, not_or, same]
        exact ⟨by decide, induction scanned.2⟩
      · rw [List.mem_cons, not_or]
        refine ⟨?_, induction scanned.2⟩
        rintro rfl
        exact absurd scanned.1 (by decide)

/-- What an accepted path is like. -/
theorem archivePath_plain {databasePath relative absolute : Bytes}
    (accepted : archivePath databasePath relative = some absolute) :
    relative.length ≤ 2048 ∧ 0 ∉ relative ∧ relative ≠ [] := by
  unfold archivePath at accepted
  split_ifs at accepted with empty scanned long
  rw [not_or, not_or, Nat.not_lt] at empty
  exact ⟨empty.2.2, noZero_of_scanPath scanned, empty.1⟩

/-- No call fails, and a read returns bytes. -/
structure ReadCalls.Sound (calls : ReadCalls) : Prop where
  read : ∀ count, ∃ amount, calls.read count = .ok (amount + 1)
  close : calls.close = none
  openDatabase : calls.openDatabase = none
  readdir : ∀ depth, calls.readdir depth = none
  lstat : calls.lstat = none
  opendir : calls.opendir = none
  open_ : calls.open_ = none

/-- No call fails, and a write takes bytes. -/
structure WriteCalls.Sound (calls : WriteCalls) : Prop where
  mkdir : calls.mkdir = none
  open_ : calls.open_ = none
  write : ∀ offset, ∃ amount, calls.write offset = .ok (amount + 1)
  fsync : calls.fsync = none
  close : calls.close = none

theorem writeData_sound {calls : WriteCalls} (sound : calls.Sound) {place : Place} {data : Bytes}
    {offset : ℕ} {files : Files} : (writeData calls place data offset files).1 = none := by
  fun_induction writeData calls place data offset files with
  | case1 offset files less error outcome =>
      obtain ⟨amount, sound⟩ := sound.write offset
      rw [sound] at outcome
      cases outcome
  | case2 offset files less outcome =>
      obtain ⟨amount, sound⟩ := sound.write offset
      rw [sound] at outcome
      cases outcome
  | case3 offset files less amount outcome chunk induction => exact induction
  | case4 => rfl

variable {calls : WriteCalls} {files : Files} {writer : Archive} {target relative absolute : Bytes}

theorem writeData_all (sound : calls.Sound) {place : Place} {data : Bytes} (nonempty : data ≠ []) :
    writeData calls place data 0 files = (none, append files place data) := by
  have done := @writeData_sound calls sound place data 0 files
  have written := writeData_ok (List.length_pos_iff.mpr nonempty) done
  exact Prod.ext done written

/-- A restore that waits for a record. -/
structure Restoring (target : Bytes) (writer : Archive) : Prop where
  path : writer.databasePath = some target
  restoring : writer.restoring = true
  incomplete : writer.restoreComplete = false

theorem archiveWrite_of {target rest : Bytes}
    {kind : ℕ} (restoring : Restoring target writer) (small : kind < 2 ^ 32) :
    archiveWrite calls (.of (LittleEndian.u32 kind ++ rest)) files writer =
      if kind = 1 ∨ kind = 2 then writeEntry calls kind (.of rest) target files writer
      else if kind = 3 then writeChunk calls (.of rest) files writer
      else if rest ≠ [] then (some .invalid, files, writer)
      else if kind = 4 then writeClose calls files writer
      else if kind ≠ 0 ∨ writer.file ≠ none then (some .invalid, files, writer)
      else (none, files, { writer with restoreComplete := true }) := by
  unfold archiveWrite
  simp only [restoring.path, restoring.restoring, restoring.incomplete, BridgeReader.get_ok small]
  simp [BridgeReader.of]

/-- A record of an entry whose fields have been read. -/
theorem writeEntry_eq {kind size : ℕ} {reader next last : BridgeReader}
    (string : reader.string = (some relative, next)) (sized : readSize kind next = (size, last))
    (open_ : entryRefused last writer size = false)
    (accepted : archivePath target relative = some absolute) :
    writeEntry calls kind reader target files writer =
      if kind = 1 then
        match attempt calls.mkdir (mkdir files absolute) with
        | .error error => (some error, files, writer)
        | .ok files => (none, files, writer)
      else
        match attempt calls.open_ (create files absolute) with
        | .error error => (some error, files, { writer with remaining := size })
        | .ok (place, files) =>
            (none, files, { writer with remaining := size, file := some (place, 0) }) := by
  unfold writeEntry
  rw [string]
  dsimp only
  rw [sized]
  dsimp only
  rw [open_, Option.bind_some, accepted]
  rfl

theorem mkdir_free {path : Bytes} {place : Place}
    (located : locate files path = .ok place) (free : files.kind place = none) :
    mkdir files path = .ok (files.set place .directory) := by
  simp [mkdir, located, free, bind, Except.bind, pure, Except.pure]

theorem create_free {path : Bytes} {place : Place}
    (located : locate files path = .ok place) (free : files.kind place = none) :
    create files path = .ok (place, files.set place (.regular [])) := by
  simp [create, located, free, bind, Except.bind, pure, Except.pure]

theorem write_directory {place : Place} (restoring : Restoring target writer) (sound : calls.Sound)
    (idle : writer.file = none) (accepted : archivePath target relative = some absolute)
    (located : locate files absolute = .ok place) (free : files.kind place = none) :
    archiveWrite calls (.of (ArchiveRecord.directory relative).bytes) files writer =
      (none, files.set place .directory, writer) := by
  obtain ⟨short, terminated, -⟩ := archivePath_plain accepted
  have read := BridgeReader.string_ok (by omega : relative.length < 2 ^ 32) terminated []
  rw [List.append_nil] at read
  have open_ : entryRefused (.of []) writer 0 = false :=
    entryRefused_eq_false.mpr ⟨rfl, rfl, idle, Nat.zero_le _⟩
  rw [ArchiveRecord.bytes, archiveWrite_of restoring (by decide), if_pos (.inl rfl),
    writeEntry_eq read (readSize_directory _) open_ accepted, if_pos rfl, sound.mkdir, attempt,
    mkdir_free located free]

theorem u32_mod (size : ℕ) : LittleEndian.u32 size = LittleEndian.u32 (size % 2 ^ 32) := by
  simp only [LittleEndian.u32, List.cons.injEq, and_true]
  refine ⟨?_, ?_, ?_, ?_⟩ <;>
    apply UInt8.toNat.inj <;>
    simp only [UInt8.toNat_ofNat'] <;>
    omega

theorem write_file {place : Place} {size : ℕ} (restoring : Restoring target writer)
    (sound : calls.Sound) (idle : writer.file = none) (small : size ≤ maxFileSize)
    (accepted : archivePath target relative = some absolute)
    (located : locate files absolute = .ok place) (free : files.kind place = none) :
    archiveWrite calls (.of (ArchiveRecord.file relative size).bytes) files writer =
      (none, files.set place (.regular []),
        { writer with remaining := size, file := some (place, 0) }) := by
  obtain ⟨short, terminated, -⟩ := archivePath_plain accepted
  have read := BridgeReader.string_ok (by omega : relative.length < 2 ^ 32) terminated
    (LittleEndian.u32 (size % 2 ^ 32) ++ LittleEndian.u32 (size >>> 32))
  have shifted : size >>> 32 < 2 ^ 32 := by
    rw [Nat.shiftRight_eq_div_pow]
    unfold maxFileSize at small
    omega
  have high := BridgeReader.get_ok shifted []
  rw [List.append_nil] at high
  have joined : joinWords (size % 2 ^ 32) (size >>> 32) = size := by
    rw [joinWords_eq _ (Nat.mod_lt _ (Nat.two_pow_pos 32)), Nat.shiftRight_eq_div_pow]
    omega
  have sized : readSize 2 (.of (LittleEndian.u32 (size % 2 ^ 32) ++ LittleEndian.u32 (size >>> 32))) =
      (size, .of []) := by
    rw [readSize_file, BridgeReader.get_ok (Nat.mod_lt size (Nat.two_pow_pos 32)), high, joined]
  have open_ : entryRefused (.of []) writer size = false :=
    entryRefused_eq_false.mpr ⟨rfl, rfl, idle, small⟩
  rw [ArchiveRecord.bytes, archiveWrite_of restoring (by decide), if_pos (.inr rfl), u32_mod size,
    writeEntry_eq read sized open_ accepted, if_neg (by decide), sound.open_, attempt,
    create_free located free]

/-- A record of data whose bytes have been read. -/
theorem writeChunk_eq {reader : BridgeReader} {data : Bytes}
    {place : Place} {position : ℕ} (sound : calls.Sound)
    (blob : reader.blob = (some data, .of [])) (opened : writer.file = some (place, position))
    (nonempty : data ≠ []) (chunk : data.length ≤ archiveChunk)
    (fits : data.length ≤ writer.remaining) :
    writeChunk calls reader files writer =
      (none, append files place data,
        { writer with remaining := writer.remaining - data.length }) := by
  unfold writeChunk
  rw [blob, opened]
  simp only [Option.getD_some, writeData_all sound nonempty]
  rw [if_neg]
  simp [BridgeReader.of, nonempty, chunk, fits]

theorem write_data {target data : Bytes}
    {place : Place} {position : ℕ} (restoring : Restoring target writer) (sound : calls.Sound)
    (opened : writer.file = some (place, position)) (nonempty : data ≠ [])
    (chunk : data.length ≤ archiveChunk) (fits : data.length ≤ writer.remaining) :
    archiveWrite calls (.of (ArchiveRecord.data data).bytes) files writer =
      (none, append files place data,
        { writer with remaining := writer.remaining - data.length }) := by
  have small : data.length < 2 ^ 32 := by
    unfold archiveChunk at chunk
    omega
  have read := BridgeReader.blob_ok small []
  rw [List.append_nil] at read
  rw [ArchiveRecord.bytes, archiveWrite_of restoring (by decide), if_neg (by decide), if_pos rfl,
    writeChunk_eq sound read opened nonempty chunk fits]

theorem write_close
    {place : Place} {position : ℕ} (restoring : Restoring target writer) (sound : calls.Sound)
    (opened : writer.file = some (place, position)) (filled : writer.remaining = 0) :
    archiveWrite calls (.of ArchiveRecord.close.bytes) files writer =
      (none, files, { writer with file := none }) := by
  have whole : ArchiveRecord.close.bytes = LittleEndian.u32 4 ++ [] := rfl
  rw [whole, archiveWrite_of restoring (by decide)]
  simp [writeClose, opened, filled, sound.fsync, sound.close]

theorem write_finish (restoring : Restoring target writer) (idle : writer.file = none) :
    archiveWrite calls (.of ArchiveRecord.finish.bytes) files writer =
      (none, files, { writer with restoreComplete := true }) := by
  have whole : ArchiveRecord.finish.bytes = LittleEndian.u32 0 ++ [] := rfl
  rw [whole, archiveWrite_of restoring (by decide)]
  simp [idle]

/-- The name is not one of the two that every directory lists. -/
def Ordinary (name : Bytes) : Prop := ¬(name = dot ∨ name = dotDot)

instance (name : Bytes) : Decidable (Ordinary name) :=
  inferInstanceAs (Decidable (¬(name = dot ∨ name = dotDot)))

/-- A directory tree that the bridge can read and restore. -/
structure Source (files : Files) (databasePath target : Bytes) (root : Place) : Prop where
  leads : LeadsTo files databasePath root
  top : files.kind root = some .directory
  finite : {names : Place | files.kind (root ++ names) ≠ none}.Finite
  closed : ∀ names name, files.kind (root ++ (names ++ [name])) ≠ none →
    files.kind (root ++ names) = some .directory
  sorts : ∀ names kind, files.kind (root ++ names) = some kind →
    kind = .directory ∨ ∃ content, kind = .regular content ∧ content.length ≤ maxFileSize
  lists : ∀ names name, files.kind (root ++ names) = some .directory → Ordinary name →
    (name ∈ files.listing (root ++ names) ↔ files.kind (root ++ (names ++ [name])) ≠ none)
  unique : ∀ names, files.kind (root ++ names) = some .directory →
    ((files.listing (root ++ names)).filter Ordinary).Nodup
  depth : ∀ names, files.kind (root ++ names) = some .directory → names.length < archiveDepth
  named : ∀ names name, files.kind (root ++ (names ++ [name])) ≠ none →
    Proper name ∧ separator ∉ name
  accepted : ∀ relative, files.kind (root ++ components relative) ≠ none →
    (archivePath databasePath relative).isSome ∧ (archivePath target relative).isSome

/-- The place of an open directory below the root. -/
def Level.place (level : Level) : Place := if level.path = [] then [] else components level.path

/-- The places of the entries that an open directory still returns. -/
def Level.ahead (level : Level) : List Place :=
  (level.entries.filter Ordinary).map fun name => level.place ++ [name]

/-- The places that the reader has still to enter. -/
def frontier (levels : List Level) : List Place := levels.flatMap Level.ahead

/-- Neither place is below the other one. -/
def Apart (first second : Place) : Prop := ¬first <+: second ∧ ¬second <+: first

/-- What holds of the open directories of the reader. -/
structure Walking (files : Files) (root : Place) (levels : List Level) : Prop where
  stacked : ∀ level above, level :: above <:+ levels → level.place.length = above.length
  directories : ∀ level ∈ levels, files.kind (root ++ level.place) = some .directory
  there : ∀ place ∈ frontier levels, files.kind (root ++ place) ≠ none
  apart : (frontier levels).Pairwise Apart

theorem relative_components {level : Level} {name : Bytes} (plain : separator ∉ name) :
    components (level.relative name) = level.place ++ [name] := by
  unfold Level.relative Level.place
  split_ifs with top
  · exact components_single plain
  · rw [components_append, components_single plain]

theorem frontier_cons (level : Level) (above : List Level) :
    frontier (level :: above) = level.ahead ++ frontier above := List.flatMap_cons

theorem ahead_dots {name path : Bytes} {entries : List Bytes} (dots : name = dot ∨ name = dotDot) :
    Level.ahead { entries := name :: entries, path } = Level.ahead { entries, path } := by
  unfold Level.ahead
  rw [List.filter_cons_of_neg (by rw [decide_eq_true_eq]; exact not_not.mpr dots)]
  rfl

theorem ahead_cons {name path : Bytes} {entries : List Bytes} (ordinary : Ordinary name) :
    Level.ahead { entries := name :: entries, path } =
      (Level.place { entries, path } ++ [name]) :: Level.ahead { entries, path } := by
  unfold Level.ahead
  rw [List.filter_cons_of_pos (by simpa using ordinary)]
  rfl

/-- Fewer entries of the same open directories. -/
theorem Walking.of_frontier {root : Place} {levels later : List Level}
    (walking : Walking files root levels)
    (stacked : ∀ level above, level :: above <:+ later → level.place.length = above.length)
    (directories : ∀ level ∈ later, files.kind (root ++ level.place) = some .directory)
    (fewer : (frontier later).Sublist (frontier levels)) : Walking files root later :=
  ⟨stacked, directories, fun place member => walking.there place (fewer.subset member),
    walking.apart.sublist fewer⟩

theorem Walking.pop {root : Place} {level : Level} {above : List Level}
    (walking : Walking files root (level :: above)) : Walking files root above :=
  walking.of_frontier
    (fun inner outer suffix => walking.stacked inner outer (suffix.trans (List.suffix_cons _ _)))
    (fun other member => walking.directories other (List.mem_cons_of_mem _ member))
    (by rw [frontier_cons]; exact List.sublist_append_right _ _)

theorem Walking.skip {root : Place} {name path : Bytes} {entries : List Bytes}
    {above : List Level} (walking : Walking files root ({ entries := name :: entries, path } :: above)) :
    Walking files root ({ entries, path } :: above) := by
  refine walking.of_frontier ?_ ?_ ?_
  · intro inner outer suffix
    rcases List.suffix_cons_iff.mp suffix with same | later
    · obtain ⟨rfl, rfl⟩ := List.cons.inj same
      have top := walking.stacked { entries := name :: entries, path } outer List.suffix_rfl
      exact top
    · exact walking.stacked _ _ (later.trans (List.suffix_cons _ _))
  · intro level member
    rcases List.mem_cons.mp member with rfl | later
    · have top := walking.directories { entries := name :: entries, path } List.mem_cons_self
      exact top
    · exact walking.directories _ (List.mem_cons_of_mem _ later)
  · rw [frontier_cons, frontier_cons]
    refine List.Sublist.append_right ?_ _
    exact ((List.sublist_cons_self _ _).filter _).map _

/-- The loop over the open directories stops at the first entry of the frontier. -/
theorem archiveScan_entry {calls : ReadCalls} {files : Files} {root : Place} {databasePath : Bytes}
    {out : Writer} {archive : Archive} {levels : List Level} {place : Place} {rest : List Place}
    (sound : calls.Sound) (walking : Walking files root levels)
    (ahead : frontier levels = place :: rest) :
    ∃ level above name, archiveScan calls files databasePath out archive levels =
        archiveEntry calls files databasePath out { archive with levels := level :: above }
          (level.relative name) ∧
      place = level.place ++ [name] ∧ frontier (level :: above) = rest ∧
      Walking files root (level :: above) := by
  fun_induction archiveScan calls files databasePath out archive levels with
  | case1 => cases ahead
  | case2 path above error refused =>
      rw [sound.readdir] at refused
      cases refused
  | case3 path above fine induction =>
      exact induction walking.pop ahead
  | case4 name entries path above dots induction =>
      rw [frontier_cons, ahead_dots dots, ← frontier_cons] at ahead
      exact induction walking.skip ahead
  | case5 name entries path above ordinary =>
      rw [frontier_cons, ahead_cons ordinary, List.cons_append, ← frontier_cons] at ahead
      obtain ⟨rfl, rest⟩ := List.cons.inj ahead
      exact ⟨_, above, name, rfl, rfl, rest, walking.skip⟩

/-- The loop over the open directories ends the archive when the frontier is empty. -/
theorem archiveScan_end {calls : ReadCalls} {databasePath : Bytes} {out : Writer}
    {archive : Archive} {levels : List Level} (sound : calls.Sound) (ahead : frontier levels = []) :
    archiveScan calls files databasePath out archive levels =
      (.ok (out.put 0), { archive with levels := [], ended := true }) := by
  fun_induction archiveScan calls files databasePath out archive levels with
  | case1 => rfl
  | case2 path above error refused =>
      rw [sound.readdir] at refused
      cases refused
  | case3 path above fine induction => exact induction ahead
  | case4 name entries path above dots induction =>
      rw [frontier_cons, ahead_dots dots, ← frontier_cons] at ahead
      exact induction ahead
  | case5 name entries path above ordinary =>
      rw [frontier_cons, ahead_cons ordinary, List.cons_append] at ahead
      cases ahead

namespace Source

variable {files : Files} {databasePath target : Bytes} {root : Place}

/-- What is above an object is a directory. -/
theorem above (source : Source files databasePath target root) {names part : Place}
    (there : files.kind (root ++ names) ≠ none) (front : part <+: names) (proper : part ≠ names) :
    files.kind (root ++ part) = some .directory := by
  induction names using List.reverseRecOn with
  | nil => exact absurd (List.prefix_nil.mp front) proper
  | append_singleton names name induction =>
      have directory := source.closed names name there
      rcases List.prefix_concat_iff.mp front with same | shorter
      · exact absurd same proper
      · by_cases same : part = names
        · rw [same, directory]
        · exact induction (by rw [directory]; simp) shorter same

/-- The relative path of an object leads to it. -/
theorem locates (source : Source files databasePath target root)
    (there : files.kind (root ++ components relative) ≠ none)
    (accepted : archivePath databasePath relative = some absolute) :
    locate files absolute = .ok (root ++ components relative) := by
  obtain ⟨rfl, proper⟩ := archivePath_some accepted
  refine locate_directories source.leads proper fun part front _ => ?_
  have shorter : part.length < (components relative).length := by
    have nonempty := List.length_pos_iff.mpr (components_ne_nil relative)
    have length := front.length_le
    rw [List.length_dropLast] at length
    omega
  refine source.above there (front.trans (List.dropLast_prefix _)) ?_
  rintro rfl
  exact absurd shorter (lt_irrefl _)

theorem locatesDirectory (source : Source files databasePath target root)
    (directory : files.kind (root ++ components relative) = some .directory)
    (accepted : archivePath databasePath relative = some absolute) :
    locateDirectory files absolute = .ok (root ++ components relative) := by
  obtain ⟨rfl, proper⟩ := archivePath_some accepted
  obtain ⟨links, followed⟩ := source.leads
  have inside := @follow_directories files links root (components relative) proper
    (fun part front _ => by
      by_cases same : part = components relative
      · rw [same, directory]
      · exact source.above (by rw [directory]; simp) front same)
  rw [locateDirectory, components_append, follow_append followed, inside]
  rfl

end Source

variable {source files : Files} {databasePath target : Bytes} {root destination : Place}

theorem archiveEntry_directory {calls : ReadCalls} {out : Writer} {archive : Archive}
    (sound : calls.Sound) (tree : Source source databasePath target root)
    (directory : source.kind (root ++ components relative) = some .directory)
    (shallow : archive.levels.length ≠ archiveDepth) :
    archiveEntry calls source databasePath out archive relative =
      (.ok ((out.put 1).text (some relative)),
        { archive with
          levels := { entries := source.listing (root ++ components relative), path := relative } ::
            archive.levels }) := by
  have there : source.kind (root ++ components relative) ≠ none := by rw [directory]; simp
  obtain ⟨absolute, accepted⟩ := Option.isSome_iff_exists.mp (tree.accepted relative there).1
  obtain ⟨short, -, -⟩ := archivePath_plain accepted
  have located := tree.locates there accepted
  have entered := tree.locatesDirectory directory accepted
  unfold archiveEntry
  rw [if_neg (by omega)]
  simp only [accepted, attempt, sound.lstat, sound.opendir, lstat, located, directory, entered, bind,
    Except.bind, pure, Except.pure]
  rw [if_neg shallow]

theorem archiveEntry_file {calls : ReadCalls} {out : Writer} {archive : Archive}
    {relative content : Bytes} (sound : calls.Sound)
    (tree : Source source databasePath target root)
    (regular : source.kind (root ++ components relative) = some (.regular content)) :
    archiveEntry calls source databasePath out archive relative =
      (.ok (((out.put 2).text (some relative)).number64 content.length),
        { archive with
          file := some (root ++ components relative, 0)
          remaining := content.length }) := by
  have there : source.kind (root ++ components relative) ≠ none := by rw [regular]; simp
  obtain ⟨absolute, accepted⟩ := Option.isSome_iff_exists.mp (tree.accepted relative there).1
  obtain ⟨short, -, -⟩ := archivePath_plain accepted
  have located := tree.locates there accepted
  unfold archiveEntry
  rw [if_neg (by omega)]
  simp only [accepted, attempt, sound.lstat, sound.open_, lstat, located, regular, bind,
    Except.bind, pure, Except.pure]

/-- The place has not been read yet. -/
def Pending (levels : List Level) (names : Place) : Prop :=
  ∃ place ∈ frontier levels, place <+: names

instance : Std.Symm Apart := ⟨fun _ _ apart => ⟨apart.2, apart.1⟩⟩

theorem prefixes_comparable {first second names : Place} (front : first <+: names)
    (other : second <+: names) : ¬Apart first second := by
  rintro ⟨before, after⟩
  rcases Nat.le_total first.length second.length with shorter | longer
  · exact before (List.prefix_of_prefix_length_le front other shorter)
  · exact after (List.prefix_of_prefix_length_le other front longer)

theorem apart_extend {first second rest : Place} (apart : Apart first second) :
    Apart (first ++ rest) second :=
  ⟨fun front => apart.1 ((List.prefix_append _ _).trans front), fun front =>
    absurd apart (prefixes_comparable (List.prefix_append _ _) front)⟩

theorem apart_children {place : Place} {first second : Bytes} (different : first ≠ second) :
    Apart (place ++ [first]) (place ++ [second]) := by
  constructor <;> intro front
  · have same := front.eq_of_length_le (by simp)
    simp at same
    exact different same
  · have same := front.eq_of_length_le (by simp)
    simp at same
    exact different same.symm

theorem Walking.push {place : Place} {level : Level} {above : List Level}
    (tree : Source source databasePath target root)
    (walking : Walking source root (level :: above))
    (nonempty : relative ≠ []) (spelled : components relative = place)
    (deeper : place.length = level.place.length + 1)
    (directory : source.kind (root ++ place) = some .directory)
    (apart : ∀ other ∈ frontier (level :: above), Apart place other) :
    Walking source root
      ({ entries := source.listing (root ++ place), path := relative } :: level :: above) := by
  have here : Level.place { entries := source.listing (root ++ place), path := relative } = place := by
    rw [Level.place, if_neg nonempty, spelled]
  refine ⟨?_, ?_, ?_, ?_⟩
  · intro inner outer suffix
    rcases List.suffix_cons_iff.mp suffix with same | later
    · obtain ⟨rfl, rfl⟩ := List.cons.inj same
      rw [here, deeper, walking.stacked level above List.suffix_rfl, List.length_cons]
    · exact walking.stacked inner outer later
  · intro other member
    rcases List.mem_cons.mp member with rfl | later
    · rw [here, directory]
    · exact walking.directories other later
  · intro other member
    rw [frontier_cons] at member
    rcases List.mem_append.mp member with child | later
    · obtain ⟨name, listed, rfl⟩ := List.mem_map.mp child
      obtain ⟨listed, ordinary⟩ := List.mem_filter.mp listed
      rw [here]
      exact (tree.lists place name directory (by simpa using ordinary)).mp listed
    · exact walking.there other later
  · rw [frontier_cons, List.pairwise_append]
    refine ⟨?_, walking.apart, ?_⟩
    · rw [Level.ahead, here]
      refine List.Pairwise.map _ (fun first second different => apart_children different) ?_
      exact tree.unique place directory
    · intro child listed other later
      obtain ⟨name, -, rfl⟩ := List.mem_map.mp listed
      rw [here]
      exact apart_extend (apart other later)

/-- The records of a sequence of calls, or the error of the first one that fails. -/
def readRecords (source : Files) : List ReadCalls → Archive → Except Errno (List Bytes × Archive)
  | [], archive => .ok ([], archive)
  | calls :: more, archive =>
      match archiveRead calls source .fresh archive with
      | (.error error, _) => .error error
      | (.ok out, archive) => do
          let (records, archive) ← readRecords source more archive
          return (out.data :: records, archive)

/-- Whatever the system does without faults, the reader ends after some calls, and the writer accepts
its records and reaches the goal. -/
def Completes (source : Files) (reader : Archive) (files : Files) (writer : Archive)
    (goal : Files → Prop) : Prop :=
  ∀ reads : ℕ → ReadCalls, (∀ index, (reads index).Sound) →
    ∃ count records final,
      readRecords source ((List.range count).map reads) reader = .ok (records, final) ∧
      final.ended = true ∧ ∀ writes : List WriteCalls, writes.length = count →
        (∀ calls ∈ writes, calls.Sound) → Accepted files writer (writes.zip records) ∧
          goal (restore files writer (writes.zip records)).2.1

/-- A record passes from the reader to the writer. -/
structure Passes (source : Files) (calls : ReadCalls) (reader : Archive) (files : Files)
    (writer : Archive) (reader' : Archive) (files' : Files) (writer' : Archive) : Prop where
  passes : ∃ out, archiveRead calls source .fresh reader = (.ok out, reader') ∧
    ∀ writes : WriteCalls, writes.Sound →
      archiveWrite writes (.of out.data) files writer = (none, files', writer')

theorem Completes.step {reader writer : Archive} {goal : Files → Prop}
    (next : ∀ calls : ReadCalls, calls.Sound → ∃ reader' files' writer',
      Passes source calls reader files writer reader' files' writer' ∧
        Completes source reader' files' writer' goal) :
    Completes source reader files writer goal := by
  intro reads sound
  obtain ⟨reader', files', writer', ⟨out, read, write⟩, completes⟩ := next (reads 0) (sound 0)
  obtain ⟨count, records, final, rest, ended, accepted⟩ :=
    completes (fun index => reads (index + 1)) (fun index => sound (index + 1))
  refine ⟨count + 1, out.data :: records, final, ?_, ended, ?_⟩
  · have calls : (List.range (count + 1)).map reads =
        reads 0 :: (List.range count).map fun index => reads (index + 1) := by
      rw [List.range_succ_eq_map, List.map_cons, List.map_map]
      rfl
    rw [calls, readRecords, read]
    simp only [rest, bind, Except.bind, pure, Except.pure]
  · intro writes length sound
    cases writes with
    | nil => cases length
    | cons calls writes =>
        rw [List.forall_mem_cons] at sound
        obtain ⟨done, reached⟩ := accepted writes (Nat.succ.inj length) sound.2
        have written := write calls sound.1
        have whole : restore files writer ((calls :: writes).zip (out.data :: records)) =
            (none :: (restore files' writer' (writes.zip records)).1,
              (restore files' writer' (writes.zip records)).2) := by
          rw [List.zip_cons_cons, restore]
          simp only [written]
        refine ⟨⟨?_, ?_⟩, ?_⟩
        · rw [whole]
          exact List.forall_mem_cons.mpr ⟨rfl, done.codes⟩
        · rw [whole]
          exact done.complete
        · rw [whole]
          exact reached

theorem Completes.last {reader writer : Archive} {goal : Files → Prop}
    (next : ∀ calls : ReadCalls, calls.Sound → ∃ reader' files' writer',
      Passes source calls reader files writer reader' files' writer' ∧ reader'.ended = true ∧
        writer'.restoreComplete = true ∧ goal files') :
    Completes source reader files writer goal := by
  refine Completes.step fun calls sound => ?_
  obtain ⟨reader', files', writer', passes, ended, complete, reached⟩ := next calls sound
  refine ⟨reader', files', writer', passes, fun reads _ => ⟨0, [], reader', rfl, ended, ?_⟩⟩
  intro writes length _
  obtain rfl := List.eq_nil_of_length_eq_zero length
  exact ⟨⟨by simp [restore], complete⟩, reached⟩

/-- The reader between two calls. -/
structure Reading (databasePath : Bytes) (reader : Archive) : Prop where
  path : reader.databasePath = some databasePath
  ready : reader.ready = true
  notRestoring : reader.restoring = false
  started : reader.started = true
  notEnded : reader.ended = false

theorem archiveRead_idle {calls : ReadCalls} {out : Writer} {reader : Archive}
    (reading : Reading databasePath reader) (idle : reader.file = none) :
    archiveRead calls source out reader =
      archiveScan calls source databasePath out reader reader.levels := by
  unfold archiveRead
  simp [reading.path, reading.ready, reading.notRestoring, reading.started, reading.notEnded, idle]

/-- A read of an open file returns some of what is left. -/
theorem archiveRead_data {calls : ReadCalls} {out : Writer} {reader : Archive} {place : Place}
    {position : ℕ} {content : Bytes} (reading : Reading databasePath reader) (sound : calls.Sound)
    (opened : reader.file = some (place, position))
    (regular : source.kind place = some (.regular content))
    (left : reader.remaining = content.length - position) (more : reader.remaining ≠ 0) :
    ∃ data rest, data ≠ [] ∧ data.length ≤ archiveChunk ∧ content.drop position = data ++ rest ∧
      archiveRead calls source out reader =
        (.ok ((out.put 3).value (some data)),
          { reader with
            file := some (place, position + data.length)
            remaining := reader.remaining - data.length }) := by
  obtain ⟨amount, read⟩ := sound.read (min reader.remaining archiveChunk)
  have chunk : 0 < archiveChunk := by decide
  refine ⟨(content.drop position).take (min (min reader.remaining archiveChunk) (amount + 1)), _,
    ?_, ?_, (List.take_append_drop _ _).symm, ?_⟩
  · rw [← List.length_pos_iff, List.length_take, List.length_drop]
    omega
  · rw [List.length_take]
    omega
  · have nonempty :
        (content.drop position).take (min (min reader.remaining archiveChunk) (amount + 1)) ≠ [] := by
      rw [← List.length_pos_iff, List.length_take, List.length_drop]
      omega
    unfold archiveRead
    simp only [reading.path, reading.ready, reading.notRestoring, reading.notEnded, opened,
      content_eq regular, read]
    rw [if_neg (by simp), if_pos more, if_neg nonempty]

theorem archiveRead_close {calls : ReadCalls} {out : Writer} {reader : Archive} {place : Place}
    {position : ℕ} (reading : Reading databasePath reader) (sound : calls.Sound)
    (opened : reader.file = some (place, position)) (done : reader.remaining = 0) :
    archiveRead calls source out reader = (.ok (out.put 4), { reader with file := none }) := by
  unfold archiveRead
  simp [reading.path, reading.ready, reading.notRestoring, reading.notEnded, opened, done,
    sound.close]

theorem put_fits {writer : Writer} (word : ℕ) (sound : writer.failed = false)
    (fits : writer.data.length + 4 ≤ commandBytes) :
    writer.put word = { data := writer.data ++ LittleEndian.u32 word, failed := false } :=
  Writer.bytes_fits sound (by rw [LittleEndian.u32_length]; exact fits)

theorem value_fits {writer : Writer} {data : Bytes} (sound : writer.failed = false)
    (fits : writer.data.length + 4 + data.length ≤ commandBytes) :
    writer.value (some data) =
      { data := writer.data ++ Writer.valueBytes (some data), failed := false } := by
  rw [Writer.value, put_fits _ sound (by omega),
    Writer.bytes_fits rfl (by rw [List.length_append, LittleEndian.u32_length]; exact fits)]
  simp only [Writer.valueBytes, List.append_assoc]

theorem put_fresh (word : ℕ) : Writer.put .fresh word = { data := LittleEndian.u32 word, failed := false } :=
  put_fits word rfl (by decide)

theorem directory_out (short : relative.length ≤ 2048) :
    ((Writer.put .fresh 1).text (some relative)).data = (ArchiveRecord.directory relative).bytes := by
  rw [put_fresh, Writer.text,
    value_fits rfl (by rw [LittleEndian.u32_length]; unfold commandBytes; omega)]
  rfl

theorem file_out (size : ℕ) (short : relative.length ≤ 2048) :
    (((Writer.put .fresh 2).text (some relative)).number64 size).data =
      (ArchiveRecord.file relative size).bytes := by
  have length := valueBytes_length relative
  rw [put_fresh, Writer.text,
    value_fits rfl (by rw [LittleEndian.u32_length]; unfold commandBytes; omega), Writer.number64,
    put_fits size rfl, put_fits (size >>> 32) rfl]
  · simp only [ArchiveRecord.bytes, List.append_assoc]
  · simp only [List.length_append, LittleEndian.u32_length, length]
    unfold commandBytes
    omega
  · simp only [List.length_append, LittleEndian.u32_length, length]
    unfold commandBytes
    omega

theorem data_out {data : Bytes} (chunk : data.length ≤ archiveChunk) :
    ((Writer.put .fresh 3).value (some data)).data = (ArchiveRecord.data data).bytes := by
  unfold archiveChunk at chunk
  rw [put_fresh, value_fits rfl (by rw [LittleEndian.u32_length]; unfold commandBytes; omega)]
  rfl

/-! ## The lock step -/

/-- The destination lacks what is pending and has the rest of the source, an open file apart. -/
structure Synced (source : Files) (root : Place) (levels : List Level) (files : Files)
    (destination : Place) (opened : Place → Prop) : Prop where
  ahead : ∀ names, names ≠ [] → Pending levels names → files.kind (destination ++ names) = none
  behind : ∀ names, names ≠ [] → ¬Pending levels names → ¬opened names →
    files.kind (destination ++ names) = source.kind (root ++ names)

/-- The two sides between two calls, the open file and the files apart. -/
structure Joined (source files : Files) (databasePath target : Bytes) (root destination : Place)
    (reader writer : Archive) : Prop where
  reading : Reading databasePath reader
  restoring : Restoring target writer
  walking : Walking source root reader.levels
  leads : LeadsTo files target destination

/-- The two sides between two files. -/
structure Idle (source files : Files) (databasePath target : Bytes) (root destination : Place)
    (reader writer : Archive) : Prop
    extends Joined source files databasePath target root destination reader writer where
  shut : reader.file = none
  closed : writer.file = none
  synced : Synced source root reader.levels files destination fun _ => False

/-- The two sides inside of a file of which a part has passed. -/
structure Busy (source files : Files) (databasePath target : Bytes) (root destination : Place)
    (reader writer : Archive) (names : Place) (content : Bytes) (position : ℕ) : Prop
    extends Joined source files databasePath target root destination reader writer where
  nonempty : names ≠ []
  shut : reader.file = some (root ++ names, position)
  opened : writer.file = some (destination ++ names, 0)
  regular : source.kind (root ++ names) = some (.regular content)
  inside : position ≤ content.length
  left : reader.remaining = content.length - position
  wanted : writer.remaining = content.length - position
  part : files.kind (destination ++ names) = some (.regular (content.take position))
  read : ¬Pending reader.levels names
  synced : Synced source root reader.levels files destination (· = names)

/-- The destination has the tree of the source. -/
def Recreated (source : Files) (root destination : Place) (later : Files) : Prop :=
  ∀ names, names ≠ [] → later.kind (destination ++ names) = source.kind (root ++ names)

theorem set_other {destination names other : Place} {kind : Kind} (different : other ≠ names) :
    (files.set (destination ++ names) kind).kind (destination ++ other) =
      files.kind (destination ++ other) :=
  Function.update_of_ne (fun same => different (List.append_cancel_left same)) _ _

variable {reader writer : Archive}

/-- A file passes to its end. -/
theorem Busy.completes {names : Place} {content : Bytes} {position : ℕ}
    (busy : Busy source files databasePath target root destination reader writer names content
      position)
    (next : ∀ reader' files' writer', reader'.levels = reader.levels →
      Idle source files' databasePath target root destination reader' writer' →
      Completes source reader' files' writer' (Recreated source root destination)) :
    Completes source reader files writer (Recreated source root destination) := by
  induction size : content.length - position using Nat.strong_induction_on
    generalizing reader files writer position with
  | h size induction =>
      refine Completes.step fun calls sound => ?_
      by_cases more : reader.remaining = 0
      · have whole : content.take position = content :=
          List.take_of_length_le (by have left := busy.left; have inside := busy.inside; omega)
        refine ⟨{ reader with file := none }, files, { writer with file := none },
          ⟨_, archiveRead_close busy.reading sound busy.shut more, ?_⟩, ?_⟩
        · intro writes soundWrites
          have filled : writer.remaining = 0 := by rw [busy.wanted, ← busy.left, more]
          rw [put_fresh]
          exact write_close busy.restoring soundWrites busy.opened filled
        · refine next _ _ _ rfl ⟨⟨?_, ?_, busy.walking, busy.leads⟩, rfl, rfl, ?_⟩
          · exact ⟨busy.reading.path, busy.reading.ready, busy.reading.notRestoring,
              busy.reading.started, busy.reading.notEnded⟩
          · exact ⟨busy.restoring.path, busy.restoring.restoring, busy.restoring.incomplete⟩
          · refine ⟨busy.synced.ahead, fun other nonempty read _ => ?_⟩
            by_cases same : other = names
            · rw [same, busy.part, whole, busy.regular]
            · exact busy.synced.behind other nonempty read same
      · obtain ⟨data, rest, nonempty, chunk, cut, read⟩ :=
          @archiveRead_data source databasePath calls .fresh reader _ _ _ busy.reading sound busy.shut
            busy.regular busy.left more
        have positive := List.length_pos_iff.mpr nonempty
        have length : data.length + rest.length = content.length - position := by
          rw [← List.length_append, ← cut, List.length_drop]
        have taken : content.take position ++ data = content.take (position + data.length) := by
          rw [List.take_add, cut, List.take_left]
        refine ⟨_, append files (destination ++ names) data,
          { writer with remaining := writer.remaining - data.length }, ⟨_, read, ?_⟩, ?_⟩
        · intro writes soundWrites
          rw [data_out chunk]
          exact write_data busy.restoring soundWrites busy.opened nonempty chunk
            (by rw [busy.wanted]; omega)
        · have later : Busy source (append files (destination ++ names) data) databasePath target
              root destination
              { reader with
                file := some (root ++ names, position + data.length)
                remaining := reader.remaining - data.length }
              { writer with remaining := writer.remaining - data.length } names content
              (position + data.length) := by
            have old : ∀ kind, files.kind (destination ++ names) = some kind →
                ∃ content, kind = .regular content := by
              intro kind there
              rw [busy.part] at there
              exact ⟨_, (Option.some.inj there).symm⟩
            refine ⟨⟨?_, ?_, busy.walking, busy.leads.extends (extends_set old)⟩, busy.nonempty,
              rfl, busy.opened, busy.regular, ?_, ?_, ?_, ?_, busy.read, ?_⟩
            · exact ⟨busy.reading.path, busy.reading.ready, busy.reading.notRestoring,
                busy.reading.started, busy.reading.notEnded⟩
            · exact ⟨busy.restoring.path, busy.restoring.restoring, busy.restoring.incomplete⟩
            · omega
            · have left := busy.left
              dsimp only
              omega
            · have wanted := busy.wanted
              dsimp only
              omega
            · rw [append, set_kind, content_eq busy.part, taken]
            · constructor
              · intro other nonempty pending
                have different : other ≠ names := fun same => busy.read (same ▸ pending)
                rw [append, set_other different]
                exact busy.synced.ahead other nonempty pending
              · intro other nonempty read different
                rw [append, set_other different]
                exact busy.synced.behind other nonempty read different
          exact induction _ (by omega) later next rfl

/-- The objects of the source that have not been read yet. -/
def unread (source : Files) (root : Place) (levels : List Level) : Set Place :=
  {names | source.kind (root ++ names) ≠ none ∧ Pending levels names}

/-- Fewer objects are left when the first place of the frontier has been read. -/
theorem unread_less {levels later : List Level} {place : Place}
    (tree : Source source databasePath target root)
    (there : source.kind (root ++ place) ≠ none) (pending : Pending levels place)
    (fewer : ∀ names, Pending later names → Pending levels names) (read : ¬Pending later place) :
    (unread source root later).ncard < (unread source root levels).ncard := by
  refine Set.ncard_lt_ncard ?_ (tree.finite.subset fun names unread => unread.1)
  refine ⟨fun names unread => ⟨unread.1, fewer names unread.2⟩, fun whole => ?_⟩
  exact read (whole ⟨there, pending⟩).2

theorem above_read {levels : List Level} {place part : Place}
    (apart : (frontier levels).Pairwise Apart) (member : place ∈ frontier levels)
    (front : part <+: place) (shorter : part.length < place.length) : ¬Pending levels part := by
  rintro ⟨other, there, below⟩
  by_cases same : other = place
  · rw [same] at below
    have length := below.length_le
    omega
  · have different := apart.forall there member same
    exact prefixes_comparable (below.trans front) List.prefix_rfl different

theorem Idle.locates (idle : Idle source files databasePath target root destination reader writer)
    (tree : Source source databasePath target root)
    (member : components relative ∈ frontier reader.levels)
    (accepted : archivePath target relative = some absolute) :
    locate files absolute = .ok (destination ++ components relative) := by
  obtain ⟨rfl, proper⟩ := archivePath_some accepted
  refine locate_directories idle.leads proper fun part front nonempty => ?_
  have below := front.trans (List.dropLast_prefix _)
  have shorter : part.length < (components relative).length := by
    have positive := List.length_pos_iff.mpr (components_ne_nil relative)
    have length := front.length_le
    rw [List.length_dropLast] at length
    omega
  have read := above_read idle.walking.apart member below shorter
  rw [idle.synced.behind part nonempty read id]
  refine tree.above (idle.walking.there _ member) below ?_
  rintro rfl
  exact lt_irrefl _ shorter

/-- The reader ends when nothing is pending. -/
theorem Idle.ends (idle : Idle source files databasePath target root destination reader writer)
    (nothing : frontier reader.levels = []) :
    Completes source reader files writer (Recreated source root destination) := by
  refine Completes.last fun calls sound => ?_
  refine ⟨{ reader with levels := [], ended := true }, files,
    { writer with restoreComplete := true }, ⟨Writer.put .fresh 0, ?_, ?_⟩, rfl, rfl, ?_⟩
  · rw [archiveRead_idle idle.reading idle.shut, archiveScan_end sound nothing]
  · intro writes _
    rw [put_fresh]
    exact write_finish idle.restoring idle.closed
  · intro names nonempty
    refine idle.synced.behind names nonempty ?_ id
    rintro ⟨place, member, -⟩
    rw [nothing] at member
    cases member

/-- An object below a directory is below one of its entries. -/
theorem Source.entry (tree : Source source databasePath target root) {place rest : Place} {name : Bytes}
    (directory : source.kind (root ++ place) = some .directory)
    (there : source.kind (root ++ (place ++ name :: rest)) ≠ none) :
    Ordinary name ∧ name ∈ source.listing (root ++ place) := by
  have child : source.kind (root ++ (place ++ [name])) ≠ none := by
    by_cases last : rest = []
    · rw [← last]
      exact there
    · have above := @Source.above _ _ _ _ tree _ (place ++ [name]) there
        ⟨rest, by simp⟩ (by simpa using Ne.symm last)
      rw [above]
      simp
  have proper := (tree.named place name child).1
  have ordinary : Ordinary name := not_or.mpr ⟨proper.same, proper.parent⟩
  exact ⟨ordinary, (tree.lists place name directory ordinary).mpr child⟩

/-- The files stay in step when a place of the frontier is replaced by its entries, if it has any. -/
theorem Synced.replace {levels later : List Level} {place : Place} {rest children : List Place}
    {kind : Kind} {opened : Place → Prop}
    (synced : Synced source root levels files destination fun _ => False)
    (ahead : frontier levels = place :: rest) (next : frontier later = children ++ rest)
    (apart : ∀ other ∈ rest, Apart place other)
    (below : ∀ child ∈ children, place <+: child ∧ child ≠ place)
    (covered : ∀ names, place <+: names → names ≠ place → source.kind (root ++ names) ≠ none →
      ∃ child ∈ children, child <+: names)
    (same : source.kind (root ++ place) = some kind ∨ opened place) :
    Synced source root later (files.set (destination ++ place) kind) destination opened := by
  have pending : ∀ names, place <+: names → Pending levels names := fun names front =>
    ⟨place, ahead ▸ List.mem_cons_self, front⟩
  constructor
  · rintro names nonempty ⟨other, member, front⟩
    rw [next] at member
    rcases List.mem_append.mp member with child | later
    · obtain ⟨inside, different⟩ := below other child
      have apart_ : names ≠ place := by
        rintro rfl
        exact different (inside.eq_of_length_le front.length_le).symm
      rw [set_other apart_]
      exact synced.ahead names nonempty (pending names (inside.trans front))
    · have apart_ : names ≠ place := by
        rintro rfl
        exact (apart other later).2 front
      rw [set_other apart_]
      exact synced.ahead names nonempty ⟨other, ahead ▸ List.mem_cons_of_mem _ later, front⟩
  · intro names nonempty read notOpen
    by_cases here : names = place
    · rw [here] at notOpen ⊢
      rw [set_kind]
      exact (same.resolve_right notOpen).symm
    · rw [set_other here]
      by_cases front : place <+: names
      · rw [synced.ahead names nonempty (pending names front)]
        by_contra there
        obtain ⟨child, member, front⟩ := covered names front here (Ne.symm there)
        exact read ⟨child, next ▸ List.mem_append_left _ member, front⟩
      · refine synced.behind names nonempty ?_ id
        rintro ⟨other, member, inside⟩
        rw [ahead] at member
        rcases List.mem_cons.mp member with rfl | later
        · exact front inside
        · exact read ⟨other, next ▸ List.mem_append_right _ later, inside⟩

/-- What is pending in an open directory is below it. -/
theorem pending_cons {level : Level} {above : List Level} {names : Place}
    (pending : Pending (level :: above) names) :
    level.place <+: names ∧ names ≠ level.place ∨ Pending above names := by
  obtain ⟨other, inside, front⟩ := pending
  rw [frontier_cons] at inside
  rcases List.mem_append.mp inside with child | later
  · obtain ⟨name, -, rfl⟩ := List.mem_map.mp child
    refine .inl ⟨(List.prefix_append _ _).trans front, ?_⟩
    rintro rfl
    have length := front.length_le
    simp at length
  · exact .inr ⟨other, later, front⟩

/-- A directory of the frontier passes. -/
theorem Idle.directory {level : Level} {above : List Level} {place : Place} {rest : List Place}
    (idle : Idle source files databasePath target root destination reader writer)
    (tree : Source source databasePath target root)
    (ahead : frontier reader.levels = place :: rest) (spelled : components relative = place)
    (nonempty : relative ≠ []) (deeper : place.length = level.place.length + 1)
    (tail : frontier (level :: above) = rest) (walking : Walking source root (level :: above))
    (directory : source.kind (root ++ place) = some .directory) :
    Idle source (files.set (destination ++ place) .directory) databasePath target root destination
      { reader with
        levels := { entries := source.listing (root ++ place), path := relative } ::
          level :: above } writer := by
  have apart : ∀ other ∈ rest, Apart place other := by
    have pairs := idle.walking.apart
    rw [ahead, List.pairwise_cons] at pairs
    exact pairs.1
  have here : Level.place { entries := source.listing (root ++ place), path := relative } = place := by
    rw [Level.place, if_neg nonempty, spelled]
  have member : place ∈ frontier reader.levels := ahead ▸ List.mem_cons_self
  have some_ : place ≠ [] := by
    rintro rfl
    simp at deeper
  have free : files.kind (destination ++ place) = none :=
    idle.synced.ahead place some_ ⟨place, member, List.prefix_rfl⟩
  have old : ∀ kind, files.kind (destination ++ place) = some kind →
      ∃ content, kind = .regular content := by
    intro kind there
    rw [free] at there
    cases there
  refine ⟨⟨?_, idle.restoring, ?_, idle.leads.extends (extends_set old)⟩, idle.shut, idle.closed, ?_⟩
  · exact ⟨idle.reading.path, idle.reading.ready, idle.reading.notRestoring, idle.reading.started,
      idle.reading.notEnded⟩
  · exact walking.push tree nonempty spelled deeper directory (tail ▸ apart)
  · have next := frontier_cons
      { entries := source.listing (root ++ place), path := relative } (level :: above)
    rw [tail] at next
    refine idle.synced.replace ahead next apart ?_ ?_ (.inl directory)
    · intro child listed
      obtain ⟨name, -, rfl⟩ := List.mem_map.mp listed
      rw [here]
      exact ⟨List.prefix_append _ _, by simp⟩
    · rintro names ⟨inside, rfl⟩ different there
      cases inside with
      | nil => exact absurd (List.append_nil _) different
      | cons name inside =>
          obtain ⟨ordinary, listed⟩ := tree.entry directory there
          refine ⟨place ++ [name], ?_, ⟨inside, by simp⟩⟩
          rw [Level.ahead, here]
          exact List.mem_map.mpr ⟨name, List.mem_filter.mpr ⟨listed, by simpa using ordinary⟩, rfl⟩

/-- A file of the frontier is begun. -/
theorem Idle.file {level : Level} {above : List Level} {content : Bytes}
    {place : Place} {rest : List Place}
    (idle : Idle source files databasePath target root destination reader writer)
    (tree : Source source databasePath target root)
    (ahead : frontier reader.levels = place :: rest) (some_ : place ≠ [])
    (tail : frontier (level :: above) = rest) (walking : Walking source root (level :: above))
    (regular : source.kind (root ++ place) = some (.regular content)) :
    Busy source (files.set (destination ++ place) (.regular [])) databasePath target root destination
      { reader with
        levels := level :: above, file := some (root ++ place, 0), remaining := content.length }
      { writer with remaining := content.length, file := some (destination ++ place, 0) }
      place content 0 := by
  have apart : ∀ other ∈ rest, Apart place other := by
    have pairs := idle.walking.apart
    rw [ahead, List.pairwise_cons] at pairs
    exact pairs.1
  have member : place ∈ frontier reader.levels := ahead ▸ List.mem_cons_self
  have free : files.kind (destination ++ place) = none :=
    idle.synced.ahead place some_ ⟨place, member, List.prefix_rfl⟩
  have old : ∀ kind, files.kind (destination ++ place) = some kind →
      ∃ content, kind = .regular content := by
    intro kind there
    rw [free] at there
    cases there
  refine ⟨⟨?_, ?_, walking, idle.leads.extends (extends_set old)⟩, some_, rfl, rfl, regular,
    Nat.zero_le _, rfl, rfl, ?_, ?_, ?_⟩
  · exact ⟨idle.reading.path, idle.reading.ready, idle.reading.notRestoring, idle.reading.started,
      idle.reading.notEnded⟩
  · exact ⟨idle.restoring.path, idle.restoring.restoring, idle.restoring.incomplete⟩
  · rw [set_kind, List.take_zero]
  · rintro ⟨other, member, front⟩
    exact (apart other (tail ▸ member)).2 front
  · refine idle.synced.replace ahead (tail.trans (List.nil_append rest).symm) apart (by simp) ?_ (.inr rfl)
    intro names front different there
    have directory := tree.above there front (Ne.symm different)
    rw [regular] at directory
    cases directory

/-- Whatever is pending passes. -/
theorem Idle.completes (idle : Idle source files databasePath target root destination reader writer)
    (tree : Source source databasePath target root) :
    Completes source reader files writer (Recreated source root destination) := by
  induction size : (unread source root reader.levels).ncard using Nat.strong_induction_on
    generalizing reader files writer with
  | h size induction =>
      cases ahead : frontier reader.levels with
      | nil => exact idle.ends ahead
      | cons place rest =>
          have member : place ∈ frontier reader.levels := ahead ▸ List.mem_cons_self
          have there := idle.walking.there place member
          have pending : Pending reader.levels place := ⟨place, member, List.prefix_rfl⟩
          have apart : ∀ other ∈ rest, Apart place other := by
            have pairs := idle.walking.apart
            rw [ahead, List.pairwise_cons] at pairs
            exact pairs.1
          refine Completes.step fun calls sound => ?_
          obtain ⟨level, above, name, scanned, rfl, tail, walking⟩ :=
            @archiveScan_entry calls source root databasePath .fresh reader _ _ _ sound idle.walking
              ahead
          obtain ⟨proper, plain⟩ := tree.named level.place name there
          have spelled := @relative_components level name plain
          have read := (@archiveRead_idle source databasePath calls .fresh reader idle.reading
            idle.shut).trans scanned
          have nonempty : level.relative name ≠ [] := by
            intro empty
            rw [empty] at spelled
            have last := congrArg List.getLast? spelled
            rw [List.getLast?_concat] at last
            exact proper.nonempty (Option.some.inj last).symm
          have some_ : level.place ++ [name] ≠ [] := by simp
          have exists_ : source.kind (root ++ components (level.relative name)) ≠ none := by
            rw [spelled]
            exact there
          obtain ⟨absolute, accepted⟩ :=
            Option.isSome_iff_exists.mp (tree.accepted (level.relative name) exists_).2
          obtain ⟨short, -, -⟩ := archivePath_plain accepted
          have located := idle.locates tree (spelled ▸ member) accepted
          have free : files.kind (destination ++ (level.place ++ [name])) = none :=
            idle.synced.ahead _ some_ pending
          have later : ∀ names, Pending (level :: above) names → Pending reader.levels names := by
            rintro names ⟨other, inside, front⟩
            exact ⟨other, ahead ▸ List.mem_cons_of_mem _ (tail ▸ inside), front⟩
          rw [spelled] at located
          obtain ⟨kind, sort⟩ := Option.ne_none_iff_exists'.mp there
          rcases tree.sorts _ kind sort with rfl | ⟨content, rfl, small⟩
          · have shallow : (level :: above).length ≠ archiveDepth := by
              have stacked := walking.stacked level above List.suffix_rfl
              have depth := tree.depth _ sort
              rw [List.length_append, List.length_singleton, stacked] at depth
              exact depth.ne
            rw [archiveEntry_directory sound tree (spelled.symm ▸ sort) shallow, spelled] at read
            have next := idle.directory tree ahead spelled nonempty (by simp) tail walking sort
            refine ⟨_, files.set (destination ++ (level.place ++ [name])) .directory, writer,
              ⟨_, read, ?_⟩, ?_⟩
            · intro writes soundWrites
              rw [directory_out short]
              exact write_directory idle.restoring soundWrites idle.closed accepted located free
            · refine induction _ ?_ next rfl
              rw [← size]
              have here : Level.place
                  { entries := source.listing (root ++ (level.place ++ [name]))
                    path := level.relative name } = level.place ++ [name] := by
                rw [Level.place, if_neg nonempty, spelled]
              refine unread_less tree there pending (fun names inside => ?_) fun inside => ?_
              · rcases pending_cons inside with ⟨front, -⟩ | inside
                · exact ⟨_, member, here ▸ front⟩
                · exact later names inside
              · rcases pending_cons inside with ⟨-, different⟩ | ⟨other, inside, front⟩
                · exact different here.symm
                · exact (apart other (tail ▸ inside)).2 front
          · rw [archiveEntry_file sound tree (spelled.symm ▸ sort), spelled] at read
            have next := idle.file tree ahead some_ tail walking sort
            refine ⟨_, files.set (destination ++ (level.place ++ [name])) (.regular []),
              { writer with
                remaining := content.length
                file := some (destination ++ (level.place ++ [name]), 0) }, ⟨_, read, ?_⟩, ?_⟩
            · intro writes soundWrites
              rw [file_out content.length short]
              exact write_file idle.restoring soundWrites idle.closed small accepted located free
            · refine next.completes fun reader' files' writer' same idle' => ?_
              refine induction _ ?_ idle' rfl
              rw [← size, same]
              refine unread_less tree there pending later ?_
              rintro ⟨other, inside, front⟩
              exact (apart other (tail ▸ inside)).2 front

/-! ## The round trip and the confinement -/

/-- The reader before its first call, when the database is closed. -/
def Archive.reading (databasePath : Bytes) : Archive :=
  { databasePath := some databasePath, ready := true, restoring := false, restoreComplete := false
    levels := [], file := none, remaining := 0, started := false, ended := false }

/-- The writer before its first record. -/
def Archive.restore (databasePath : Bytes) : Archive :=
  { databasePath := some databasePath, ready := false, restoring := true, restoreComplete := false
    levels := [], file := none, remaining := 0, started := false, ended := false }

/-- An empty directory. -/
structure Empty (files : Files) (databasePath : Bytes) (root : Place) : Prop where
  leads : LeadsTo files databasePath root
  empty : ∀ names, names ≠ [] → files.kind (root ++ names) = none

/-- The open directories after the first call has opened the database. -/
def Archive.walking (databasePath : Bytes) (entries : List Bytes) : Archive :=
  { Archive.reading databasePath with started := true, levels := [{ entries, path := [] }] }

/-- The loop over the open directories replaces the ones in the state. -/
theorem archiveScan_levels {calls : ReadCalls} {out : Writer} {archive : Archive}
    {levels : List Level} (old : List Level) :
    archiveScan calls source databasePath out { archive with levels := old } levels =
      archiveScan calls source databasePath out archive levels := by
  fun_induction archiveScan calls source databasePath out archive levels with
  | case1 => rw [archiveScan]
  | case2 path above error refused => rw [archiveScan, refused]
  | case3 path above fine induction =>
      rw [archiveScan, fine]
      exact induction
  | case4 name entries path above dots induction =>
      rw [archiveScan, if_pos dots]
      exact induction
  | case5 name entries path above ordinary => rw [archiveScan, if_neg ordinary]

theorem archiveRead_begin {calls : ReadCalls} {out : Writer} (sound : calls.Sound)
    (tree : Source source databasePath target root) :
    archiveRead calls source out (.reading databasePath) =
      archiveRead calls source out (.walking databasePath (source.listing root)) := by
  obtain ⟨links, followed⟩ := tree.leads
  have opened : locateDirectory source databasePath = .ok root := by
    rw [locateDirectory, followed]
    rfl
  have scanned := @archiveScan_levels source databasePath calls out
    (.walking databasePath (source.listing root)) [{ entries := source.listing root, path := [] }] []
  simp only [Archive.walking, Archive.reading] at scanned
  simp [archiveRead, Archive.reading, Archive.walking, sound.openDatabase, attempt, opened, scanned]

theorem Completes.begin {reader later writer : Archive} {goal : Files → Prop}
    (same : ∀ calls : ReadCalls, calls.Sound →
      archiveRead calls source .fresh reader = archiveRead calls source .fresh later)
    (notEnded : later.ended = false) (completes : Completes source later files writer goal) :
    Completes source reader files writer goal := by
  intro reads sound
  obtain ⟨count, records, final, read, ended, accepted⟩ := completes reads sound
  refine ⟨count, records, final, ?_, ended, accepted⟩
  cases count with
  | zero =>
      obtain ⟨-, rfl⟩ := Prod.mk.inj (Except.ok.inj read)
      rw [notEnded] at ended
      cases ended
  | succ count =>
      rw [← read, List.range_succ_eq_map, List.map_cons, readRecords, readRecords, same _ (sound 0)]

theorem walking_root (tree : Source source databasePath target root) :
    Walking source root [{ entries := source.listing root, path := [] }] := by
  have here : Level.place { entries := source.listing root, path := [] } = [] := rfl
  have top : source.kind (root ++ []) = some .directory := by rw [List.append_nil, tree.top]
  have listing : source.listing root = source.listing (root ++ []) := by rw [List.append_nil]
  have whole : frontier [{ entries := source.listing root, path := [] }] =
      ((source.listing root).filter Ordinary).map fun name => [name] := by
    rw [frontier_cons, Level.ahead, here, frontier, List.flatMap_nil, List.append_nil]
    rfl
  refine ⟨?_, ?_, ?_, ?_⟩
  · intro level above suffix
    rcases List.suffix_cons_iff.mp suffix with same | later
    · obtain ⟨rfl, rfl⟩ := List.cons.inj same
      rfl
    · cases List.suffix_nil.mp later
  · intro level member
    obtain rfl := List.mem_singleton.mp member
    rw [here, top]
  · intro place member
    rw [whole] at member
    obtain ⟨name, listed, rfl⟩ := List.mem_map.mp member
    obtain ⟨listed, ordinary⟩ := List.mem_filter.mp listed
    rw [listing] at listed
    exact (tree.lists [] name top (by simpa using ordinary)).mp listed
  · rw [whole]
    refine List.Pairwise.map _ (fun first second different => ?_) (listing ▸ tree.unique [] top)
    exact @apart_children [] _ _ different

/-- A directory tree is recreated from the records of its archive. -/
theorem directory_completes (tree : Source source databasePath target root)
    (empty : Empty files target destination) :
    Completes source (.reading databasePath) files (.restore target)
      (Recreated source root destination) := by
  refine Completes.begin (fun calls sound => archiveRead_begin sound tree) rfl ?_
  have idle : Idle source files databasePath target root destination
      (.walking databasePath (source.listing root)) (.restore target) := by
    refine ⟨⟨⟨rfl, rfl, rfl, rfl, rfl⟩, ⟨rfl, rfl, rfl⟩, walking_root tree, empty.leads⟩, rfl, rfl, ?_⟩
    refine ⟨fun names nonempty _ => empty.empty names nonempty, fun names nonempty read _ => ?_⟩
    rw [empty.empty names nonempty]
    cases names with
    | nil => exact absurd rfl nonempty
    | cons name rest =>
        by_contra there
        have top : source.kind (root ++ []) = some .directory := by rw [List.append_nil, tree.top]
        obtain ⟨ordinary, listed⟩ := @Source.entry _ _ _ _ tree [] rest name top (Ne.symm there)
        rw [List.append_nil] at listed
        refine read ⟨[name], ?_, ⟨rest, rfl⟩⟩
        rw [Archive.walking, frontier_cons]
        refine List.mem_append_left _ (List.mem_map.mpr ⟨name, ?_, rfl⟩)
        exact List.mem_filter.mpr ⟨listed, by simpa using ordinary⟩
  exact idle.completes tree

theorem destination_begin (leads : LeadsTo files target destination)
    (plain : Plain files destination) : Destination target destination files (.restore target) :=
  ⟨rfl, leads, plain, by rintro place position ⟨⟩⟩

/-- Reading a directory tree and restoring its records into an empty directory recreates the tree,
with any amounts of bytes in the calls. Restoring any records whatsoever, with any faults of the
system, changes nothing outside of the destination, and a stream is accepted only when it is a list
of records in which the data of each file fill its size and are its content. -/
theorem directory_archive (source files : Files) (databasePath target : Bytes)
    (root destination : Place) :
    (Source source databasePath target root → Empty files target destination →
      Completes source (.reading databasePath) files (.restore target)
        (Recreated source root destination)) ∧
    (LeadsTo files target destination → Plain files destination →
      ∀ requests : List (WriteCalls × Bytes),
        ChangedBelow destination files (restore files (.restore target) requests).2.1 ∧
        (Accepted files (.restore target) requests →
          ∃ records, requests.map Prod.snd = records.map ArchiveRecord.bytes ∧
            Restored destination (restore files (.restore target) requests).2.1 records)) := by
  refine ⟨directory_completes, fun leads plain requests => ?_⟩
  have begin_ := destination_begin leads plain
  exact ⟨restore_below begin_ requests, accepted_restored begin_ rfl rfl⟩

/-- A file system with an empty directory `e` and a directory `d` that has one file `a`. -/
def smallFiles : Files where
  kind place :=
    if place = [[100]] then some .directory
    else if place = [[100], [97]] then some (.regular [1])
    else if place = [[101]] then some .directory
    else none
  listing place := if place = [[100]] then [dot, [97], dotDot] else [dot, dotDot]

theorem smallFiles_kind (names : Place) :
    smallFiles.kind ([[100]] ++ names) =
      if names = [] then some .directory else if names = [[97]] then some (.regular [1]) else none := by
  simp [smallFiles]

theorem smallFiles_source : Source smallFiles [47, 100] [47, 101] [[100]] where
  leads := ⟨maxLinks, by simp [components, separator, follow, dot, dotDot, smallFiles]⟩
  top := rfl
  finite := by
    refine Set.Finite.subset (Set.toFinite {[], [[97]]}) fun names there => ?_
    simp only [Set.mem_ofPred_eq, smallFiles_kind] at there
    simp only [Set.mem_insert_iff, Set.mem_singleton_iff]
    by_contra neither
    rw [not_or] at neither
    simp [neither.1, neither.2] at there
  closed := by
    intro names name there
    rw [smallFiles_kind] at there ⊢
    rcases names with - | ⟨first, rest⟩
    · rfl
    · simp at there
  sorts := by
    intro names kind there
    rw [smallFiles_kind] at there
    split_ifs at there
    · exact .inl (Option.some.inj there).symm
    · exact .inr ⟨[1], (Option.some.inj there).symm, by decide⟩
  lists := by
    intro names name directory ordinary
    rw [smallFiles_kind] at directory ⊢
    have same : names = [] := by
      by_contra different
      split_ifs at directory
      cases directory
    subst same
    have others := not_or.mp ordinary
    simp [smallFiles, others.1, others.2]
  unique := by
    intro names directory
    rw [smallFiles_kind] at directory
    have same : names = [] := by
      by_contra different
      split_ifs at directory
      cases directory
    subst same
    decide
  depth := by
    intro names directory
    rw [smallFiles_kind] at directory
    have same : names = [] := by
      by_contra different
      split_ifs at directory
      cases directory
    subst same
    decide
  named := by
    intro names name there
    rw [smallFiles_kind] at there
    rcases names with - | ⟨first, rest⟩
    · have same : name = [97] := by simpa using there
      subst same
      exact ⟨by decide, by decide⟩
    · simp at there
  accepted := by
    intro relative there
    rw [smallFiles_kind, if_neg (components_ne_nil relative)] at there
    have same : components relative = [[97]] := by
      by_contra different
      exact there (if_neg different)
    have alone := eq_of_components same
    subst alone
    decide

theorem smallFiles_empty : Empty smallFiles [47, 101] [[101]] where
  leads := ⟨maxLinks, by simp [components, separator, follow, dot, dotDot, smallFiles]⟩
  empty := by
    intro names nonempty
    simp [smallFiles, nonempty]

theorem directory_archive_small :
    Completes smallFiles (.reading [47, 100]) smallFiles (.restore [47, 101])
      (Recreated smallFiles [[100]] [[101]]) :=
  (directory_archive smallFiles smallFiles [47, 100] [47, 101] [[100]] [[101]]).1
    smallFiles_source smallFiles_empty

end Wasm
end Postgamma
