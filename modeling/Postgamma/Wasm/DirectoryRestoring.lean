import Mathlib.Tactic
import Postgamma.Wasm.DirectoryArchive

/-!
# Restoring a directory

Whatever records `archive_write` is given, it changes nothing outside of the destination, and it
completes only on streams in which the data of each file fill its declared size.
-/

namespace Postgamma
namespace Wasm

open Text (Bytes)
open LittleEndian (getUint32)
open FileTree

theorem components_single {name : Bytes} (plain : separator ∉ name) : components name = [name] := by
  induction name with
  | nil => rfl
  | cons byte bytes induction =>
      rw [List.mem_cons, not_or] at plain
      rw [components, if_neg (Ne.symm plain.1), induction plain.2]

theorem proper_of_scanPath {part rest : Bytes} (plain : separator ∉ part)
    (scanned : scanPath part rest) : ∀ name ∈ components (part ++ rest), Proper name := by
  induction rest generalizing part with
  | nil =>
      rw [List.append_nil, components_single plain]
      intro name member
      rwa [List.mem_singleton.mp member]
  | cons byte rest induction =>
      obtain ⟨-, -, scanned⟩ := scanned
      split_ifs at scanned with same
      · rw [same, components_append, components_single plain]
        intro name member
        rcases List.mem_append.mp member with first | later
        · exact List.mem_singleton.mp first ▸ scanned.1
        · exact induction List.not_mem_nil scanned.2 name later
      · have extended : separator ∉ part ++ [byte] := by
          rw [List.mem_append, List.mem_singleton, not_or]
          exact ⟨plain, Ne.symm same⟩
        have names := induction extended scanned.2
        rwa [List.append_assoc] at names

/-- An accepted path lies below the database by proper names. -/
theorem archivePath_some {databasePath relative absolute : Bytes}
    (accepted : archivePath databasePath relative = some absolute) :
    absolute = databasePath ++ separator :: relative ∧
      ∀ name ∈ components relative, Proper name := by
  unfold archivePath at accepted
  split_ifs at accepted with empty scanned long
  exact ⟨(Option.some.inj accepted).symm,
    proper_of_scanPath List.not_mem_nil scanned⟩

/-- Only objects below the root differ. -/
def ChangedBelow (root : Place) (files later : Files) : Prop :=
  ∀ place, later.kind place ≠ files.kind place → ∃ names, names ≠ [] ∧ place = root ++ names

theorem ChangedBelow.refl (root : Place) (files : Files) : ChangedBelow root files files :=
  fun _ changed => absurd rfl changed

theorem ChangedBelow.trans {root : Place} {first second third : Files}
    (before : ChangedBelow root first second) (after : ChangedBelow root second third) :
    ChangedBelow root first third := by
  intro place changed
  by_cases same : second.kind place = first.kind place
  · exact after place (same ▸ changed)
  · exact before place same

theorem changedBelow_set {root names : Place} {files : Files} {kind : Kind} (below : names ≠ []) :
    ChangedBelow root files (files.set (root ++ names) kind) := by
  intro place changed
  by_cases same : place = root ++ names
  · exact ⟨names, below, same⟩
  · exact absurd (Function.update_of_ne same _ _) changed

/-- The destination of a restore: a directory without links below it, and an open file in it. -/
structure Destination (databasePath : Bytes) (root : Place) (files : Files) (archive : Archive) :
    Prop where
  path : archive.databasePath = some databasePath
  leads : LeadsTo files databasePath root
  plain : Plain files root
  opened : ∀ place position, archive.file = some (place, position) →
    ∃ names content, names ≠ [] ∧ place = root ++ names ∧ files.kind place = some (.regular content)

theorem plain_set {files : Files} {root place : Place} {kind : Kind} (plain : Plain files root)
    (proper : ∀ target, kind ≠ .link target) : Plain (files.set place kind) root := by
  intro names nonempty target link
  by_cases same : root ++ names = place
  · have set : (files.set place kind).kind (root ++ names) = some kind := by
      rw [same]
      exact Function.update_self _ _ _
    rw [set] at link
    exact proper target (Option.some.inj link)
  · have kept : (files.set place kind).kind (root ++ names) = files.kind (root ++ names) :=
      Function.update_of_ne same _ _
    exact plain names nonempty target (kept ▸ link)

/-- A new object at an accepted path. -/
theorem located_free {databasePath relative absolute : Bytes} {root place : Place} {files : Files}
    {archive : Archive} (destination : Destination databasePath root files archive)
    (accepted : archivePath databasePath relative = some absolute)
    (located : locate files absolute = .ok place) :
    place = root ++ components relative ∧ components relative ≠ [] := by
  obtain ⟨rfl, proper⟩ := archivePath_some accepted
  exact ⟨locate_plain destination.leads destination.plain proper located,
    components_ne_nil relative⟩

theorem mkdir_ok {files later : Files} {path : Bytes} (made : mkdir files path = .ok later) :
    ∃ place, locate files path = .ok place ∧ files.kind place = none ∧
      later = files.set place .directory := by
  unfold mkdir at made
  cases located : locate files path with
  | error error =>
      rw [located] at made
      cases made
  | ok place =>
      rw [located] at made
      simp only [bind, Except.bind] at made
      split_ifs at made with taken
      exact ⟨place, rfl, by simpa using taken, (Except.ok.inj made).symm⟩

theorem create_ok {files later : Files} {path : Bytes} {place : Place}
    (created : create files path = .ok (place, later)) :
    locate files path = .ok place ∧ files.kind place = none ∧
      later = files.set place (.regular []) := by
  unfold create at created
  cases located : locate files path with
  | error error =>
      rw [located] at created
      cases created
  | ok found =>
      rw [located] at created
      simp only [bind, Except.bind] at created
      split_ifs at created with taken
      obtain ⟨rfl, rfl⟩ := Prod.mk.inj (Except.ok.inj created)
      exact ⟨rfl, by simpa using taken, rfl⟩

theorem attempt_ok {α : Type} {fault : Option Errno} {outcome : Except Errno α} {value : α}
    (done : attempt fault outcome = .ok value) : outcome = .ok value := by
  cases fault with
  | none => exact done
  | some error => cases done

@[simp]
theorem set_kind (files : Files) (place : Place) (kind : Kind) :
    (files.set place kind).kind place = some kind := Function.update_self _ _ _

theorem set_set (files : Files) (place : Place) (first second : Kind) :
    (files.set place first).set place second = files.set place second := by
  simp [Files.set, Function.update_idem]

theorem append_append (files : Files) (place : Place) (first second : Bytes) :
    append (append files place first) place second = append files place (first ++ second) := by
  rw [append, append, append, set_set]
  congr 2
  rw [← List.append_assoc]
  congr 1
  rw [Files.content, set_kind]

/-- The loop over the data leaves the file with some of the data behind its content. -/
theorem writeData_appends (calls : WriteCalls) (place : Place) (data : Bytes) (offset : ℕ)
    (files : Files) : (writeData calls place data offset files).2 = files ∨
      ∃ part, (writeData calls place data offset files).2 = append files place part := by
  fun_induction writeData calls place data offset files with
  | case1 => exact .inl rfl
  | case2 => exact .inl rfl
  | case3 offset files less amount outcome chunk induction =>
      right
      rcases induction with same | ⟨part, same⟩
      · exact ⟨_, same⟩
      · exact ⟨_, same.trans (append_append _ _ _ _)⟩
  | case4 => exact .inl rfl

/-- When the loop over the data succeeds, the file has all of them. -/
theorem writeData_ok {calls : WriteCalls} {place : Place} {data : Bytes} {offset : ℕ} {files : Files}
    (less : offset < data.length) (done : (writeData calls place data offset files).1 = none) :
    (writeData calls place data offset files).2 = append files place (data.drop offset) := by
  fun_induction writeData calls place data offset files with
  | case1 => cases done
  | case2 => cases done
  | case3 offset files inside amount outcome chunk induction =>
      have joined : chunk ++ data.drop (offset + (amount + 1)) = data.drop offset := by
        rw [← List.drop_drop, List.take_append_drop]
      by_cases more : offset + (amount + 1) < data.length
      · rw [induction more done, append_append, joined]
      · rw [writeData, if_neg more, ← joined, List.drop_eq_nil_of_le (Nat.not_lt.mp more),
          List.append_nil]
  | case4 offset files outside => exact absurd less outside

/-- The effect of a call that succeeds or fails on the files: nothing, a new object at an accepted
path, or data behind the content of the open file. -/
inductive Effect (databasePath : Bytes) (archive : Archive) (files : Files) : Files → Prop where
  | nothing : Effect databasePath archive files files
  | made {relative absolute : Bytes} {place : Place} {kind : Kind}
      (accepted : archivePath databasePath relative = some absolute)
      (located : locate files absolute = .ok place) (free : files.kind place = none)
      (sort : kind = .directory ∨ kind = .regular []) :
      Effect databasePath archive files (files.set place kind)
  | appended {place : Place} {position : ℕ} (data : Bytes)
      (opened : archive.file = some (place, position)) :
      Effect databasePath archive files (append files place data)

/-- The open file afterwards is the same one, none, or the object that was made. -/
inductive Reopened (archive : Archive) (files later : Files) : Option (Place × ℕ) → Prop where
  | same : Reopened archive files later archive.file
  | closed : Reopened archive files later none
  | created {place : Place} (free : files.kind place = none)
      (made : later = files.set place (.regular [])) : Reopened archive files later (some (place, 0))

/-- What a call does to the files and to the open file. -/
structure Does (databasePath : Bytes) (files : Files) (archive : Archive)
    (result : Option Errno × Files × Archive) : Prop where
  effect : Effect databasePath archive files result.2.1
  file : Reopened archive files result.2.1 result.2.2.file
  path : result.2.2.databasePath = archive.databasePath

theorem Does.refused {databasePath : Bytes} {files : Files} {archive : Archive} {code : Option Errno} :
    Does databasePath files archive (code, files, archive) :=
  ⟨.nothing, .same, rfl⟩

theorem writeEntry_does (calls : WriteCalls) (kind : ℕ) (reader : BridgeReader)
    (databasePath : Bytes) (files : Files) (archive : Archive) :
    Does databasePath files archive
      (writeEntry calls kind reader databasePath files archive) := by
  unfold writeEntry
  simp only
  split_ifs with bad first
  · exact .refused
  · cases accepted : reader.string.1.bind (archivePath databasePath) with
    | none => exact .refused
    | some absolute =>
        obtain ⟨relative, -, accepted⟩ := Option.bind_eq_some_iff.mp accepted
        dsimp only
        cases outcome : attempt calls.mkdir (mkdir files absolute) with
        | error error => exact .refused
        | ok later =>
            obtain ⟨place, located, free, rfl⟩ := mkdir_ok (attempt_ok outcome)
            exact ⟨.made accepted located free (.inl rfl), .same, rfl⟩
  · cases accepted : reader.string.1.bind (archivePath databasePath) with
    | none => exact .refused
    | some absolute =>
        obtain ⟨relative, -, accepted⟩ := Option.bind_eq_some_iff.mp accepted
        dsimp only
        cases outcome : attempt calls.open_ (create files absolute) with
        | error error => exact ⟨.nothing, .same, rfl⟩
        | ok result =>
            obtain ⟨place, later⟩ := result
            obtain ⟨located, free, rfl⟩ := create_ok (attempt_ok outcome)
            exact ⟨.made accepted located free (.inr rfl), .created free rfl, rfl⟩

theorem writeChunk_does (calls : WriteCalls) (reader : BridgeReader) (databasePath : Bytes)
    (files : Files) (archive : Archive) :
    Does databasePath files archive (writeChunk calls reader files archive) := by
  unfold writeChunk
  cases file : archive.file with
  | none => exact .refused
  | some opened =>
      obtain ⟨place, position⟩ := opened
      simp only
      split_ifs with bad
      · exact .refused
      · have appended := writeData_appends calls place (reader.blob.1.getD []) 0 files
        cases outcome : writeData calls place (reader.blob.1.getD []) 0 files with
        | mk code later =>
            rw [outcome] at appended
            have effect : Effect databasePath archive files later := by
              rcases appended with rfl | ⟨part, rfl⟩
              · exact .nothing
              · exact .appended part file
            have kept : Reopened archive files later (some (place, position)) := file ▸ .same
            cases code with
            | none => exact ⟨effect, kept, rfl⟩
            | some error => exact ⟨effect, .same, rfl⟩

theorem writeClose_does (calls : WriteCalls) (databasePath : Bytes) (files : Files)
    (archive : Archive) : Does databasePath files archive (writeClose calls files archive) := by
  unfold writeClose
  split_ifs with early
  · exact .refused
  · cases calls.fsync with
    | some error => exact .refused
    | none => exact ⟨.nothing, .closed, rfl⟩

theorem archiveWrite_does {calls : WriteCalls} {reader : BridgeReader} {files : Files}
    {archive : Archive} {databasePath : Bytes} (path : archive.databasePath = some databasePath) :
    Does databasePath files archive (archiveWrite calls reader files archive) := by
  unfold archiveWrite
  simp only [path]
  split_ifs with closed entry data bad close stray
  · exact .refused
  · exact writeEntry_does _ _ _ _ _ _
  · exact writeChunk_does _ _ _ _ _
  · exact .refused
  · exact writeClose_does _ _ _ _
  · exact .refused
  · exact ⟨.nothing, .same, path.symm⟩

theorem set_below {databasePath : Bytes} {root place names : Place} {files : Files}
    {archive : Archive} {kind : Kind} (destination : Destination databasePath root files archive)
    (below : names ≠ []) (same : place = root ++ names)
    (old : ∀ kind, files.kind place = some kind → ∃ content, kind = .regular content)
    (proper : ∀ target, kind ≠ .link target) :
    ChangedBelow root files (files.set place kind) ∧
      LeadsTo (files.set place kind) databasePath root ∧ Plain (files.set place kind) root :=
  ⟨same ▸ changedBelow_set below, destination.leads.extends (extends_set old),
    plain_set destination.plain proper⟩

theorem content_eq {files : Files} {place : Place} {content : Bytes}
    (kind : files.kind place = some (.regular content)) : files.content place = content := by
  rw [Files.content, kind]

theorem Effect.below {databasePath : Bytes} {root : Place} {files later : Files} {archive : Archive}
    (effect : Effect databasePath archive files later)
    (destination : Destination databasePath root files archive) :
    ChangedBelow root files later ∧ LeadsTo later databasePath root ∧ Plain later root ∧
      ∀ place content, files.kind place = some (.regular content) →
        ∃ content, later.kind place = some (.regular content) := by
  cases effect with
  | nothing => exact ⟨.refl _ _, destination.leads, destination.plain, fun _ content kind => ⟨content, kind⟩⟩
  | @made relative absolute place kind accepted located free sort =>
      obtain ⟨same, below⟩ := located_free destination accepted located
      have proper : ∀ target, kind ≠ .link target := by rcases sort with rfl | rfl <;> simp
      obtain ⟨changed, leads, plain⟩ :=
        @set_below _ _ _ _ _ _ kind destination below same (by rw [free]; simp) proper
      refine ⟨changed, leads, plain, fun other content there => ⟨content, ?_⟩⟩
      rw [← there]
      refine Function.update_of_ne ?_ _ _
      rintro rfl
      rw [free] at there
      cases there
  | @appended place position data written =>
      obtain ⟨names, old, below, same, kind⟩ := destination.opened _ _ written
      obtain ⟨changed, leads, plain⟩ :=
        @set_below _ _ _ _ _ _ (.regular (files.content place ++ data)) destination below same
          (by rw [kind]; rintro _ ⟨⟩; exact ⟨old, rfl⟩) (by simp)
      refine ⟨changed, leads, plain, fun other content there => ?_⟩
      by_cases opened : other = place
      · rw [opened]
        exact ⟨_, set_kind _ _ _⟩
      · exact ⟨content, (Function.update_of_ne opened _ _).trans there⟩

theorem Reopened.cases {archive : Archive} {files later : Files} {opened : Option (Place × ℕ)}
    (file : Reopened archive files later opened) {place : Place} {position : ℕ}
    (there : opened = some (place, position)) :
    archive.file = some (place, position) ∨
      files.kind place = none ∧ later = files.set place (.regular []) := by
  cases file with
  | same => exact .inl there
  | closed => cases there
  | created free made =>
      obtain ⟨rfl, -⟩ := Prod.mk.inj (Option.some.inj there)
      exact .inr ⟨free, made⟩

/-- Each call keeps the destination and changes nothing outside of it. -/
theorem Destination.step {databasePath : Bytes} {root : Place} {files : Files} {archive : Archive}
    {result : Option Errno × Files × Archive}
    (destination : Destination databasePath root files archive)
    (does : Does databasePath files archive result) :
    Destination databasePath root result.2.1 result.2.2 ∧ ChangedBelow root files result.2.1 := by
  obtain ⟨changed, leads, plain, keeps⟩ := does.effect.below destination
  refine ⟨⟨does.path.trans destination.path, leads, plain, ?_⟩, changed⟩
  intro place position there
  rcases does.file.cases there with before | ⟨free, made⟩
  · obtain ⟨names, content, below, same, kind⟩ := destination.opened place position before
    obtain ⟨later, kind⟩ := keeps place content kind
    exact ⟨names, later, below, same, kind⟩
  · have now : result.2.1.kind place = some (.regular []) := by rw [made, set_kind]
    obtain ⟨names, below, same⟩ := changed place (by rw [now, free]; simp)
    exact ⟨names, [], below, same, now⟩

/-- A sequence of calls, each with what the system does in it. -/
def restore (files : Files) (archive : Archive) :
    List (WriteCalls × Bytes) → List (Option Errno) × Files × Archive
  | [] => ([], files, archive)
  | (calls, record) :: requests =>
      let (code, files, archive) := archiveWrite calls (.of record) files archive
      let (codes, result) := restore files archive requests
      (code :: codes, result)

/-- No sequence of records changes anything outside of the destination. -/
theorem restore_below {databasePath : Bytes} {root : Place} {files : Files} {archive : Archive}
    (destination : Destination databasePath root files archive)
    (requests : List (WriteCalls × Bytes)) :
    ChangedBelow root files (restore files archive requests).2.1 := by
  induction requests generalizing files archive with
  | nil => exact .refl _ _
  | cons request requests induction =>
      obtain ⟨calls, record⟩ := request
      have does := @archiveWrite_does calls (.of record) files _ _ destination.path
      obtain ⟨kept, changed⟩ := destination.step does
      exact changed.trans (induction kept)

namespace BridgeReader

theorem get_inv {reader : BridgeReader} (done : reader.get.2.failed = false) :
    reader.failed = false ∧ reader.rest = LittleEndian.u32 reader.get.1 ++ reader.get.2.rest := by
  unfold get at done ⊢
  split_ifs at done ⊢ with short
  rw [not_or, Bool.not_eq_true, Nat.not_lt] at short
  refine ⟨short.1, ?_⟩
  rw [LittleEndian.u32_getUint32 short.2, List.take_append_drop]

theorem get_lt (reader : BridgeReader) : reader.get.1 < 2 ^ 32 := by
  unfold get
  split_ifs
  · exact Nat.two_pow_pos 32
  · exact LittleEndian.getUint32_lt _ _

theorem blob_inv {reader : BridgeReader} (done : reader.blob.2.failed = false) :
    reader.failed = false ∧ ∃ bytes, reader.blob.1 = some bytes ∧
      reader.rest = Writer.valueBytes (some bytes) ++ reader.blob.2.rest := by
  unfold blob at done ⊢
  simp only at done ⊢
  split_ifs at done ⊢ with short
  rw [not_or, Bool.not_eq_true, Nat.not_lt] at short
  obtain ⟨before, rest⟩ := get_inv short.1
  refine ⟨before, _, rfl, ?_⟩
  rw [Writer.valueBytes, List.length_take_of_le short.2, List.append_assoc, List.take_append_drop,
    ← rest]

theorem string_inv {reader : BridgeReader} (done : reader.string.2.failed = false) :
    reader.failed = false ∧ ∃ bytes, reader.string.1 = some bytes ∧
      reader.rest = Writer.valueBytes (some bytes) ++ reader.string.2.rest := by
  have inner := @blob_inv reader
  unfold string at done ⊢
  cases outcome : reader.blob with
  | mk blob next =>
      rw [outcome] at inner done
      cases blob with
      | none => cases done
      | some bytes =>
          simp only at done ⊢
          split_ifs at done ⊢ with zero
          obtain ⟨before, found, same, rest⟩ := inner done
          obtain rfl := Option.some.inj same
          exact ⟨before, bytes, rfl, rest⟩

end BridgeReader

/-- The records of an archive. -/
inductive ArchiveRecord where
  | finish
  | directory (path : Bytes)
  | file (path : Bytes) (size : ℕ)
  | data (bytes : Bytes)
  | close
  deriving DecidableEq, Repr

def ArchiveRecord.bytes : ArchiveRecord → Bytes
  | finish => LittleEndian.u32 0
  | directory path => LittleEndian.u32 1 ++ Writer.valueBytes (some path)
  | file path size =>
      LittleEndian.u32 2 ++ (Writer.valueBytes (some path) ++
        (LittleEndian.u32 size ++ LittleEndian.u32 (size >>> 32)))
  | data bytes => LittleEndian.u32 3 ++ Writer.valueBytes (some bytes)
  | close => LittleEndian.u32 4

/-- What an accepted record does. -/
inductive Accepts (databasePath : Bytes) (files : Files) (archive : Archive) :
    ArchiveRecord → Files × Archive → Prop where
  | finish (idle : archive.file = none) :
      Accepts databasePath files archive .finish (files, { archive with restoreComplete := true })
  | directory {relative absolute : Bytes} {place : Place} (idle : archive.file = none)
      (accepted : archivePath databasePath relative = some absolute)
      (located : locate files absolute = .ok place) (free : files.kind place = none) :
      Accepts databasePath files archive (.directory relative)
        (files.set place .directory, archive)
  | file {relative absolute : Bytes} {place : Place} {size : ℕ} (idle : archive.file = none)
      (accepted : archivePath databasePath relative = some absolute)
      (located : locate files absolute = .ok place) (free : files.kind place = none) :
      Accepts databasePath files archive (.file relative size)
        (files.set place (.regular []),
          { archive with remaining := size, file := some (place, 0) })
  | data {place : Place} {position : ℕ} {data : Bytes}
      (opened : archive.file = some (place, position)) (some_ : data ≠ [])
      (chunk : data.length ≤ archiveChunk) (fits : data.length ≤ archive.remaining) :
      Accepts databasePath files archive (.data data)
        (append files place data, { archive with remaining := archive.remaining - data.length })
  | close {place : Place} {position : ℕ} (opened : archive.file = some (place, position))
      (filled : archive.remaining = 0) :
      Accepts databasePath files archive .close (files, { archive with file := none })

variable {archive : Archive} {databasePath : Bytes} {files : Files}

variable {reader : BridgeReader} {calls : WriteCalls} {requests : List (WriteCalls × Bytes)}

theorem entryRefused_eq_false {size : ℕ} :
    entryRefused reader archive size = false ↔
      reader.failed = false ∧ reader.rest = [] ∧ archive.file = none ∧ size ≤ maxFileSize := by
  simp [entryRefused, and_assoc]

theorem readSize_file (reader : BridgeReader) :
    readSize 2 reader =
      (joinWords reader.get.1 reader.get.2.get.1, reader.get.2.get.2) := by
  simp only [readSize, if_true]

theorem readSize_directory (reader : BridgeReader) : readSize 1 reader = (0, reader) := by
  simp [readSize]

theorem joinWords_eq {low : ℕ} (high : ℕ) (small : low < 2 ^ 32) :
    joinWords low high = high * 2 ^ 32 + low := by
  rw [joinWords, ← Nat.shiftLeft_add_eq_or_of_lt small, Nat.shiftLeft_eq]

/-- The low word of a size. -/
theorem u32_joinWords {low : ℕ} (high : ℕ) (small : low < 2 ^ 32) :
    LittleEndian.u32 (joinWords low high) = LittleEndian.u32 low := by
  rw [joinWords_eq high small]
  simp only [LittleEndian.u32, List.cons.injEq, and_true]
  refine ⟨?_, ?_, ?_, ?_⟩ <;>
    apply UInt8.toNat.inj <;>
    simp only [UInt8.toNat_ofNat'] <;>
    omega

/-- The high word of a size. -/
theorem joinWords_shift {low : ℕ} (high : ℕ) (small : low < 2 ^ 32) :
    joinWords low high >>> 32 = high := by
  rw [joinWords_eq high small, Nat.shiftRight_eq_div_pow]
  omega

theorem writeDirectory_accepts
    (done : (writeEntry calls 1 reader databasePath files archive).1 = none) :
    reader.failed = false ∧ ∃ record, LittleEndian.u32 1 ++ reader.rest = record.bytes ∧
      Accepts databasePath files archive record
        (writeEntry calls 1 reader databasePath files archive).2 := by
  unfold writeEntry at done ⊢
  simp only [readSize_directory, if_true] at done ⊢
  split_ifs at done ⊢ with bad
  obtain ⟨read, nothing, idle, -⟩ := entryRefused_eq_false.mp (Bool.not_eq_true _ ▸ bad)
  obtain ⟨before, relative, found, rest⟩ := BridgeReader.string_inv read
  rw [nothing, List.append_nil] at rest
  rw [found, Option.bind_some] at done ⊢
  cases accepted : archivePath databasePath relative with
  | none =>
      rw [accepted] at done
      cases done
  | some absolute =>
      rw [accepted] at done
      dsimp only at done ⊢
      cases outcome : attempt calls.mkdir (mkdir files absolute) with
      | error error =>
          rw [outcome] at done
          cases done
      | ok later =>
          obtain ⟨place, located, free, rfl⟩ := mkdir_ok (attempt_ok outcome)
          exact ⟨before, .directory relative, by rw [rest]; rfl,
            .directory idle accepted located free⟩

theorem writeFile_accepts (done : (writeEntry calls 2 reader databasePath files archive).1 = none) :
    reader.failed = false ∧ ∃ record, LittleEndian.u32 2 ++ reader.rest = record.bytes ∧
      Accepts databasePath files archive record
        (writeEntry calls 2 reader databasePath files archive).2 := by
  unfold writeEntry at done ⊢
  simp only [readSize_file] at done ⊢
  split_ifs at done ⊢ with bad directory
  · cases directory
  · obtain ⟨read, nothing, idle, -⟩ := entryRefused_eq_false.mp (Bool.not_eq_true _ ▸ bad)
    obtain ⟨middle, highRest⟩ := BridgeReader.get_inv read
    obtain ⟨read, lowRest⟩ := BridgeReader.get_inv middle
    obtain ⟨before, relative, found, rest⟩ := BridgeReader.string_inv read
    have small := reader.string.2.get_lt
    rw [nothing, List.append_nil] at highRest
    rw [lowRest, highRest] at rest
    rw [found, Option.bind_some] at done ⊢
    cases accepted : archivePath databasePath relative with
    | none =>
        rw [accepted] at done
        cases done
    | some absolute =>
        rw [accepted] at done
        dsimp only at done ⊢
        cases outcome : attempt calls.open_ (create files absolute) with
        | error error =>
            rw [outcome] at done
            cases done
        | ok result =>
            obtain ⟨place, later⟩ := result
            obtain ⟨located, free, rfl⟩ := create_ok (attempt_ok outcome)
            refine ⟨before, .file relative _, ?_, .file idle accepted located free⟩
            rw [ArchiveRecord.bytes, u32_joinWords _ small, joinWords_shift _ small, rest]

theorem writeChunk_accepts {calls : WriteCalls} {reader : BridgeReader} {databasePath : Bytes}
    {files : Files} {archive : Archive}
    (done : (writeChunk calls reader files archive).1 = none) :
    reader.failed = false ∧ ∃ record, LittleEndian.u32 3 ++ reader.rest = record.bytes ∧
      Accepts databasePath files archive record (writeChunk calls reader files archive).2 := by
  unfold writeChunk at done ⊢
  cases opened : archive.file with
  | none =>
      rw [opened] at done
      cases done
  | some file =>
      obtain ⟨place, position⟩ := file
      rw [opened] at done
      simp only at done ⊢
      split_ifs at done ⊢ with bad
      rw [not_or, not_or, not_or, not_or, Bool.not_eq_true, not_not, Nat.not_lt, Nat.not_lt] at bad
      obtain ⟨read, nothing, some_, chunk, fits⟩ := bad
      obtain ⟨before, data, found, rest⟩ := BridgeReader.blob_inv read
      rw [nothing, List.append_nil] at rest
      simp only [found, Option.getD_some] at done some_ chunk fits ⊢
      have written := @writeData_ok calls place data 0 files (List.length_pos_iff.mpr some_)
      cases outcome : writeData calls place data 0 files with
      | mk code later =>
          rw [outcome] at done written
          cases code with
          | some error => cases done
          | none =>
              obtain rfl := written rfl
              refine ⟨before, .data data, by rw [rest]; rfl, ?_⟩
              have accepts := @Accepts.data databasePath files archive place position data opened some_
                chunk fits
              rwa [opened] at accepts

theorem writeClose_accepts (done : (writeClose calls files archive).1 = none) :
    Accepts databasePath files archive .close (writeClose calls files archive).2 := by
  unfold writeClose at done ⊢
  split_ifs at done ⊢ with early
  rw [not_or, not_not] at early
  obtain ⟨file, opened⟩ := Option.ne_none_iff_exists'.mp early.1
  cases synced : calls.fsync with
  | some error =>
      rw [synced] at done
      cases done
  | none => exact .close opened early.2

/-- A call that succeeds was given a record, and does what the record says. -/
theorem archiveWrite_accepts (path : archive.databasePath = some databasePath)
    (done : (archiveWrite calls reader files archive).1 = none) :
    archive.restoreComplete = false ∧ reader.failed = false ∧
      ∃ record, reader.rest = record.bytes ∧
        Accepts databasePath files archive record (archiveWrite calls reader files archive).2 := by
  have word := @BridgeReader.get_inv reader
  unfold archiveWrite at done ⊢
  simp only [path] at done ⊢
  have running : ¬(archive.restoring = false ∨ archive.restoreComplete = true) := by
    intro closed
    rw [if_pos closed] at done
    cases done
  rw [if_neg running] at done ⊢
  have incomplete : archive.restoreComplete = false := by simpa using (not_or.mp running).2
  split_ifs at done ⊢ with entry data bad close stray
  · rcases entry with kind | kind
    · rw [kind] at done word ⊢
      obtain ⟨read, record, bytes, accepts⟩ := writeDirectory_accepts done
      obtain ⟨before, rest⟩ := word read
      exact ⟨incomplete, before, record, rest.trans bytes, accepts⟩
    · rw [kind] at done word ⊢
      obtain ⟨read, record, bytes, accepts⟩ := writeFile_accepts done
      obtain ⟨before, rest⟩ := word read
      exact ⟨incomplete, before, record, rest.trans bytes, accepts⟩
  · rw [data] at word
    obtain ⟨read, record, bytes, accepts⟩ :=
      @writeChunk_accepts calls reader.get.2 databasePath files archive done
    obtain ⟨before, rest⟩ := word read
    exact ⟨incomplete, before, record, rest.trans bytes, accepts⟩
  · rw [close] at word
    rw [not_or, Bool.not_eq_true, not_not] at bad
    obtain ⟨before, rest⟩ := word bad.1
    rw [bad.2, List.append_nil] at rest
    exact ⟨incomplete, before, .close, rest, writeClose_accepts done⟩
  · rw [not_or, not_not, not_not] at stray
    rw [stray.1] at word
    rw [not_or, Bool.not_eq_true, not_not] at bad
    obtain ⟨before, rest⟩ := word bad.1
    rw [bad.2, List.append_nil] at rest
    have finished := @Accepts.finish databasePath files archive stray.2
    rw [path] at finished
    exact ⟨incomplete, before, .finish, rest, finished⟩

/-! ## Accepted streams -/

/-- Records in which the data of each file fill its size in order, up to the end of the archive, with
the files and directories that they describe below the root. -/
inductive Restored (root : Place) (files : Files) : List ArchiveRecord → Prop where
  | finish : Restored root files [.finish]
  | directory {path : Bytes} {rest : List ArchiveRecord}
      (made : files.kind (root ++ components path) = some .directory)
      (restored : Restored root files rest) : Restored root files (.directory path :: rest)
  | file {path : Bytes} {chunks : List Bytes} {rest : List ArchiveRecord}
      (sized : ∀ chunk ∈ chunks, chunk ≠ [] ∧ chunk.length ≤ archiveChunk)
      (made : files.kind (root ++ components path) = some (.regular chunks.flatten))
      (restored : Restored root files rest) :
      Restored root files (.file path chunks.flatten.length :: (chunks.map .data ++ .close :: rest))

/-- The outcome of records of which the first is expected outside of a file, or behind some data of
the open file. -/
def Outcome (root : Place) (archive : Archive) (files later : Files)
    (records : List ArchiveRecord) : Prop :=
  match archive.file with
  | none => Restored root later records
  | some (place, _) =>
      ∃ chunks rest, records = List.map ArchiveRecord.data chunks ++ .close :: rest ∧
        (∀ chunk ∈ chunks, chunk ≠ [] ∧ chunk.length ≤ archiveChunk) ∧
        chunks.flatten.length = archive.remaining ∧ Restored root later rest ∧
        later.kind place = some (.regular (files.content place ++ chunks.flatten))

/-- An object that is not the open file stays as it is. -/
theorem Does.keeps
    {result : Option Errno × Files × Archive} (does : Does databasePath files archive result)
    {place : Place} {kind : Kind} (there : files.kind place = some kind)
    (shut : ∀ position, archive.file ≠ some (place, position)) :
    result.2.1.kind place = some kind ∧ ∀ position, result.2.2.file ≠ some (place, position) := by
  obtain ⟨code, later, next⟩ := result
  constructor
  · obtain ⟨effect, -, -⟩ := does
    simp only at effect ⊢
    cases effect with
    | nothing => exact there
    | @made relative absolute other _ accepted located free sort =>
        rw [← there]
        refine Function.update_of_ne ?_ _ _
        rintro rfl
        rw [free] at there
        cases there
    | @appended other position data opened =>
        rw [← there]
        refine Function.update_of_ne ?_ _ _
        rintro rfl
        exact shut position opened
  · intro position open_
    rcases does.file.cases open_ with before | ⟨free, -⟩
    · exact shut position before
    · rw [free] at there
      cases there

theorem restore_keeps {place : Place}
    {kind : Kind} (path : archive.databasePath = some databasePath)
    (there : files.kind place = some kind)
    (shut : ∀ position, archive.file ≠ some (place, position))
    (requests : List (WriteCalls × Bytes)) :
    (restore files archive requests).2.1.kind place = some kind := by
  induction requests generalizing files archive with
  | nil => exact there
  | cons request requests induction =>
      obtain ⟨calls, record⟩ := request
      have does := @archiveWrite_does calls (.of record) files _ _ path
      obtain ⟨kept, closed⟩ := does.keeps there shut
      exact induction (does.path.trans path) kept closed

/-- A stream whose calls all succeed and that completes the restore. -/
structure Accepted (files : Files) (archive : Archive) (requests : List (WriteCalls × Bytes)) :
    Prop where
  codes : ∀ code ∈ (restore files archive requests).1, code = none
  complete : (restore files archive requests).2.2.restoreComplete = true

theorem Accepted.tail {record : Bytes}
    (accepted : Accepted files archive ((calls, record) :: requests)) :
    (archiveWrite calls (.of record) files archive).1 = none ∧
      Accepted (archiveWrite calls (.of record) files archive).2.1
        (archiveWrite calls (.of record) files archive).2.2 requests :=
  ⟨accepted.codes _ List.mem_cons_self,
    ⟨fun code member => accepted.codes code (List.mem_cons_of_mem _ member), accepted.complete⟩⟩

/-- What an accepted stream says and leaves behind. -/
theorem accepted_outcome {root : Place} (destination : Destination databasePath root files archive)
    (incomplete : archive.restoreComplete = false) (accepted : Accepted files archive requests) :
    ∃ records, requests.map Prod.snd = records.map ArchiveRecord.bytes ∧
      Outcome root archive files (restore files archive requests).2.1 records := by
  induction requests generalizing files archive with
  | nil => exact absurd accepted.complete (by rw [restore, incomplete]; simp)
  | cons request requests induction =>
      obtain ⟨calls, record⟩ := request
      obtain ⟨done, rest⟩ := accepted.tail
      have does := @archiveWrite_does calls (.of record) files _ _ destination.path
      obtain ⟨kept, -⟩ := destination.step does
      obtain ⟨-, -, first, bytes, accepts⟩ := archiveWrite_accepts destination.path done
      have later : (restore files archive ((calls, record) :: requests)).2.1 =
          (restore (archiveWrite calls (.of record) files archive).2.1
            (archiveWrite calls (.of record) files archive).2.2 requests).2.1 := rfl
      rw [later]
      generalize archiveWrite calls (.of record) files archive = result at *
      obtain ⟨code, next, after⟩ := result
      simp only at rest kept accepts does later ⊢
      obtain rfl : record = first.bytes := bytes
      cases accepts with
      | finish idle =>
          cases requests with
          | nil =>
              refine ⟨[.finish], rfl, ?_⟩
              rw [Outcome, idle]
              exact .finish
          | cons request requests =>
              obtain ⟨calls, record⟩ := request
              obtain ⟨done, -⟩ := rest.tail
              obtain ⟨stopped, -⟩ := archiveWrite_accepts kept.path done
              cases stopped
      | @directory relative absolute place idle allowed located free =>
          obtain ⟨records, mapped, outcome⟩ := induction kept incomplete rest
          refine ⟨.directory relative :: records, by rw [List.map_cons, mapped]; rfl, ?_⟩
          rw [Outcome, idle] at outcome ⊢
          refine .directory ?_ outcome
          obtain ⟨rfl, -⟩ := located_free destination allowed located
          exact restore_keeps kept.path (set_kind _ _ _) (by rw [idle]; simp) requests
      | @file relative absolute place size idle allowed located free =>
          obtain ⟨records, mapped, outcome⟩ := induction kept incomplete rest
          obtain ⟨chunks, others, rfl, sized, filled, restored, content⟩ := outcome
          obtain ⟨rfl, -⟩ := located_free destination allowed located
          rw [content_eq (set_kind _ _ _), List.nil_append] at content
          refine ⟨.file relative size :: _, by rw [List.map_cons, mapped]; rfl, ?_⟩
          rw [Outcome, idle]
          obtain rfl : chunks.flatten.length = size := filled
          exact .file sized content restored
      | @data place position data opened some_ chunk fits =>
          obtain ⟨records, mapped, outcome⟩ := induction kept incomplete rest
          rw [Outcome, opened] at outcome
          obtain ⟨chunks, others, rfl, sized, filled, restored, content⟩ := outcome
          refine ⟨.data data :: _, by rw [List.map_cons, mapped]; rfl, ?_⟩
          rw [Outcome, opened]
          refine ⟨data :: chunks, others, rfl, List.forall_mem_cons.mpr ⟨⟨some_, chunk⟩, sized⟩, ?_,
            restored, ?_⟩
          · rw [List.flatten_cons, List.length_append, filled]
            dsimp only
            omega
          · rw [content, append, content_eq (set_kind _ _ _), List.flatten_cons, List.append_assoc]
      | @close place position opened filled =>
          obtain ⟨records, mapped, outcome⟩ := induction kept incomplete rest
          refine ⟨.close :: records, by rw [List.map_cons, mapped]; rfl, ?_⟩
          rw [Outcome, opened]
          refine ⟨[], records, rfl, by simp, filled.symm, outcome, ?_⟩
          obtain ⟨names, content, -, -, kind⟩ := destination.opened place position opened
          rw [List.flatten_nil, List.append_nil, content_eq kind]
          exact restore_keeps kept.path kind (by simp) requests

/-- An accepted stream outside of a file is a list of records whose files have exactly their data. -/
theorem accepted_restored {root : Place}
    (destination : Destination databasePath root files archive) (idle : archive.file = none)
    (incomplete : archive.restoreComplete = false) (accepted : Accepted files archive requests) :
    ∃ records, requests.map Prod.snd = records.map ArchiveRecord.bytes ∧
      Restored root (restore files archive requests).2.1 records := by
  obtain ⟨records, mapped, outcome⟩ := accepted_outcome destination incomplete accepted
  rw [Outcome, idle] at outcome
  exact ⟨records, mapped, outcome⟩

end Wasm
end Postgamma
