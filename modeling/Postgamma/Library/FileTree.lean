import Mathlib.Tactic
import Postgamma.Library.Text

/-!
# A file system with links

Objects stand at places, which are lists of names from the root. A path is followed one component
at a time, through links and through the names of the same and of the parent directory. Proper
names below a directory without links lead to the place that they spell.
-/

namespace Postgamma
namespace FileTree

open Text (Bytes)

/-- A place in the tree, without links. -/
abbrev Place := List Bytes

/-- What stands at a place. -/
inductive Kind where
  | directory
  | regular (content : Bytes)
  | link (target : Bytes)
  | special
  deriving DecidableEq, Repr

/-- A file system, with the entries of each directory in the order in which they are read. -/
structure Files where
  kind : Place → Option Kind
  listing : Place → List Bytes

/-- The reasons for a call to fail. -/
inductive Errno where
  | noEntry
  | notDirectory
  | exists_
  | loop
  | invalid
  | overflow
  | io
  | noMemory
  | other (code : ℕ)
  deriving DecidableEq, Repr

/-- The byte between the components of a path. -/
def separator : UInt8 := 47

/-- The name of the same directory. -/
def dot : Bytes := [46]

/-- The name of the parent directory. -/
def dotDot : Bytes := [46, 46]

/-- The name of an object in a directory. -/
structure Proper (name : Bytes) : Prop where
  nonempty : name ≠ []
  same : name ≠ dot
  parent : name ≠ dotDot

instance (name : Bytes) : Decidable (Proper name) :=
  decidable_of_iff (name ≠ [] ∧ name ≠ dot ∧ name ≠ dotDot)
    ⟨fun proper => ⟨proper.1, proper.2.1, proper.2.2⟩,
      fun proper => ⟨proper.nonempty, proper.same, proper.parent⟩⟩

def components : Bytes → List Bytes
  | [] => [[]]
  | byte :: bytes =>
      if byte = separator then [] :: components bytes
      else
        match components bytes with
        | [] => [[byte]]
        | name :: names => (byte :: name) :: names

/-- Follow components that have to be directories. -/
def follow (files : Files) (links : ℕ) (place : Place) : List Bytes → Except Errno (ℕ × Place)
  | [] => .ok (links, place)
  | name :: names =>
      if name = [] ∨ name = dot then follow files links place names
      else if name = dotDot then follow files links place.dropLast names
      else
        match files.kind (place ++ [name]) with
        | none => .error .noEntry
        | some .directory => follow files links (place ++ [name]) names
        | some (.link target) =>
            match links with
            | 0 => .error .loop
            | links + 1 =>
                follow files links (if target.head? = some separator then [] else place)
                  (components target ++ names)
        | some _ => .error .notDirectory
termination_by names => (links, names.length)

/-- How many links a path may lead through. -/
def maxLinks : ℕ := 40

/-- Take the last component of a path, which may be missing and is no link to follow. -/
def enter (place : Place) (name : Bytes) : Place :=
  if name = [] ∨ name = dot then place
  else if name = dotDot then place.dropLast
  else place ++ [name]

/-- The place of an absolute path. -/
def locate (files : Files) (path : Bytes) : Except Errno Place := do
  let (_, place) ← follow files maxLinks [] (components path).dropLast
  return enter place ((components path).getLastD [])

/-- The directory of an absolute path, which may be a link. -/
def locateDirectory (files : Files) (path : Bytes) : Except Errno Place := do
  let (_, place) ← follow files maxLinks [] (components path)
  return place

/-- The file system with another object at a place. -/
def Files.set (files : Files) (place : Place) (kind : Kind) : Files :=
  { files with kind := Function.update files.kind place (some kind) }

def lstat (files : Files) (path : Bytes) : Except Errno Kind := do
  let place ← locate files path
  match files.kind place with
  | none => throw .noEntry
  | some kind => return kind

def mkdir (files : Files) (path : Bytes) : Except Errno Files := do
  let place ← locate files path
  if (files.kind place).isSome then throw .exists_
  else return files.set place .directory

/-- `open` of a new file. -/
def create (files : Files) (path : Bytes) : Except Errno (Place × Files) := do
  let place ← locate files path
  if (files.kind place).isSome then throw .exists_
  else return (place, files.set place (.regular []))

def Files.content (files : Files) (place : Place) : Bytes :=
  match files.kind place with
  | some (.regular content) => content
  | _ => []

/-- `write` at the end of a file. -/
def append (files : Files) (place : Place) (data : Bytes) : Files :=
  files.set place (.regular (files.content place ++ data))

theorem components_ne_nil (path : Bytes) : components path ≠ [] := by
  cases path with
  | nil => simp [components]
  | cons byte bytes =>
      rw [components]
      split
      · simp
      · split <;> simp

theorem eq_of_components {path name : Bytes} (single : components path = [name]) :
    path = name := by
  induction path generalizing name with
  | nil => simpa [components] using single
  | cons byte bytes induction =>
      rw [components] at single
      split at single
      next =>
          exact absurd (List.cons.inj single).2 (components_ne_nil bytes)
      next =>
          split at single
          next none => exact absurd none (components_ne_nil bytes)
          next first rest split =>
              obtain ⟨same, empty⟩ := List.cons.inj single
              rw [empty] at split
              rw [induction split, same]

theorem components_append (front rest : Bytes) :
    components (front ++ separator :: rest) = components front ++ components rest := by
  induction front with
  | nil => simp [components]
  | cons byte bytes induction =>
      rw [List.cons_append, components, components, induction]
      split
      · rfl
      · cases names : components bytes with
        | nil => exact absurd names (components_ne_nil bytes)
        | cons name names => rfl

theorem follow_cons_directory {files : Files} {links : ℕ} {place : Place} {name : Bytes}
    {names : List Bytes} (proper : Proper name)
    (directory : files.kind (place ++ [name]) = some .directory) :
    follow files links place (name :: names) = follow files links (place ++ [name]) names := by
  rw [follow, if_neg (not_or.mpr ⟨proper.nonempty, proper.same⟩), if_neg proper.parent, directory]

theorem follow_append {files : Files} {links : ℕ} {place : Place} {names more : List Bytes}
    {left : ℕ} {reached : Place} (followed : follow files links place names = .ok (left, reached)) :
    follow files links place (names ++ more) = follow files left reached more := by
  fun_induction follow files links place names with
  | case1 =>
      obtain ⟨rfl, rfl⟩ := Prod.mk.inj (Except.ok.inj followed)
      rfl
  | case2 links place name names same induction =>
      rw [List.cons_append, follow, if_pos same]
      exact induction followed
  | case3 links place names other induction =>
      rw [List.cons_append, follow, if_neg other, if_pos rfl]
      exact induction followed
  | case4 => cases followed
  | case5 links place name names other forward kind induction =>
      rw [List.cons_append, follow, if_neg other, if_neg forward, kind]
      exact induction followed
  | case6 => cases followed
  | case7 place name names other forward target kind links induction =>
      rw [List.cons_append, follow, if_neg other, if_neg forward, kind]
      simp only
      rw [← List.append_assoc]
      exact induction followed
  | case8 => cases followed

/-- Every directory and every link of one file system is in the other one. -/
def Extends (files later : Files) : Prop :=
  ∀ place kind, files.kind place = some kind → (kind = .directory ∨ ∃ target, kind = .link target) →
    later.kind place = some kind

/-- A file system is extended by an object at a place without a directory or a link. -/
theorem extends_set {files : Files} {place : Place} {kind : Kind}
    (free : ∀ old, files.kind place = some old → ∃ content, old = .regular content) :
    Extends files (files.set place kind) := by
  intro other old there sort
  have different : other ≠ place := by
    rintro rfl
    obtain ⟨content, rfl⟩ := free old there
    rcases sort with same | ⟨target, same⟩ <;> cases same
  exact (Function.update_of_ne different (some kind) files.kind).trans there

theorem follow_extends {files later : Files} (extended : Extends files later) {links : ℕ}
    {place : Place} {names : List Bytes} {result : ℕ × Place}
    (followed : follow files links place names = .ok result) :
    follow later links place names = .ok result := by
  fun_induction follow files links place names with
  | case1 => rw [follow, followed]
  | case2 links place name names same induction =>
      rw [follow, if_pos same]
      exact induction followed
  | case3 links place names other induction =>
      rw [follow, if_neg other, if_pos rfl]
      exact induction followed
  | case4 => cases followed
  | case5 links place name names other forward kind induction =>
      rw [follow, if_neg other, if_neg forward, extended _ _ kind (.inl rfl)]
      exact induction followed
  | case6 => cases followed
  | case7 place name names other forward target kind links induction =>
      rw [follow, if_neg other, if_neg forward, extended _ _ kind (.inr ⟨target, rfl⟩)]
      exact induction followed
  | case8 => cases followed

/-- No link stands below a place. -/
def Plain (files : Files) (root : Place) : Prop :=
  ∀ names, names ≠ [] → ∀ target, files.kind (root ++ names) ≠ some (.link target)

/-- Proper names lead to the place that they spell, if they lead anywhere. -/
theorem follow_plain {files : Files} {root : Place} (plain : Plain files root) {links left : ℕ}
    {place reached : Place} {names : List Bytes} (below : root <+: place)
    (proper : ∀ name ∈ names, Proper name)
    (followed : follow files links place names = .ok (left, reached)) : reached = place ++ names := by
  induction names generalizing place with
  | nil =>
      rw [follow] at followed
      rw [List.append_nil, (Prod.mk.inj (Except.ok.inj followed)).2]
  | cons name names induction =>
      rw [List.forall_mem_cons] at proper
      rw [follow, if_neg (not_or.mpr ⟨proper.1.nonempty, proper.1.same⟩), if_neg proper.1.parent]
        at followed
      split at followed
      · cases followed
      · rw [induction (below.trans (List.prefix_append _ _)) proper.2 followed, List.append_assoc]
        rfl
      · rename_i target link
        obtain ⟨rest, rfl⟩ := below
        rw [List.append_assoc] at link
        exact absurd link (plain _ (by simp) target)
      · cases followed

/-- Proper names can be followed through directories. -/
theorem follow_directories {files : Files} {links : ℕ} {place : Place} {names : List Bytes}
    (proper : ∀ name ∈ names, Proper name)
    (directories : ∀ part, part <+: names → part ≠ [] →
      files.kind (place ++ part) = some .directory) :
    follow files links place names = .ok (links, place ++ names) := by
  induction names generalizing place with
  | nil => rw [follow, List.append_nil]
  | cons name names induction =>
      rw [List.forall_mem_cons] at proper
      have first := directories [name] (List.cons_prefix_cons.mpr ⟨rfl, List.nil_prefix⟩) (by simp)
      rw [follow_cons_directory proper.1 first, induction proper.2, List.append_assoc]
      · rfl
      · intro part front nonempty
        have longer := directories (name :: part) (List.cons_prefix_cons.mpr ⟨rfl, front⟩) (by simp)
        rwa [List.append_assoc]

/-- The path leads to a directory at a place. -/
def LeadsTo (files : Files) (path : Bytes) (root : Place) : Prop :=
  ∃ links, follow files maxLinks [] (components path) = .ok (links, root)

theorem LeadsTo.extends {files later : Files} {path : Bytes} {root : Place}
    (leads : LeadsTo files path root) (extended : Extends files later) :
    LeadsTo later path root := by
  obtain ⟨links, followed⟩ := leads
  exact ⟨links, follow_extends extended followed⟩

theorem components_relative {path relative : Bytes} :
    (components (path ++ separator :: relative)).dropLast =
        components path ++ (components relative).dropLast ∧
      (components (path ++ separator :: relative)).getLastD [] = (components relative).getLastD [] := by
  have nonempty := components_ne_nil relative
  rw [components_append]
  refine ⟨List.dropLast_append_of_ne_nil nonempty, ?_⟩
  rw [List.getLastD_eq_getLast?, List.getLastD_eq_getLast?, List.getLast?_append_of_ne_nil _ nonempty]

/-- A path of proper names below a directory without links is the place that it spells. -/
theorem locate_plain {files : Files} {path relative : Bytes} {root place : Place}
    (leads : LeadsTo files path root) (plain : Plain files root)
    (proper : ∀ name ∈ components relative, Proper name)
    (located : locate files (path ++ separator :: relative) = .ok place) :
    place = root ++ components relative := by
  obtain ⟨links, followed⟩ := leads
  rw [locate, components_relative.1, components_relative.2, follow_append followed] at located
  cases inner : follow files links root (components relative).dropLast with
  | error error =>
      rw [inner] at located
      cases located
  | ok result =>
      obtain ⟨left, reached⟩ := result
      rw [inner] at located
      have nonempty := components_ne_nil relative
      have last : (components relative).getLastD [] = (components relative).getLast nonempty := by
        rw [List.getLastD_eq_getLast?, List.getLast?_eq_some_getLast nonempty, Option.getD_some]
      have lastProper := proper _ (List.getLast_mem nonempty)
      have before := follow_plain plain List.prefix_rfl
        (fun name member => proper name (List.mem_of_mem_dropLast member)) inner
      obtain rfl := Except.ok.inj located
      rw [last, enter, if_neg (not_or.mpr ⟨lastProper.nonempty, lastProper.same⟩),
        if_neg lastProper.parent, before, List.append_assoc, List.dropLast_append_getLast]

/-- A path of proper names leads to its place through directories. -/
theorem locate_directories {files : Files} {path relative : Bytes} {root : Place}
    (leads : LeadsTo files path root) (proper : ∀ name ∈ components relative, Proper name)
    (directories : ∀ part, part <+: (components relative).dropLast → part ≠ [] →
      files.kind (root ++ part) = some .directory) :
    locate files (path ++ separator :: relative) = .ok (root ++ components relative) := by
  obtain ⟨links, followed⟩ := leads
  have nonempty := components_ne_nil relative
  have last : (components relative).getLastD [] = (components relative).getLast nonempty := by
    rw [List.getLastD_eq_getLast?, List.getLast?_eq_some_getLast nonempty, Option.getD_some]
  have lastProper := proper _ (List.getLast_mem nonempty)
  have before := @follow_directories files links root _
    (fun name member => proper name (List.mem_of_mem_dropLast member)) directories
  rw [locate, components_relative.1, components_relative.2, follow_append followed, before, last]
  simp only [bind, Except.bind, pure, Except.pure, enter]
  rw [if_neg (not_or.mpr ⟨lastProper.nonempty, lastProper.same⟩), if_neg lastProper.parent,
    List.append_assoc, List.dropLast_append_getLast]

end FileTree
end Postgamma
