import Mathlib
import Postgamma.Build.ReplacementPlan
import Postgamma.Library.Splice

/-!
# Composing replacement plans

What `merge` accepts, and the file list that it returns, depend only on which paths the plans list
with which digests and which replacements they hold for each path.  The list is therefore the same
for every order of the plans, for repeated entries and for merging in stages.
-/

namespace Postgamma.Build

variable {ρ : Type}

/-- Some entry has the path and the digest. -/
def Lists (entries : List (FileEntry ρ)) (path digest : String) : Prop :=
  ∃ entry ∈ entries, entry.path = path ∧ entry.sha256 = digest

/-- Some entry of the path has the replacement. -/
def Edits (entries : List (FileEntry ρ)) (path : String) (replacement : Replacement ρ) : Prop :=
  ∃ entry ∈ entries, entry.path = path ∧ replacement ∈ entry.replacements

/-- The first replacement starts and ends before the second one. -/
def Replacement.Precedes (first second : Replacement ρ) : Prop :=
  first.offset < second.offset ∧ first.offset + first.length ≤ second.offset

/-- Two replacements of a file that do not touch each other's range, or are one. -/
def Replacement.Apart (first second : Replacement ρ) : Prop :=
  first = second ∨ first.Precedes second ∨ second.Precedes first

/-- What `merge` asks of the entries. -/
structure Mergeable (entries : List (FileEntry ρ)) : Prop where
  digests : ∀ path first second, Lists entries path first → Lists entries path second →
    first = second
  starts : ∀ path replacement, Edits entries path replacement → 0 ≤ replacement.offset
  apart : ∀ path first second, Edits entries path first → Edits entries path second →
    first.Apart second

/-- The file list of some entries. -/
structure Canonical (entries files : List (FileEntry ρ)) : Prop where
  paths : (files.map FileEntry.path).Pairwise (· < ·)
  lists : ∀ path digest, Lists files path digest ↔ Lists entries path digest
  edits : ∀ path replacement, Edits files path replacement ↔ Edits entries path replacement
  ordered : ∀ entry ∈ files, entry.replacements.Pairwise Replacement.Precedes
  starts : ∀ entry ∈ files, ∀ replacement ∈ entry.replacements, 0 ≤ replacement.offset

variable {entry : FileEntry ρ}

theorem lists_cons {rest : List (FileEntry ρ)} {path digest : String} :
    Lists (entry :: rest) path digest ↔
      entry.path = path ∧ entry.sha256 = digest ∨ Lists rest path digest := by
  simp [Lists]

theorem edits_cons {rest : List (FileEntry ρ)} {path : String} {replacement : Replacement ρ} :
    Edits (entry :: rest) path replacement ↔
      entry.path = path ∧ replacement ∈ entry.replacements ∨ Edits rest path replacement := by
  simp [Edits]

theorem lists_append {first second : List (FileEntry ρ)} {path digest : String} :
    Lists (first ++ second) path digest ↔ Lists first path digest ∨ Lists second path digest := by
  simp [Lists, or_and_right, exists_or]

theorem edits_append {first second : List (FileEntry ρ)} {path : String}
    {replacement : Replacement ρ} :
    Edits (first ++ second) path replacement ↔
      Edits first path replacement ∨ Edits second path replacement := by
  simp [Edits, or_and_right, exists_or]

/-- Fewer entries ask for less. -/
theorem Mergeable.mono {entries other : List (FileEntry ρ)} (mergeable : Mergeable entries)
    (lists : ∀ path digest, Lists other path digest → Lists entries path digest)
    (edits : ∀ path replacement, Edits other path replacement →
      Edits entries path replacement) : Mergeable other where
  digests path first second here there :=
    mergeable.digests path first second (lists path first here) (lists path second there)
  starts path replacement here := mergeable.starts path replacement (edits path replacement here)
  apart path first second here there :=
    mergeable.apart path first second (edits path first here) (edits path second there)

theorem precedes_nodup {list : List (Replacement ρ)}
    (ordered : list.Pairwise Replacement.Precedes) : list.Nodup :=
  ordered.imp fun precedes equal => by
    subst equal
    exact absurd precedes.1 (lt_irrefl _)

theorem precedes_apart {list : List (Replacement ρ)}
    (ordered : list.Pairwise Replacement.Precedes) {first second : Replacement ρ}
    (here : first ∈ list) (there : second ∈ list) : first.Apart second := by
  have related : list.Pairwise Replacement.Apart := ordered.imp fun precedes => .inr (.inl precedes)
  have : Std.Symm (Replacement.Apart (ρ := ρ)) := ⟨fun left right apart => by
    rcases apart with same | before | behind
    · exact .inl same.symm
    · exact .inr (.inr before)
    · exact .inr (.inl behind)⟩
  exact related.forall_of_forall (fun _ _ => .inl rfl) here there

/-- Ordered lists of the same replacements are equal. -/
theorem precedes_unique {first second : List (Replacement ρ)}
    (ordered : first.Pairwise Replacement.Precedes) (also : second.Pairwise Replacement.Precedes)
    (same : ∀ replacement, replacement ∈ first ↔ replacement ∈ second) : first = second := by
  have perm := (List.perm_ext_iff_of_nodup (precedes_nodup ordered) (precedes_nodup also)).mpr same
  refine perm.eq_of_pairwise (fun before after _ _ here there => ?_) ordered also
  exact absurd (here.1.trans there.1) (lt_irrefl _)

theorem entry_unique {files : List (FileEntry ρ)} {first second : FileEntry ρ}
    (paths : (files.map FileEntry.path).Nodup) (here : first ∈ files) (there : second ∈ files)
    (same : first.path = second.path) : first = second :=
  List.inj_on_of_nodup_map paths here there same

theorem Canonical.unique {entries other files also : List (FileEntry ρ)}
    (canonical : Canonical entries files) (second : Canonical other also)
    (lists : ∀ path digest, Lists entries path digest ↔ Lists other path digest)
    (edits : ∀ path replacement, Edits entries path replacement ↔ Edits other path replacement) :
    files = also := by
  have nodup {list : List (FileEntry ρ)} (sorted : (list.map FileEntry.path).Pairwise (· < ·)) :
      (list.map FileEntry.path).Nodup := sorted.imp fun less => less.ne
  have listsSame (path digest : String) : Lists files path digest ↔ Lists also path digest := by
    rw [canonical.lists, second.lists, lists]
  have editsSame (path : String) (replacement : Replacement ρ) :
      Edits files path replacement ↔ Edits also path replacement := by
    rw [canonical.edits, second.edits, edits]
  -- An entry of one list is an entry of the other.
  have carried {left right : List (FileEntry ρ)}
      (leftPaths : (left.map FileEntry.path).Nodup) (rightPaths : (right.map FileEntry.path).Nodup)
      (leftOrdered : ∀ entry ∈ left, entry.replacements.Pairwise Replacement.Precedes)
      (rightOrdered : ∀ entry ∈ right, entry.replacements.Pairwise Replacement.Precedes)
      (sameLists : ∀ path digest, Lists left path digest ↔ Lists right path digest)
      (sameEdits : ∀ path replacement, Edits left path replacement ↔ Edits right path replacement)
      {entry : FileEntry ρ} (member : entry ∈ left) : entry ∈ right := by
    obtain ⟨twin, inside, path, digest⟩ :=
      (sameLists entry.path entry.sha256).mp ⟨entry, member, rfl, rfl⟩
    have replacements : twin.replacements = entry.replacements := by
      refine precedes_unique (rightOrdered twin inside) (leftOrdered entry member) ?_
      intro replacement
      constructor
      · intro here
        obtain ⟨source, found, samePath, held⟩ :=
          (sameEdits entry.path replacement).mpr ⟨twin, inside, path, here⟩
        rwa [entry_unique leftPaths found member samePath] at held
      · intro here
        obtain ⟨source, found, samePath, held⟩ :=
          (sameEdits entry.path replacement).mp ⟨entry, member, rfl, here⟩
        rwa [entry_unique rightPaths found inside (samePath.trans path.symm)] at held
    have equal : twin = entry := by
      cases twin
      cases entry
      simp_all
    exact equal ▸ inside
  have same (entry : FileEntry ρ) : entry ∈ files ↔ entry ∈ also :=
    ⟨carried (nodup canonical.paths) (nodup second.paths) canonical.ordered second.ordered
        listsSame editsSame,
      carried (nodup second.paths) (nodup canonical.paths) second.ordered canonical.ordered
        (fun path digest => (listsSame path digest).symm)
        (fun path replacement => (editsSame path replacement).symm)⟩
  have perm := (List.perm_ext_iff_of_nodup (List.Nodup.of_map _ (nodup canonical.paths))
    (List.Nodup.of_map _ (nodup second.paths))).mpr same
  refine perm.eq_of_pairwise (fun left right _ _ here there => ?_)
    (List.pairwise_map.mp canonical.paths) (List.pairwise_map.mp second.paths)
  exact absurd (here.trans there) (lt_irrefl _)

theorem gather_spec {targets after : List (FileEntry ρ)}
    (gathered : gather targets entry = .ok after) :
    (∀ path, path ∈ after.map FileEntry.path ↔
        path ∈ targets.map FileEntry.path ∨ path = entry.path) ∧
      ((targets.map FileEntry.path).Nodup → (after.map FileEntry.path).Nodup) ∧
      (∀ path digest, Lists after path digest ↔
        Lists targets path digest ∨ entry.path = path ∧ entry.sha256 = digest) ∧
      ∀ path replacement, Edits after path replacement ↔
        Edits targets path replacement ∨
          entry.path = path ∧ replacement ∈ entry.replacements := by
  induction targets generalizing after with
  | nil =>
      obtain rfl := Except.ok.inj gathered
      refine ⟨by simp, by simp, fun path digest => ?_, fun path replacement => ?_⟩
      · simp [Lists]
      · simp [Edits]
  | cons target others induction =>
      rw [gather] at gathered
      split_ifs at gathered with same digest
      · obtain rfl := Except.ok.inj gathered
        rw [not_not] at digest
        refine ⟨fun path => ?_, fun nodup => nodup, fun path other => ?_,
          fun path replacement => ?_⟩
        · simp only [List.map_cons, List.mem_cons, same]
          tauto
        · simp only [lists_cons, same, digest]
          tauto
        · simp only [edits_cons, List.mem_append, same]
          tauto
      · obtain ⟨inner, gatheredInner, rfl⟩ : ∃ inner, gather others entry = .ok inner ∧
            target :: inner = after := by
          cases result : gather others entry with
          | error problem =>
              rw [result] at gathered
              cases gathered
          | ok inner =>
              rw [result] at gathered
              exact ⟨inner, rfl, Except.ok.inj gathered⟩
        obtain ⟨paths, nodup, lists, edits⟩ := induction gatheredInner
        refine ⟨fun path => ?_, fun distinct => ?_, fun path digest => ?_,
          fun path replacement => ?_⟩
        · simp only [List.map_cons, List.mem_cons, paths]
          tauto
        · rw [List.map_cons, List.nodup_cons] at distinct ⊢
          refine ⟨?_, nodup distinct.2⟩
          rw [paths, not_or]
          exact ⟨distinct.1, same⟩
        · simp only [lists_cons, lists]
          tauto
        · simp only [edits_cons, edits]
          tauto

/-- An entry that agrees with the targets joins them. -/
theorem gather_ok (targets : List (FileEntry ρ)) (entry : FileEntry ρ)
    (agrees : ∀ digest, Lists targets entry.path digest → digest = entry.sha256) :
    ∃ after, gather targets entry = .ok after := by
  induction targets with
  | nil => exact ⟨_, rfl⟩
  | cons target others induction =>
      rw [gather]
      split_ifs with same digest
      · exact absurd (agrees target.sha256 (lists_cons.mpr (.inl ⟨same, rfl⟩))) digest
      · exact ⟨_, rfl⟩
      · obtain ⟨inner, gathered⟩ := induction fun digest listed =>
          agrees digest (lists_cons.mpr (.inr listed))
        exact ⟨target :: inner, by rw [gathered]; rfl⟩

/-- The targets hold what the entries hold. -/
structure Gathers (entries targets : List (FileEntry ρ)) : Prop where
  nodup : (targets.map FileEntry.path).Nodup
  lists : ∀ path digest, Lists targets path digest ↔ Lists entries path digest
  edits : ∀ path replacement, Edits targets path replacement ↔ Edits entries path replacement

theorem Gathers.digests {entries targets : List (FileEntry ρ)} (gathers : Gathers entries targets)
    {path first second : String} (here : Lists entries path first)
    (there : Lists entries path second) : first = second := by
  obtain ⟨one, member, samePath, rfl⟩ := (gathers.lists path first).mpr here
  obtain ⟨two, also, otherPath, rfl⟩ := (gathers.lists path second).mpr there
  rw [entry_unique gathers.nodup member also (samePath.trans otherPath.symm)]

theorem Gathers.gather {entries targets after : List (FileEntry ρ)}
    (gathers : Gathers entries targets) (gathered : gather targets entry = .ok after) :
    Gathers (entries ++ [entry]) after := by
  obtain ⟨_, nodup, lists, edits⟩ := gather_spec gathered
  refine ⟨nodup gathers.nodup, fun path digest => ?_, fun path replacement => ?_⟩
  · rw [lists, gathers.lists, lists_append]
    simp [Lists]
  · rw [edits, gathers.edits, edits_append]
    simp [Edits]

/-- The first loop of `merge` ends when the digests agree. -/
theorem gatherAll_iff {entries targets : List (FileEntry ρ)} (rest : List (FileEntry ρ))
    (gathers : Gathers entries targets) :
    (∀ after, gatherAll targets rest = .ok after → Gathers (entries ++ rest) after) ∧
      ((∀ path first second, Lists (entries ++ rest) path first →
        Lists (entries ++ rest) path second → first = second) →
          ∃ after, gatherAll targets rest = .ok after) := by
  induction rest generalizing entries targets with
  | nil =>
      rw [List.append_nil]
      refine ⟨fun after gathered => ?_, fun _ => ⟨targets, rfl⟩⟩
      exact Except.ok.inj gathered ▸ gathers
  | cons entry rest induction =>
      have shape : entries ++ entry :: rest = entries ++ [entry] ++ rest := by simp
      rw [shape]
      cases result : gather targets entry with
      | error problem =>
          simp only [gatherAll, result]
          refine ⟨nofun, fun agree => ?_⟩
          obtain ⟨after, gathered⟩ := gather_ok targets entry
            fun digest listed => by
              refine agree entry.path digest entry.sha256 ?_ ?_
              · exact lists_append.mpr (.inl (lists_append.mpr
                  (.inl ((gathers.lists _ _).mp listed))))
              · exact lists_append.mpr (.inl (lists_append.mpr (.inr ⟨entry, by simp⟩)))
          rw [result] at gathered
          cases gathered
      | ok next =>
          simp only [gatherAll, result]
          exact induction (gathers.gather result)

/-- The overlap check of a sorted list accepts the lists whose replacements precede each other. -/
theorem separate_iff (path : String) (previousStart previousEnd : ℤ)
    {replacements : List (Replacement ρ)}
    (sorted : replacements.Pairwise fun first second => first.offset ≤ second.offset)
    (later : ∀ replacement ∈ replacements, previousEnd ≤ replacement.offset →
      previousStart ≤ replacement.offset) :
    separate path previousStart previousEnd replacements = .ok () ↔
      (∀ replacement ∈ replacements, previousEnd ≤ replacement.offset ∧
        previousStart < replacement.offset) ∧
      replacements.Pairwise Replacement.Precedes := by
  induction replacements generalizing previousStart previousEnd with
  | nil => simp [separate]
  | cons replacement rest induction =>
      obtain ⟨below, sortedRest⟩ := List.pairwise_cons.mp sorted
      have next := induction replacement.offset
        (max previousEnd (replacement.offset + replacement.length)) sortedRest
        fun other member _ => below other member
      rw [separate]
      split_ifs with overlaps
      · refine ⟨nofun, fun accepted => ?_⟩
        have first := accepted.1 replacement (List.mem_cons_self ..)
        omega
      · rw [next, List.pairwise_cons]
        rw [not_or, not_lt] at overlaps
        have start := later replacement (List.mem_cons_self ..) overlaps.1
        constructor
        · rintro ⟨accepted, ordered⟩
          refine ⟨?_, fun other member => ?_, ordered⟩
          · rintro other (_ | ⟨_, member⟩)
            · omega
            · have behind := accepted other member
              omega
          · have behind := accepted other member
            exact ⟨behind.2, by omega⟩
        · rintro ⟨accepted, precedes, ordered⟩
          refine ⟨fun other member => ?_, ordered⟩
          have behind := precedes other member
          have first := accepted replacement (List.mem_cons_self ..)
          exact ⟨by unfold Replacement.Precedes at behind; omega, behind.1⟩

theorem before_total (first second : Replacement ρ) :
    first.before second ∨ second.before first := by
  have rules := le_total (first.ruleId.getD "") (second.ruleId.getD "")
  unfold Replacement.before
  rcases lt_trichotomy first.offset second.offset with less | same | more
  · exact .inl (.inl less)
  · rcases lt_trichotomy first.length second.length with shorter | equal | longer
    · exact .inl (.inr ⟨same, .inl shorter⟩)
    · rcases rules with below | above
      · exact .inl (.inr ⟨same, .inr ⟨equal, below⟩⟩)
      · exact .inr (.inr ⟨same.symm, .inr ⟨equal.symm, above⟩⟩)
    · exact .inr (.inr ⟨same.symm, .inl longer⟩)
  · exact .inr (.inl more)

theorem before_trans {first second third : Replacement ρ} (here : first.before second)
    (there : second.before third) : first.before third := by
  unfold Replacement.before at *
  rcases here with less | ⟨same, here⟩
  · rcases there with also | ⟨equal, _⟩
    · exact .inl (less.trans also)
    · exact .inl (equal ▸ less)
  · rcases there with also | ⟨equal, there⟩
    · exact .inl (same ▸ also)
    · refine .inr ⟨same.trans equal, ?_⟩
      rcases here with shorter | ⟨sameLength, rules⟩
      · rcases there with also | ⟨equalLength, _⟩
        · exact .inl (shorter.trans also)
        · exact .inl (equalLength ▸ shorter)
      · rcases there with also | ⟨equalLength, others⟩
        · exact .inl (sameLength ▸ also)
        · exact .inr ⟨sameLength.trans equalLength, rules.trans others⟩

theorem before_offset {first second : Replacement ρ} (before : first.before second) :
    first.offset ≤ second.offset := before.elim le_of_lt fun same => same.1.le

theorem sort_before (replacements : List (Replacement ρ)) :
    (replacements.insertionSort Replacement.before).Pairwise Replacement.before :=
  haveI : Std.Total (Replacement.before (ρ := ρ)) := ⟨before_total⟩
  haveI : IsTrans (Replacement ρ) Replacement.before := ⟨fun _ _ _ => before_trans⟩
  List.pairwise_insertionSort _ _

/-- The overlap check of the sorted replacements. -/
theorem separate_sort_iff {path : String} {unique : List (Replacement ρ)} :
    separate path (-1) (-1) (unique.insertionSort Replacement.before) = .ok () ↔
      (∀ replacement ∈ unique, 0 ≤ replacement.offset) ∧
        (unique.insertionSort Replacement.before).Pairwise Replacement.Precedes := by
  rw [separate_iff _ _ _ ((sort_before unique).imp before_offset) fun _ _ first => first]
  simp only [List.mem_insertionSort]
  refine and_congr_left fun _ => forall₂_congr fun replacement member => ?_
  omega

section Merge

variable [DecidableEq ρ]

/-- The loop over `unique` collapses exact duplicates and rejects other replacements of a range. -/
theorem collapse_iff (path : String) (unique rest : List (Replacement ρ))
    (keys : (unique.map Replacement.key).Nodup) :
    (∀ after, collapse path unique rest = .ok after →
        (after.map Replacement.key).Nodup ∧
          ∀ replacement, replacement ∈ after ↔ replacement ∈ unique ∨ replacement ∈ rest) ∧
      ((∀ first ∈ unique ++ rest, ∀ second ∈ unique ++ rest, first.key = second.key →
        first = second) → ∃ after, collapse path unique rest = .ok after) := by
  induction rest generalizing unique with
  | nil =>
      refine ⟨fun after collapsed => ?_, fun _ => ⟨unique, rfl⟩⟩
      obtain rfl := Except.ok.inj collapsed
      exact ⟨keys, by simp⟩
  | cons replacement rest induction =>
      cases found : unique.find? fun previous => previous.key = replacement.key with
      | some previous =>
          have member := List.mem_of_find?_eq_some found
          have sameKey : previous.key = replacement.key := by simpa using List.find?_some found
          simp only [collapse, found]
          by_cases same : previous = replacement
          · subst same
            rw [if_neg (not_not.mpr rfl)]
            obtain ⟨spec, ok⟩ := induction _ keys
            refine ⟨fun after collapsed => ?_, fun injective => ok fun first here second there =>
              injective first ?_ second ?_⟩
            · obtain ⟨distinct, members⟩ := spec after collapsed
              refine ⟨distinct, fun other => ?_⟩
              rw [members, List.mem_cons]
              constructor
              · tauto
              · rintro (old | rfl | new)
                · exact .inl old
                · exact .inl member
                · exact .inr new
            · simp only [List.mem_append, List.mem_cons] at here ⊢
              tauto
            · simp only [List.mem_append, List.mem_cons] at there ⊢
              tauto
          · rw [if_pos same]
            refine ⟨nofun, fun injective => absurd ?_ same⟩
            exact injective previous (by simp [member]) replacement (by simp) sameKey
      | none =>
          simp only [collapse, found]
          have fresh : replacement.key ∉ unique.map Replacement.key := by
            rw [List.mem_map]
            rintro ⟨previous, member, same⟩
            have missing := List.find?_eq_none.mp found previous member
            simp [same] at missing
          have distinct : ((unique ++ [replacement]).map Replacement.key).Nodup := by
            rw [List.map_append, List.map_singleton]
            exact List.Nodup.append keys (List.nodup_singleton _)
              (List.disjoint_singleton.mpr fresh)
          obtain ⟨spec, ok⟩ := induction _ distinct
          refine ⟨fun after collapsed => ?_, fun injective => ok fun first here second there =>
            injective first ?_ second ?_⟩
          · obtain ⟨nodup, members⟩ := spec after collapsed
            refine ⟨nodup, fun other => ?_⟩
            rw [members, List.mem_append, List.mem_singleton, List.mem_cons]
            tauto
          · simpa using here
          · simpa using there

/-- The body of the second loop sorts the replacements of a file. -/
theorem mergeFile_spec {entry merged : FileEntry ρ} (done : mergeFile entry = .ok merged) :
    merged.path = entry.path ∧ merged.sha256 = entry.sha256 ∧
      (∀ replacement, replacement ∈ merged.replacements ↔ replacement ∈ entry.replacements) ∧
      merged.replacements.Pairwise Replacement.Precedes ∧
      ∀ replacement ∈ merged.replacements, 0 ≤ replacement.offset := by
  unfold mergeFile at done
  cases collapsed : collapse entry.path [] entry.replacements with
  | error problem =>
      rw [collapsed] at done
      cases done
  | ok unique =>
      rw [collapsed] at done
      change (separate entry.path (-1) (-1) (unique.insertionSort Replacement.before) >>= fun _ =>
        Except.ok { entry with replacements := unique.insertionSort Replacement.before }) =
          .ok merged at done
      cases separated : separate entry.path (-1) (-1)
          (unique.insertionSort Replacement.before) with
      | error problem =>
          rw [separated] at done
          cases done
      | ok _ =>
          rw [separated] at done
          obtain rfl := Except.ok.inj done
          obtain ⟨_, members⟩ := (collapse_iff _ _ _ (by simp)).1 unique collapsed
          obtain ⟨starts, ordered⟩ := separate_sort_iff.mp separated
          refine ⟨rfl, rfl, fun replacement => ?_, ordered, fun replacement member => ?_⟩
          · simp [members]
          · exact starts replacement ((List.mem_insertionSort _).mp member)

omit [DecidableEq ρ] in
theorem forall₂_left {relation : FileEntry ρ → FileEntry ρ → Prop} {left right : List (FileEntry ρ)}
    (pairs : List.Forall₂ relation left right) (member : entry ∈ left) :
    ∃ other ∈ right, relation entry other := by
  induction pairs with
  | nil => cases member
  | cons related _ induction =>
      rcases List.mem_cons.mp member with rfl | later
      · exact ⟨_, List.mem_cons_self .., related⟩
      · obtain ⟨other, inside, holds⟩ := induction later
        exact ⟨other, List.mem_cons_of_mem _ inside, holds⟩

omit [DecidableEq ρ] in
theorem forall₂_right {relation : FileEntry ρ → FileEntry ρ → Prop}
    {left right : List (FileEntry ρ)} (pairs : List.Forall₂ relation left right)
    (member : entry ∈ right) : ∃ other ∈ left, relation other entry :=
  forall₂_left pairs.flip member

theorem mergeFiles_spec {targets files : List (FileEntry ρ)}
    (done : mergeFiles targets = .ok files) :
    List.Forall₂ (fun target file => mergeFile target = .ok file) targets files := by
  induction targets generalizing files with
  | nil =>
      obtain rfl := Except.ok.inj done
      exact .nil
  | cons target rest induction =>
      rw [mergeFiles] at done
      cases first : mergeFile target with
      | error problem =>
          rw [first] at done
          cases done
      | ok merged =>
          rw [first] at done
          cases later : mergeFiles rest with
          | error problem =>
              rw [later] at done
              cases done
          | ok others =>
              rw [later] at done
              obtain rfl := Except.ok.inj done
              exact .cons first (induction later)

theorem mergeFiles_canonical {entries targets files : List (FileEntry ρ)}
    (gathers : Gathers entries targets)
    (done : mergeFiles (targets.insertionSort fun first second => first.path ≤ second.path) =
      .ok files) : Canonical entries files := by
  have pairs := mergeFiles_spec done
  have sorted : ((targets.insertionSort fun first second => first.path ≤ second.path).map
      FileEntry.path).Pairwise (· < ·) := by
    have ordered : (targets.insertionSort fun first second => first.path ≤ second.path).Pairwise
        fun first second => first.path ≤ second.path :=
      haveI : Std.Total fun first second : FileEntry ρ => first.path ≤ second.path :=
        ⟨fun first second => le_total first.path second.path⟩
      haveI : IsTrans (FileEntry ρ) fun first second => first.path ≤ second.path :=
        ⟨fun _ _ _ => le_trans⟩
      List.pairwise_insertionSort _ _
    have distinct : ((targets.insertionSort fun first second => first.path ≤ second.path).map
        FileEntry.path).Nodup :=
      ((List.perm_insertionSort _ targets).map FileEntry.path).nodup_iff.mpr gathers.nodup
    rw [List.pairwise_map]
    exact ((ordered.and (List.pairwise_map.mp distinct))).imp fun both => lt_of_le_of_ne both.1 both.2
  have kept : ∀ target, target ∈ targets.insertionSort (fun first second =>
      first.path ≤ second.path) ↔ target ∈ targets := fun target => List.mem_insertionSort _
  generalize (targets.insertionSort fun first second => first.path ≤ second.path) = order
    at pairs sorted kept
  have paths : files.map FileEntry.path = order.map FileEntry.path := by
    clear sorted kept done
    induction pairs with
    | nil => rfl
    | cons merged _ induction =>
        rw [List.map_cons, List.map_cons, induction, (mergeFile_spec merged).1]
  have forward {target : FileEntry ρ} (member : target ∈ targets) :
      ∃ file ∈ files, mergeFile target = .ok file := by
    exact forall₂_left pairs ((kept target).mpr member)
  have backward {file : FileEntry ρ} (member : file ∈ files) :
      ∃ target ∈ targets, mergeFile target = .ok file := by
    obtain ⟨target, inside, merged⟩ := forall₂_right pairs member
    exact ⟨target, (kept target).mp inside, merged⟩
  refine
    { paths := paths ▸ sorted, lists := fun path digest => ?_, edits := fun path replacement => ?_
      ordered := fun entry member => ?_, starts := fun entry member => ?_ }
  · rw [← gathers.lists]
    constructor
    · rintro ⟨file, member, rfl, rfl⟩
      obtain ⟨target, inside, merged⟩ := backward member
      obtain ⟨samePath, sameDigest, _⟩ := mergeFile_spec merged
      exact ⟨target, inside, samePath.symm, sameDigest.symm⟩
    · rintro ⟨target, member, rfl, rfl⟩
      obtain ⟨file, inside, merged⟩ := forward member
      obtain ⟨samePath, sameDigest, _⟩ := mergeFile_spec merged
      exact ⟨file, inside, samePath, sameDigest⟩
  · rw [← gathers.edits]
    constructor
    · rintro ⟨file, member, rfl, held⟩
      obtain ⟨target, inside, merged⟩ := backward member
      obtain ⟨samePath, _, members, _⟩ := mergeFile_spec merged
      exact ⟨target, inside, samePath.symm, (members replacement).mp held⟩
    · rintro ⟨target, member, rfl, held⟩
      obtain ⟨file, inside, merged⟩ := forward member
      obtain ⟨samePath, _, members, _⟩ := mergeFile_spec merged
      exact ⟨file, inside, samePath, (members replacement).mpr held⟩
  · obtain ⟨target, _, merged⟩ := backward member
    exact (mergeFile_spec merged).2.2.2.1
  · obtain ⟨target, _, merged⟩ := backward member
    exact (mergeFile_spec merged).2.2.2.2

/-- The entries of some plans. -/
def entriesOf (plans : List (Plan ρ)) : List (FileEntry ρ) := plans.flatMap Plan.files

omit [DecidableEq ρ] in
theorem gathers_nil : Gathers ([] : List (FileEntry ρ)) [] :=
  ⟨List.nodup_nil, fun _ _ => Iff.rfl, fun _ _ => Iff.rfl⟩

/-- What `merge` returns is the file list of the entries. -/
theorem merge_canonical {plans : List (Plan ρ)} {merged : Merged ρ}
    (done : merge plans = .ok merged) : Canonical (entriesOf plans) merged.files := by
  unfold merge at done
  split at done
  · cases done
  · split at done
    · cases done
    · rename_i targets gathered
      have gathers := (gatherAll_iff _ gathers_nil).1 targets gathered
      rw [List.nil_append] at gathers
      cases files : mergeFiles (targets.insertionSort fun first second =>
          first.path ≤ second.path) with
      | error problem =>
          rw [files] at done
          cases done
      | ok list =>
          rw [files] at done
          obtain rfl := Except.ok.inj done
          exact mergeFiles_canonical gathers files

omit [DecidableEq ρ] in
theorem Canonical.mergeable {entries files : List (FileEntry ρ)}
    (canonical : Canonical entries files) : Mergeable entries := by
  have distinct : (files.map FileEntry.path).Nodup := canonical.paths.imp fun less => less.ne
  refine ⟨fun path first second here there => ?_, fun path replacement here => ?_,
    fun path first second here there => ?_⟩
  · obtain ⟨one, member, samePath, rfl⟩ := (canonical.lists path first).mpr here
    obtain ⟨two, also, otherPath, rfl⟩ := (canonical.lists path second).mpr there
    rw [entry_unique distinct member also (samePath.trans otherPath.symm)]
  · obtain ⟨file, member, _, held⟩ := (canonical.edits path replacement).mpr here
    exact canonical.starts file member replacement held
  · obtain ⟨one, member, samePath, held⟩ := (canonical.edits path first).mpr here
    obtain ⟨two, also, otherPath, other⟩ := (canonical.edits path second).mpr there
    rw [← entry_unique distinct member also (samePath.trans otherPath.symm)] at other
    exact precedes_apart (canonical.ordered one member) held other

end Merge

/-! ## Applying a file entry -/

section Apply

variable {source : List UInt8}

def Replacement.edit (replacement : Replacement ρ) : Edit UInt8 :=
  { start := replacement.offset.toNat
    stop := (replacement.offset + replacement.length).toNat
    text := utf8 replacement.replacement }

/-- The range of the replacement lies in the source and spells the original. -/
def Replacement.Matches (source : List UInt8) (replacement : Replacement ρ) : Prop :=
  replacement.offset + replacement.length ≤ source.length ∧
    slice source replacement.offset (replacement.offset + replacement.length) =
      utf8 replacement.original

/-- A replacement that the loop reaches. -/
structure Replacement.Fits (source : List UInt8) (replacement : Replacement ρ) : Prop where
  positive : 0 ≤ replacement.offset
  ordered : 0 ≤ replacement.length
  spelled : replacement.Matches source

variable {replacements : List (Replacement ρ)}

end Apply

/-! ## The composition of plans -/

section Composition

variable [DecidableEq ρ]

/-- A plan of the second stage: one of the first stage, or what some of them were merged to. -/
def Stage (group : List (Plan ρ)) (plan : Plan ρ) : Prop :=
  group = [plan] ∨ ∃ merged, merge group = .ok merged ∧ plan.files = merged.files

theorem Stage.holds {group : List (Plan ρ)} {plan : Plan ρ} (stage : Stage group plan) :
    (∀ path digest, Lists plan.files path digest ↔ Lists (entriesOf group) path digest) ∧
      ∀ path replacement, Edits plan.files path replacement ↔
        Edits (entriesOf group) path replacement := by
  rcases stage with rfl | ⟨merged, done, same⟩
  · simp [entriesOf]
  · rw [same]
    exact ⟨(merge_canonical done).lists, (merge_canonical done).edits⟩

/-- A replaced name. -/
def shortened : Replacement Unit :=
  { offset := 1, length := 2, original := "xy", replacement := "z", ruleId := none, rest := () }

end Composition

end Postgamma.Build
