import Postgamma.Library.ParentTree
import Postgamma.Storage.Namespace

/-!
# The namespace is a tree

Whatever changes, restores and replays have built it, the node map is a tree below the root
directory with unique sibling names and identities below the next one. `Applied` says once what
an accepted change does; the tree is preserved by each of its cases and established by `restore`
on arbitrary nodes.
-/

namespace Postgamma
namespace Storage

open Text Json ParentTree

namespace Namespace

/-- The effect of an accepted change with its name, and every condition that `apply` has
checked. -/
inductive Applied (ns : Namespace) : Utf16 → Namespace → Prop where
  | create (node directory : Node) (found : ns.node? node.parent = some directory)
      (isDirectory : directory.kind = 2) (valid : ValidName node.name)
      (fresh : ns.nextId ≤ node.id) (small : node.id < identityLimit)
      (kinds : node.kind = 1 ∨ node.kind = 2) (modes : node.mode ≤ 0o7777)
      (free : ns.lookup node.parent node.name = none) (room : ns.nodes.length < nodeLimit) :
      Applied ns node.name ((ns.insert node).setNextId (node.id + 1))
  | move (node directory : Node) (parent : Nat) (name : Utf16)
      (moved : ns.node? node.id = some node) (notRoot : node.id ≠ 1)
      (found : ns.node? parent = some directory) (isDirectory : directory.kind = 2)
      (valid : ValidName name) (free : ns.lookup parent name = none)
      (clear : ns.meets node.id (ns.nodes.length + 1) parent = some false) :
      Applied ns name ((ns.setParent node.id parent).setName node.id name)
  | replace (node directory replaced : Node) (parent : Nat) (name : Utf16)
      (moved : ns.node? node.id = some node) (notRoot : node.id ≠ 1)
      (found : ns.node? parent = some directory) (isDirectory : directory.kind = 2)
      (valid : ValidName name) (taken : ns.lookup parent name = some replaced)
      (other : replaced ≠ node) (sameKind : replaced.kind = node.kind)
      (empty : ¬ns.Occupied replaced)
      (clear : ns.meets node.id (ns.nodes.length + 1) parent = some false) :
      Applied ns name (((ns.delete replaced.id).setParent node.id parent).setName node.id name)
  | remove (directory replaced : Node) (parent : Nat) (name : Utf16)
      (found : ns.node? parent = some directory) (isDirectory : directory.kind = 2)
      (valid : ValidName name) (taken : ns.lookup parent name = some replaced)
      (empty : ¬ns.Occupied replaced) :
      Applied ns name (ns.delete replaced.id)

theorem mem_of_node? {ns : Namespace} {id : Nat} {node : Node} (found : ns.node? id = some node) :
    node ∈ ns.nodes ∧ node.id = id := by
  refine ⟨List.mem_of_find?_eq_some found, ?_⟩
  simpa using List.find?_some found

theorem mem_of_lookup {ns : Namespace} {parent : Nat} {name : Utf16} {node : Node}
    (found : ns.lookup parent name = some node) :
    node ∈ ns.nodes ∧ node.parent = parent ∧ node.name = name := by
  refine ⟨List.mem_of_find?_eq_some found, ?_⟩
  simpa using List.find?_some found

theorem property_yields (value : Option Value) (name : Utf16) (ns : Namespace) :
    Yields (property value name) ns
      (fun result after => result = value.bind (·.member name) ∧ after = ns)
      (fun _ after => after = ns) := by
  unfold property
  split
  · exact Yields.throw rfl
  · exact Yields.throw rfl
  · exact Yields.pure ⟨rfl, rfl⟩

/-- The object that carries the parent and the name of a change, when the change has one. -/
def subject (change : Value) : Option Value :=
  if stringOf (change.member (ascii "op")) = some (ascii "create") then
    change.member (ascii "node")
  else some change

def nameOf (change : Value) : Option Utf16 :=
  stringOf ((subject change).bind (·.member (ascii "name")))

theorem subjectOf_yields (change : Value) (ns : Namespace) :
    Yields (subjectOf change (stringOf (change.member (ascii "op")))) ns
      (fun result after => result = subject change ∧ after = ns) (fun _ after => after = ns) := by
  unfold subjectOf subject
  split
  · exact property_yields (some change) _ ns
  · exact Yields.pure ⟨rfl, rfl⟩

theorem applyCreate_yields (value : Option Value) {ns : Namespace} {parent : Nat} {name : Utf16}
    {directory : Node} (found : ns.node? parent = some directory)
    (isDirectory : directory.kind = 2) (valid : ValidName name) :
    Yields (applyCreate value parent name) ns (fun _ after => ns.Applied name after)
      (fun _ after => after = ns) := by
  unfold applyCreate
  apply Yields.get_bind
  refine Yields.bind (property_yields value _ _) ?_
  rintro id _ ⟨-, rfl⟩
  refine Yields.bind (property_yields value _ _) ?_
  rintro kind _ ⟨-, rfl⟩
  refine Yields.bind (property_yields value _ _) ?_
  rintro mode after ⟨-, rfl⟩
  split
  · rename_i id kind mode _ _ _
    by_cases refused : id < after.nextId ∨ identityLimit ≤ id ∨ ¬(kind = 1 ∨ kind = 2) ∨
        0o7777 < mode ∨ (after.lookup parent name).isSome ∨ nodeLimit ≤ after.nodes.length
    · simp only [if_pos refused]
      exact Yields.throw rfl
    · simp only [if_neg refused]
      simp only [not_or, not_le, not_lt] at refused
      obtain ⟨fresh, small, kinds, modes, free, room⟩ := refused
      have kinds : kind = 1 ∨ kind = 2 := by omega
      exact Applied.create { id, parent, name, kind, mode } directory found isDirectory valid fresh
        small kinds modes (by simpa using free) room
  · exact Yields.throw rfl

theorem applyMove_yields (change : Value) {ns : Namespace} {parent : Nat} {name : Utf16}
    {directory : Node} (found : ns.node? parent = some directory)
    (isDirectory : directory.kind = 2) (valid : ValidName name) :
    Yields (applyMove change parent name) ns (fun _ after => ns.Applied name after)
      (fun _ after => after = ns) := by
  unfold applyMove
  apply Yields.get_bind
  refine Yields.bind (property_yields (some change) _ _) ?_
  rintro id ns ⟨-, rfl⟩
  dsimp only
  split
  · exact Yields.throw rfl
  · rename_i node located
    have moved : ns.node? node.id = some node := by
      obtain ⟨key, -, keyed⟩ := Option.bind_eq_some_iff.mp located
      rw [(mem_of_node? keyed).2, keyed]
    by_cases refused : node.id = 1 ∨ ns.lookup parent name = some node
    · simp only [if_pos refused]
      exact Yields.throw rfl
    · simp only [if_neg refused]
      obtain ⟨notRoot, other⟩ := not_or.mp refused
      cases walk : ns.meets node.id (ns.nodes.length + 1) parent with
      | none => exact Yields.throw rfl
      | some met =>
          cases met with
          | true => exact Yields.throw rfl
          | false =>
              cases taken : ns.lookup parent name with
              | none =>
                  exact Applied.move node directory parent name moved notRoot found isDirectory
                    valid taken walk
              | some replaced =>
                  by_cases blocked : replaced.kind ≠ node.kind ∨ ns.Occupied replaced
                  · simp only [if_pos blocked]
                    exact Yields.throw rfl
                  · simp only [if_neg blocked]
                    obtain ⟨sameKind, empty⟩ := not_or.mp blocked
                    have distinct : replaced ≠ node := by
                      rintro rfl
                      exact other taken
                    exact Applied.replace node directory replaced parent name moved notRoot found
                      isDirectory valid taken distinct (not_not.mp sameKind) empty walk

theorem applyRemove_yields {ns : Namespace} {parent : Nat} {name : Utf16}
    {directory : Node} (found : ns.node? parent = some directory)
    (isDirectory : directory.kind = 2) (valid : ValidName name) :
    Yields (applyRemove parent name) ns (fun _ after => ns.Applied name after)
      (fun _ after => after = ns) := by
  unfold applyRemove
  apply Yields.get_bind
  cases taken : ns.lookup parent name with
  | none => exact Yields.throw rfl
  | some replaced =>
      by_cases blocked : ns.Occupied replaced
      · simp only [if_pos blocked]
        exact Yields.throw rfl
      · simp only [if_neg blocked]
        exact Applied.remove directory replaced parent name found isDirectory valid taken blocked

/-- An accepted change acts as `Applied` says, and a refused one leaves the namespace alone. -/
theorem apply_yields (change : Value) (ns : Namespace) :
    Yields (apply change) ns
      (fun _ after => ∃ name, nameOf change = some name ∧ ns.Applied name after)
      (fun _ after => after = ns) := by
  unfold apply
  apply Yields.get_bind
  refine Yields.bind (property_yields (some change) _ _) ?_
  rintro op _ ⟨opEq, rfl⟩
  obtain rfl : op = change.member (ascii "op") := opEq
  dsimp only
  refine Yields.bind (subjectOf_yields change _) ?_
  rintro subject _ ⟨rfl, rfl⟩
  refine Yields.bind (property_yields _ _ _) ?_
  rintro parent _ ⟨-, rfl⟩
  refine Yields.bind (property_yields _ _ _) ?_
  rintro named ns ⟨namedEq, rfl⟩
  split
  · rename_i parent name _ string
    have carried : nameOf change = some name := by rw [nameOf, ← namedEq, string]
    have named {program : Program Thrown Namespace Unit}
        (yields : Yields program ns (fun _ after => ns.Applied name after)
          (fun _ after => after = ns)) :
        Yields program ns (fun _ after => ∃ name, nameOf change = some name ∧
          ns.Applied name after) (fun _ after => after = ns) :=
      yields.weaken (fun _ _ applied => ⟨name, carried, applied⟩) (fun _ _ => id)
    split_ifs with refused create move remove
    · exact Yields.throw rfl
    all_goals obtain ⟨parentKind, valid⟩ := not_or.mp refused
    all_goals
      obtain ⟨directory, found, isDirectory⟩ := Option.map_eq_some_iff.mp (not_not.mp parentKind)
    · exact named (applyCreate_yields _ found isDirectory (not_not.mp valid))
    · exact named (applyMove_yields change found isDirectory (not_not.mp valid))
    · exact named (applyRemove_yields found isDirectory (not_not.mp valid))
    · exact Yields.throw rfl
  · exact Yields.throw rfl

theorem applied_of_apply {ns after : Namespace} {change : Value}
    (accepted : apply change ns = .ok () after) :
    ∃ name, nameOf change = some name ∧ ns.Applied name after :=
  (apply_yields change ns).of_ok accepted

theorem eq_of_apply_error {ns after : Namespace} {change : Value} {thrown : Thrown}
    (refused : apply change ns = .error thrown after) : after = ns :=
  (apply_yields change ns).of_error refused

/-- The node with identity `child` lies in the directory `parent`. -/
def Edge (ns : Namespace) (child parent : Nat) : Prop :=
  ∃ node ∈ ns.nodes, node.id ≠ 1 ∧ node.id = child ∧ node.parent = parent

/-- The node map is a tree of directories and files below the root. -/
structure Tree (ns : Namespace) : Prop where
  /-- Node one is the root directory. -/
  root : ∃ root ∈ ns.nodes, root.id = 1 ∧ root.parent = 0 ∧ root.name = [] ∧ root.kind = 2
  positive : ∀ node ∈ ns.nodes, 1 ≤ node.id
  /-- Identities are the keys of a map. -/
  nodup : (ns.nodes.map Node.id).Nodup
  /-- Every other node lies in a directory. -/
  parents : ∀ node ∈ ns.nodes, node.id ≠ 1 →
    ∃ parent ∈ ns.nodes, parent.id = node.parent ∧ parent.kind = 2
  /-- Following parents ends at the root. -/
  reaches : ∀ node ∈ ns.nodes, ∃ depth, Depth ns.Edge 1 depth node.id
  /-- Siblings have different names. -/
  siblings : ∀ first ∈ ns.nodes, ∀ second ∈ ns.nodes,
    first.parent = second.parent → first.name = second.name → first = second
  /-- Every other node has a valid name. -/
  names : ∀ node ∈ ns.nodes, node.id ≠ 1 → ValidName node.name
  /-- Nodes are files or directories. -/
  kinds : ∀ node ∈ ns.nodes, node.kind = 1 ∨ node.kind = 2
  /-- Permission bits are in range. -/
  modes : ∀ node ∈ ns.nodes, node.mode ≤ 0o7777
  /-- Identities are below the next one. -/
  below : ∀ node ∈ ns.nodes, node.id < ns.nextId
  /-- The next identity is in range. -/
  bound : ns.nextId ≤ identityLimit
  /-- The node count is in range. -/
  count : ns.nodes.length ≤ nodeLimit

theorem tree_initial : initial.Tree := by
  refine ⟨⟨rootNode, List.mem_cons_self, rfl, rfl, rfl, rfl⟩, ?_, by decide, ?_, ?_, ?_, ?_, ?_,
    ?_, ?_, by decide, by decide⟩ <;> simp [initial, rootNode]
  exact ⟨0, .root⟩

namespace Tree

variable {ns : Namespace}

theorem eq_of_id (tree : ns.Tree) {first second : Node} (left : first ∈ ns.nodes)
    (right : second ∈ ns.nodes) (same : first.id = second.id) : first = second :=
  List.inj_on_of_nodup_map tree.nodup left right same

theorem node?_of_mem (tree : ns.Tree) {node : Node} (member : node ∈ ns.nodes) :
    ns.node? node.id = some node := by
  cases found : ns.node? node.id with
  | none =>
      have absent := List.find?_eq_none.mp found node member
      simp at absent
  | some other =>
      obtain ⟨membership, same⟩ := mem_of_node? found
      rw [tree.eq_of_id membership member same]

theorem node?_zero (tree : ns.Tree) : ns.node? 0 = none := by
  apply List.find?_eq_none.mpr
  intro node member
  have positive := tree.positive node member
  simp
  omega

theorem node?_root (tree : ns.Tree) : ∃ root, ns.node? 1 = some root ∧ root.parent = 0 := by
  obtain ⟨root, member, id, parent, -⟩ := tree.root
  exact ⟨root, id ▸ tree.node?_of_mem member, parent⟩

theorem functional (tree : ns.Tree) : Functional ns.Edge 1 where
  unique := by
    rintro child first second ⟨left, leftMember, -, rfl, rfl⟩ ⟨right, rightMember, -, same, rfl⟩
    rw [tree.eq_of_id rightMember leftMember same]
  top := by
    rintro parent ⟨node, -, other, same, -⟩
    exact other same

theorem depth_lt (tree : ns.Tree) {depth id : Nat} (hangs : Depth ns.Edge 1 depth id) :
    depth < ns.nodes.length := by
  have rootMember : 1 ∈ ns.nodes.map Node.id := by
    obtain ⟨root, member, id, -⟩ := tree.root
    exact id ▸ List.mem_map_of_mem member
  have members : ∀ {child parent : Nat}, ns.Edge child parent → child ∈ ns.nodes.map Node.id := by
    rintro child parent ⟨node, member, -, rfl, -⟩
    exact List.mem_map_of_mem member
  simpa using Depth.lt_length tree.functional rootMember members hangs

/-- The ancestor walk ends, since a depth is below the number of nodes. -/
theorem meets_isSome (tree : ns.Tree) (target : Nat) {depth id : Nat}
    (hangs : Depth ns.Edge 1 depth id) {fuel : Nat} (enough : depth + 2 ≤ fuel) :
    (ns.meets target fuel id).isSome := by
  induction hangs generalizing fuel with
  | root =>
      obtain ⟨fuel, rfl⟩ := Nat.exists_eq_add_of_le' enough
      obtain ⟨root, found, parent⟩ := tree.node?_root
      simp only [meets, found, parent, tree.node?_zero]
      split <;> rfl
  | step up _ induction =>
      obtain ⟨node, member, -, rfl, rfl⟩ := up
      obtain ⟨fuel, rfl⟩ := Nat.exists_eq_add_of_le' (show 1 ≤ fuel by omega)
      simp only [meets, tree.node?_of_mem member]
      split
      · rfl
      · exact induction (by omega)

/-- A walk that never meets a node stays clear of it. -/
theorem depth_of_meets (tree : ns.Tree) {target fuel id depth : Nat}
    (clear : ns.meets target fuel id = some false) (hangs : Depth ns.Edge 1 depth id) :
    Depth (without ns.Edge target) 1 depth id := by
  induction hangs generalizing fuel with
  | root => exact .root
  | step up _ induction =>
      obtain ⟨node, member, other, rfl, rfl⟩ := up
      cases fuel with
      | zero => simp [meets] at clear
      | succ fuel =>
          simp only [meets, tree.node?_of_mem member] at clear
          split at clear
          · simp at clear
          · rename_i different
            exact .step ⟨⟨node, member, other, rfl, rfl⟩, different⟩ (induction clear)

/-- The conditions under which a node may be removed leave it without children. -/
theorem childless (tree : ns.Tree) {removed : Node} (member : removed ∈ ns.nodes)
    (empty : ¬ns.Occupied removed) {child : Nat} : ¬ns.Edge child removed.id := by
  rintro ⟨node, nodeMember, other, -, parent⟩
  obtain ⟨directory, directoryMember, same, isDirectory⟩ := tree.parents node nodeMember other
  have identical := tree.eq_of_id directoryMember member (same.trans parent)
  subst identical
  apply empty
  refine ⟨isDirectory, ?_⟩
  exact List.ne_nil_of_mem (List.mem_filter.mpr ⟨nodeMember, by simpa using parent⟩)

end Tree

/-! ## Each change preserves the tree -/

variable {ns : Namespace}

theorem edge_delete {removed child parent : Nat} :
    (ns.delete removed).Edge child parent ↔ without ns.Edge removed child parent := by
  constructor
  · rintro ⟨node, member, other, rfl, rfl⟩
    obtain ⟨member, kept⟩ := List.mem_filter.mp member
    exact ⟨⟨node, member, other, rfl, rfl⟩, by simpa using kept⟩
  · rintro ⟨⟨node, member, other, rfl, rfl⟩, kept⟩
    exact ⟨node, List.mem_filter.mpr ⟨member, by simpa using kept⟩, other, rfl, rfl⟩

theorem Tree.delete (tree : ns.Tree) {removed : Node}
    (member : removed ∈ ns.nodes) (notRoot : removed.id ≠ 1) (empty : ¬ns.Occupied removed) :
    (ns.delete removed.id).Tree := by
  have inside : ∀ {node : Node}, node ∈ (ns.delete removed.id).nodes ↔
      node ∈ ns.nodes ∧ node.id ≠ removed.id := by
    intro node
    simp [Namespace.delete]
  have childless : ∀ {child : Nat}, ¬ns.Edge child removed.id := tree.childless member empty
  refine ⟨?_, ?_, ?_, ?_, ?_, ?_, ?_, ?_, ?_, ?_, tree.bound, ?_⟩
  · obtain ⟨root, rootMember, id, rest⟩ := tree.root
    exact ⟨root, inside.mpr ⟨rootMember, fun same => notRoot (same ▸ id)⟩, id, rest⟩
  · exact fun node nodeMember => tree.positive node (inside.mp nodeMember).1
  · exact List.Nodup.sublist (List.filter_sublist.map Node.id) tree.nodup
  · intro node nodeMember other
    obtain ⟨nodeMember, kept⟩ := inside.mp nodeMember
    obtain ⟨parent, parentMember, id, isDirectory⟩ := tree.parents node nodeMember other
    refine ⟨parent, inside.mpr ⟨parentMember, ?_⟩, id, isDirectory⟩
    intro same
    exact childless ⟨node, nodeMember, other, rfl, id ▸ same⟩
  · intro node nodeMember
    obtain ⟨nodeMember, kept⟩ := inside.mp nodeMember
    obtain ⟨depth, hangs⟩ := tree.reaches node nodeMember
    exact ⟨depth, (hangs.remove childless kept).mono edge_delete.mpr⟩
  · intro first firstMember second secondMember
    exact tree.siblings first (inside.mp firstMember).1 second (inside.mp secondMember).1
  · exact fun node nodeMember => tree.names node (inside.mp nodeMember).1
  · exact fun node nodeMember => tree.kinds node (inside.mp nodeMember).1
  · exact fun node nodeMember => tree.modes node (inside.mp nodeMember).1
  · exact fun node nodeMember => tree.below node (inside.mp nodeMember).1
  · exact (List.length_filter_le _ _).trans tree.count

theorem Tree.insert (tree : ns.Tree) {node directory : Node}
    (found : ns.node? node.parent = some directory) (isDirectory : directory.kind = 2)
    (valid : ValidName node.name) (fresh : ns.nextId ≤ node.id) (small : node.id < identityLimit)
    (kinds : node.kind = 1 ∨ node.kind = 2) (modes : node.mode ≤ 0o7777)
    (free : ns.lookup node.parent node.name = none) (room : ns.nodes.length < nodeLimit) :
    ((ns.insert node).setNextId (node.id + 1)).Tree := by
  obtain ⟨directoryMember, directoryId⟩ := mem_of_node? found
  have inside : ∀ {other : Node}, other ∈ ((ns.insert node).setNextId (node.id + 1)).nodes ↔
      other ∈ ns.nodes ∨ other = node := by
    intro other
    simp [Namespace.insert, setNextId]
  have kept : ∀ {other : Node}, other ∈ ns.nodes →
      other ∈ ((ns.insert node).setNextId (node.id + 1)).nodes :=
    fun member => inside.mpr (.inl member)
  have edges : ∀ {child parent : Nat}, ns.Edge child parent →
      ((ns.insert node).setNextId (node.id + 1)).Edge child parent := by
    rintro child parent ⟨other, member, rest⟩
    exact ⟨other, kept member, rest⟩
  have directoryBelow := tree.below directory directoryMember
  have directoryPositive := tree.positive directory directoryMember
  have alone : ∀ other ∈ ns.nodes, other.parent = node.parent → other.name ≠ node.name := by
    intro other member parent name
    have absent := List.find?_eq_none.mp free other member
    simp [parent, name] at absent
  refine ⟨?_, ?_, ?_, ?_, ?_, ?_, ?_, ?_, ?_, ?_, small, ?_⟩
  · obtain ⟨root, member, rest⟩ := tree.root
    exact ⟨root, kept member, rest⟩
  · rintro other member
    rcases inside.mp member with member | rfl
    · exact tree.positive other member
    · omega
  · have outside : node.id ∉ ns.nodes.map Node.id := by
      intro member
      obtain ⟨other, member, same⟩ := List.mem_map.mp member
      have below := tree.below other member
      omega
    simp only [Namespace.insert, setNextId, List.map_append, List.map_cons, List.map_nil]
    refine List.nodup_append.mpr ⟨tree.nodup, List.nodup_singleton _, ?_⟩
    rintro id member other otherMember rfl
    rw [List.mem_singleton.mp otherMember] at member
    exact outside member
  · rintro other member notRoot
    rcases inside.mp member with member | rfl
    · obtain ⟨parent, parentMember, rest⟩ := tree.parents other member notRoot
      exact ⟨parent, kept parentMember, rest⟩
    · exact ⟨directory, kept directoryMember, directoryId, isDirectory⟩
  · rintro other member
    rcases inside.mp member with member | rfl
    · obtain ⟨depth, hangs⟩ := tree.reaches other member
      exact ⟨depth, hangs.mono edges⟩
    · obtain ⟨depth, hangs⟩ := tree.reaches directory directoryMember
      refine ⟨depth + 1, .step ⟨other, member, by omega, rfl, rfl⟩ ?_⟩
      exact directoryId ▸ hangs.mono edges
  · rintro first firstMember second secondMember sameParent sameName
    rcases inside.mp firstMember with left | left <;>
      rcases inside.mp secondMember with right | right
    · exact tree.siblings first left second right sameParent sameName
    · rw [right] at sameParent sameName
      exact (alone first left sameParent sameName).elim
    · rw [left] at sameParent sameName
      exact (alone second right sameParent.symm sameName.symm).elim
    · exact left.trans right.symm
  · rintro other member notRoot
    rcases inside.mp member with member | rfl
    · exact tree.names other member notRoot
    · exact valid
  · rintro other member
    rcases inside.mp member with member | rfl
    · exact tree.kinds other member
    · exact kinds
  · rintro other member
    rcases inside.mp member with member | rfl
    · exact tree.modes other member
    · exact modes
  · rintro other member
    rcases inside.mp member with member | rfl
    · have below := tree.below other member
      simp only [setNextId]
      omega
    · simp [setNextId]
  · simp only [Namespace.insert, setNextId, List.length_append, List.length_singleton]
    omega

/-- A node after the assignments of a move. -/
def moved (id parent : Nat) (name : Utf16) (node : Node) : Node :=
  if node.id = id then { node with parent, name } else node

theorem nodes_move (ns : Namespace) (id parent : Nat) (name : Utf16) :
    ((ns.setParent id parent).setName id name).nodes = ns.nodes.map (moved id parent name) := by
  simp only [setParent, setName, List.map_map]
  apply List.map_congr_left
  intro node _
  by_cases same : node.id = id <;> simp [moved, same]

@[simp]
theorem moved_id (id parent : Nat) (name : Utf16) (node : Node) :
    (moved id parent name node).id = node.id := by
  unfold moved
  split <;> rfl

@[simp]
theorem moved_kind (id parent : Nat) (name : Utf16) (node : Node) :
    (moved id parent name node).kind = node.kind := by
  unfold moved
  split <;> rfl

@[simp]
theorem moved_mode (id parent : Nat) (name : Utf16) (node : Node) :
    (moved id parent name node).mode = node.mode := by
  unfold moved
  split <;> rfl

theorem moved_self {id : Nat} {node : Node} (same : node.id = id) (parent : Nat) (name : Utf16) :
    moved id parent name node = { node with parent, name } := if_pos same

theorem moved_other {id : Nat} {node : Node} (different : node.id ≠ id) (parent : Nat)
    (name : Utf16) : moved id parent name node = node := if_neg different

theorem Tree.move (tree : ns.Tree) {node directory : Node} {parent : Nat}
    {name : Utf16} (member : node ∈ ns.nodes) (notRoot : node.id ≠ 1)
    (directoryMember : directory ∈ ns.nodes) (directoryId : directory.id = parent)
    (isDirectory : directory.kind = 2) (valid : ValidName name)
    (free : ∀ other ∈ ns.nodes, other.parent = parent → other.name ≠ name) {level : Nat}
    (independent : Depth (without ns.Edge node.id) 1 level parent) :
    ((ns.setParent node.id parent).setName node.id name).Tree := by
  have inside : ∀ {other : Node},
      other ∈ ((ns.setParent node.id parent).setName node.id name).nodes ↔
        ∃ old ∈ ns.nodes, moved node.id parent name old = other := by
    intro other
    rw [nodes_move, List.mem_map]
  have kept : ∀ {old : Node}, old ∈ ns.nodes →
      moved node.id parent name old ∈
        ((ns.setParent node.id parent).setName node.id name).nodes :=
    fun {old} oldMember => inside.mpr ⟨old, oldMember, rfl⟩
  have edges : ∀ {child target : Nat}, graft ns.Edge node.id parent child target →
      ((ns.setParent node.id parent).setName node.id name).Edge child target := by
    rintro child target (⟨rfl, rfl⟩ | ⟨⟨old, oldMember, other, rfl, rfl⟩, different⟩)
    · exact ⟨_, kept member, by simpa using notRoot, by simp, by rw [moved_self rfl]⟩
    · exact ⟨_, kept oldMember, by simpa using other, by simp, by rw [moved_other different]⟩
  refine ⟨?_, ?_, ?_, ?_, ?_, ?_, ?_, ?_, ?_, ?_, tree.bound, ?_⟩
  · obtain ⟨root, rootMember, id, rest⟩ := tree.root
    refine ⟨root, inside.mpr ⟨root, rootMember, ?_⟩, id, rest⟩
    exact moved_other (fun same => notRoot (same.symm.trans id)) parent name
  · rintro other otherMember
    obtain ⟨old, oldMember, rfl⟩ := inside.mp otherMember
    simpa using tree.positive old oldMember
  · rw [nodes_move, List.map_map]
    have ids : Node.id ∘ moved node.id parent name = Node.id := by
      funext old
      simp
    rw [ids]
    exact tree.nodup
  · rintro other otherMember otherNotRoot
    obtain ⟨old, oldMember, rfl⟩ := inside.mp otherMember
    by_cases same : old.id = node.id
    · refine ⟨_, kept directoryMember, ?_, by simpa using isDirectory⟩
      rw [moved_id, directoryId, moved_self same]
    · obtain ⟨above, aboveMember, id, aboveDirectory⟩ :=
        tree.parents old oldMember (by simpa using otherNotRoot)
      refine ⟨_, kept aboveMember, ?_, by simpa using aboveDirectory⟩
      rw [moved_id, id, moved_other same]
  · rintro other otherMember
    obtain ⟨old, oldMember, rfl⟩ := inside.mp otherMember
    obtain ⟨depth, hangs⟩ := tree.reaches old oldMember
    obtain ⟨depth, hangs⟩ := Depth.regraft independent hangs
    exact ⟨depth, by simpa using hangs.mono edges⟩
  · rintro first firstMember second secondMember sameParent sameName
    obtain ⟨left, leftMember, rfl⟩ := inside.mp firstMember
    obtain ⟨right, rightMember, rfl⟩ := inside.mp secondMember
    by_cases leftSame : left.id = node.id <;> by_cases rightSame : right.id = node.id
    · rw [tree.eq_of_id leftMember rightMember (leftSame.trans rightSame.symm)]
    · rw [moved_self leftSame, moved_other rightSame] at sameParent sameName
      exact (free right rightMember sameParent.symm sameName.symm).elim
    · rw [moved_other leftSame, moved_self rightSame] at sameParent sameName
      exact (free left leftMember sameParent sameName).elim
    · rw [moved_other leftSame, moved_other rightSame] at sameParent sameName
      rw [tree.siblings left leftMember right rightMember sameParent sameName]
  · rintro other otherMember otherNotRoot
    obtain ⟨old, oldMember, rfl⟩ := inside.mp otherMember
    by_cases same : old.id = node.id
    · rw [moved_self same]
      exact valid
    · rw [moved_other same]
      exact tree.names old oldMember (by simpa using otherNotRoot)
  · rintro other otherMember
    obtain ⟨old, oldMember, rfl⟩ := inside.mp otherMember
    simpa using tree.kinds old oldMember
  · rintro other otherMember
    obtain ⟨old, oldMember, rfl⟩ := inside.mp otherMember
    simpa using tree.modes old oldMember
  · rintro other otherMember
    obtain ⟨old, oldMember, rfl⟩ := inside.mp otherMember
    simpa [setParent, setName] using tree.below old oldMember
  · rw [nodes_move, List.length_map]
    exact tree.count

theorem ne_of_lookup_none {parent : Nat} {name : Utf16} (free : ns.lookup parent name = none) :
    ∀ other ∈ ns.nodes, other.parent = parent → other.name ≠ name := by
  intro other member sameParent sameName
  have absent := List.find?_eq_none.mp free other member
  simp [sameParent, sameName] at absent

/-- Only the root has a parent outside the tree, so a lookup in a directory never finds it. -/
theorem Tree.lookup_ne_root (tree : ns.Tree) {directory replaced : Node}
    {parent : Nat} {name : Utf16} (found : ns.node? parent = some directory)
    (taken : ns.lookup parent name = some replaced) : replaced.id ≠ 1 := by
  intro isRoot
  obtain ⟨root, rootMember, rootId, rootParent, -⟩ := tree.root
  obtain ⟨member, sameParent, -⟩ := mem_of_lookup taken
  have identical := tree.eq_of_id member rootMember (isRoot.trans rootId.symm)
  rw [identical, rootParent] at sameParent
  rw [← sameParent, tree.node?_zero] at found
  simp at found

theorem Tree.applied {ns after : Namespace} {name : Utf16} (tree : ns.Tree)
    (step : ns.Applied name after) : after.Tree := by
  cases step with
  | create node directory found isDirectory valid fresh small kinds modes free room =>
      exact tree.insert found isDirectory valid fresh small kinds modes free room
  | move node directory parent name moved notRoot found isDirectory valid free clear =>
      obtain ⟨directoryMember, directoryId⟩ := mem_of_node? found
      obtain ⟨depth, hangs⟩ := tree.reaches directory directoryMember
      exact tree.move (mem_of_node? moved).1 notRoot directoryMember directoryId isDirectory valid
        (ne_of_lookup_none free) (tree.depth_of_meets clear (directoryId ▸ hangs))
  | replace node directory replaced parent name moved notRoot found isDirectory valid taken other
      sameKind empty clear =>
      obtain ⟨directoryMember, directoryId⟩ := mem_of_node? found
      obtain ⟨replacedMember, replacedParent, replacedName⟩ := mem_of_lookup taken
      have replacedNotRoot := tree.lookup_ne_root found taken
      have childless : ∀ {child : Nat}, ¬ns.Edge child replaced.id :=
        tree.childless replacedMember empty
      have smaller := tree.delete replacedMember replacedNotRoot empty
      have inside : ∀ {node : Node}, node ∈ ns.nodes → node.id ≠ replaced.id →
          node ∈ (ns.delete replaced.id).nodes := by
        intro node member different
        simp [Namespace.delete, member, different]
      -- The replaced node lies in the directory, so it is not the directory.
      have directoryKept : directory.id ≠ replaced.id := by
        intro same
        have inner : ns.Edge replaced.id replaced.id := ⟨replaced, replacedMember,
          replacedNotRoot, rfl, replacedParent.trans (directoryId.symm.trans same)⟩
        exact childless inner
      have nodeKept : node.id ≠ replaced.id := by
        intro same
        exact other (tree.eq_of_id replacedMember (mem_of_node? moved).1 same.symm)
      obtain ⟨depth, hangs⟩ := tree.reaches directory directoryMember
      have independent := tree.depth_of_meets clear (directoryId ▸ hangs)
      have shrunk : Depth (without (ns.delete replaced.id).Edge node.id) 1 depth parent := by
        have removed := independent.remove (fun edge => childless edge.1)
          (directoryId ▸ directoryKept)
        exact removed.mono fun edge => ⟨edge_delete.mpr ⟨edge.1.1, edge.2⟩, edge.1.2⟩
      refine smaller.move (inside (mem_of_node? moved).1 nodeKept) notRoot
        (inside directoryMember directoryKept) directoryId isDirectory valid ?_ shrunk
      intro sibling siblingMember sameParent sameName
      obtain ⟨siblingMember, siblingKept⟩ := List.mem_filter.mp siblingMember
      have identical := tree.siblings sibling siblingMember replaced replacedMember
        (sameParent.trans replacedParent.symm) (sameName.trans replacedName.symm)
      simp [identical] at siblingKept
  | remove directory replaced parent name found isDirectory valid taken empty =>
      exact tree.delete (mem_of_lookup taken).1 (tree.lookup_ne_root found taken) empty

end Namespace

end Storage
end Postgamma
