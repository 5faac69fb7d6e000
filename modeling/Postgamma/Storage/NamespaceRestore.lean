import Postgamma.Storage.NamespaceTree

/-!
# Restoring a namespace checks the tree

`restore` accepts a list of nodes exactly when it is the node map of a tree. The first loop
compares each node with those before it, and the second one climbs from each node to one that is
known to reach the root. Neither loop runs out of the fuel that the model gives it.
-/

namespace Postgamma
namespace Storage

open Text Json ParentTree

namespace Namespace

theorem nameKey_injective {first second : Node} (same : nameKey first = nameKey second) :
    first.parent = second.parent ∧ first.name = second.name := by
  have taken (node : Node) :
      takeDigits (nameKey node) = (decimalDigits node.parent, 0x3A :: node.name) :=
    takeDigits_append (decimalDigits_lt node.parent) rfl
  have split := (taken first).symm.trans ((congrArg takeDigits same).trans (taken second))
  simp only [Prod.mk.injEq, List.cons.injEq, true_and] at split
  refine ⟨?_, split.2⟩
  rw [← digitsValue_decimalDigits first.parent, split.1, digitsValue_decimalDigits]

/-- The conditions of the first loop on a single node. -/
structure Admissible (nextId : Nat) (node : Node) : Prop where
  positive : 1 ≤ node.id
  /-- Identities are below the next one. -/
  below : node.id < nextId
  /-- Nodes are files or directories. -/
  kinds : node.kind = 1 ∨ node.kind = 2
  /-- Permission bits are in range. -/
  modes : node.mode ≤ 0o7777
  /-- Node one is the root directory. -/
  root : node.id = 1 → node.parent = 0 ∧ node.name = [] ∧ node.kind = 2
  /-- Every other node has a valid name. -/
  names : node.id ≠ 1 → ValidName node.name

/-- The conditions of the first loop on a node and one before it. -/
def Apart (first second : Node) : Prop :=
  first.id ≠ second.id ∧ ¬(first.parent = second.parent ∧ first.name = second.name)

theorem nameKey_ne_iff {first second : Node} :
    nameKey first ≠ nameKey second ↔
      ¬(first.parent = second.parent ∧ first.name = second.name) := by
  refine not_congr ⟨nameKey_injective, ?_⟩
  rintro ⟨parent, name⟩
  rw [nameKey, nameKey, parent, name]

theorem admitNode_eq_ok_iff {nextId : Nat} {before : List Node} {node : Node} :
    admitNode nextId before node = .ok () ↔
      Admissible nextId node ∧ ∀ other ∈ before, Apart other node := by
  have split : admitNode nextId before node = .ok () ↔
      ¬(node.id < 1 ∨ nextId ≤ node.id ∨ (∃ other ∈ before, other.id = node.id) ∨
        ¬(node.kind = 1 ∨ node.kind = 2) ∨ 0o7777 < node.mode) ∧
      (node.id = 1 → ¬(node.parent ≠ 0 ∨ node.name ≠ [] ∨ node.kind ≠ 2)) ∧
      (node.id ≠ 1 → ValidName node.name) ∧
      ¬∃ other ∈ before, nameKey other = nameKey node := by
    unfold admitNode
    split_ifs <;> simp_all [throw, throwThe, MonadExceptOf.throw, bind, Except.bind, pure,
      Except.pure]
  rw [split]
  constructor
  · rintro ⟨plain, root, names, keys⟩
    simp only [not_or, not_not, not_lt, not_le, not_exists, not_and] at plain root keys
    obtain ⟨positive, below, ids, kinds, modes⟩ := plain
    refine ⟨⟨positive, below, by omega, modes, root, names⟩, ?_⟩
    exact fun other member => ⟨ids other member, nameKey_ne_iff.mp (keys other member)⟩
  · rintro ⟨single, apart⟩
    refine ⟨?_, ?_, single.names, ?_⟩
    · rintro (bad | bad | ⟨other, member, same⟩ | bad | bad)
      · exact absurd single.positive (by omega)
      · exact absurd single.below (by omega)
      · exact (apart other member).1 same
      · exact bad single.kinds
      · exact absurd single.modes (by omega)
    · intro isRoot
      obtain ⟨parent, name, kind⟩ := single.root isRoot
      simp [parent, name, kind]
    · rintro ⟨other, member, same⟩
      exact nameKey_ne_iff.mpr (apart other member).2 same

theorem admitAll_eq_ok_iff {nextId : Nat} {before nodes : List Node} :
    admitAll nextId before nodes = .ok () ↔
      (∀ node ∈ nodes, Admissible nextId node) ∧
        (∀ other ∈ before, ∀ node ∈ nodes, Apart other node) ∧ nodes.Pairwise Apart := by
  induction nodes generalizing before with
  | nil => simp [admitAll]
  | cons node nodes induction =>
      have unfolded : admitAll nextId before (node :: nodes) = .ok () ↔
          admitNode nextId before node = .ok () ∧ admitAll nextId (before ++ [node]) nodes = .ok () := by
        rw [admitAll, except_bind_eq_ok]
        exact ⟨fun ⟨_, first, rest⟩ => ⟨first, rest⟩, fun ⟨first, rest⟩ => ⟨(), first, rest⟩⟩
      rw [unfolded, admitNode_eq_ok_iff, induction]
      simp only [List.mem_append, List.mem_singleton, List.forall_mem_cons, List.pairwise_cons]
      constructor
      · rintro ⟨⟨single, earlier⟩, rest, pairs, tail⟩
        exact ⟨⟨single, rest⟩, fun other member => ⟨earlier other member,
          pairs other (.inl member)⟩, pairs node (.inr rfl), tail⟩
      · rintro ⟨⟨single, rest⟩, pairs, heads, tail⟩
        refine ⟨⟨single, fun other member => (pairs other member).1⟩, rest, ?_, tail⟩
        rintro other (member | rfl)
        · exact (pairs other member).2
        · exact heads

/-- A parent edge of which the climb has seen that it leads to a directory. -/
def DirectoryEdge (ns : Namespace) (child parent : Nat) : Prop :=
  ns.Edge child parent ∧ ∃ directory, ns.node? parent = some directory ∧ directory.kind = 2

/-- The node with this identity reaches the root through directories. -/
def ReachesRoot (ns : Namespace) (id : Nat) : Prop :=
  ∃ depth, Depth ns.DirectoryEdge 1 depth id

variable {ns : Namespace}

variable {reached : List Nat}

theorem reachesRoot_of_climb
    (known : ∀ id ∈ reached, ns.ReachesRoot id) (root : 1 ∈ reached) {fuel : Nat}
    {path found : List Nat} {current : Node} (member : current ∈ ns.nodes)
    (climbed : ns.climb reached fuel path current = .ok found) :
    ns.ReachesRoot current.id ∧ ∀ id ∈ found, id ∈ path ∨ ns.ReachesRoot id := by
  induction fuel generalizing path current with
  | zero => simp [climb] at climbed
  | succ fuel induction =>
      rw [climb] at climbed
      split_ifs at climbed with arrived
      · cases climbed
        exact ⟨known current.id arrived, fun id => .inl⟩
      · split at climbed
        · simp at climbed
        · rename_i parent located
          split_ifs at climbed with kind
          obtain ⟨parentMember, parentId⟩ := mem_of_node? located
          obtain ⟨⟨depth, above⟩, collected⟩ := induction parentMember climbed
          -- Node one is known from the start, so the climb has not come from the root.
          have notRoot : current.id ≠ 1 := fun same => arrived (same ▸ root)
          have edge : ns.DirectoryEdge current.id parent.id :=
            ⟨⟨current, member, notRoot, rfl, parentId.symm⟩, parent, by rw [parentId, located],
              not_not.mp kind⟩
          refine ⟨⟨depth + 1, .step edge above⟩, ?_⟩
          intro id membership
          rcases collected id membership with inPath | reaches
          · rcases List.mem_cons.mp inPath with rfl | inPath
            · exact .inr ⟨depth + 1, .step edge above⟩
            · exact .inl inPath
          · exact .inr reaches

theorem reachesRoot_of_climbAll
    (known : ∀ id ∈ reached, ns.ReachesRoot id) (root : 1 ∈ reached) {nodes : List Node}
    (members : ∀ node ∈ nodes, node ∈ ns.nodes)
    (climbed : ns.climbAll reached nodes = .ok ()) :
    ∀ node ∈ nodes, ns.ReachesRoot node.id := by
  induction nodes generalizing reached with
  | nil => simp
  | cons node nodes induction =>
      rw [climbAll, except_bind_eq_ok] at climbed
      obtain ⟨found, first, rest⟩ := climbed
      rw [List.forall_mem_cons] at members
      obtain ⟨reaches, collected⟩ := reachesRoot_of_climb known root members.1 first
      refine List.forall_mem_cons.mpr ⟨reaches, induction ?_ ?_ members.2 rest⟩
      · intro id membership
        rcases List.mem_append.mp membership with inFound | inReached
        · exact (collected id inFound).resolve_left List.not_mem_nil
        · exact known id inReached
      · exact List.mem_append_right found root

/-- The path of a climb consists of different nodes, so that the climb ends. -/
theorem climb_ne_diverged {fuel : Nat} {path : List Nat}
    {current : Node} (member : current ∈ ns.nodes) (nodup : path.Nodup)
    (inside : path ⊆ ns.nodes.map Node.id) (enough : ns.nodes.length < fuel + path.length) :
    ns.climb reached fuel path current ≠ .error .diverged := by
  induction fuel generalizing path current with
  | zero =>
      have bound := (List.subperm_of_subset nodup inside).length_le
      rw [List.length_map] at bound
      omega
  | succ fuel induction =>
      rw [climb]
      split_ifs with arrived repeated
      · simp
      · simp [Thrown.error, Thrown.diverged]
      · split
        · simp [Thrown.error, Thrown.diverged]
        · rename_i parent located
          split_ifs
          · simp [Thrown.error, Thrown.diverged]
          · refine induction (mem_of_node? located).1 (List.nodup_cons.mpr ⟨repeated, nodup⟩)
              (List.cons_subset.mpr ⟨List.mem_map_of_mem member, inside⟩) ?_
            rw [List.length_cons]
            omega

theorem climbAll_ne_diverged {nodes : List Node} (members : ∀ node ∈ nodes, node ∈ ns.nodes) :
    ns.climbAll reached nodes ≠ .error .diverged := by
  induction nodes generalizing reached with
  | nil => simp [climbAll]
  | cons node nodes induction =>
      rw [List.forall_mem_cons] at members
      refine except_bind_ne_error ?_ fun path => induction members.2
      exact climb_ne_diverged members.1 List.nodup_nil (List.nil_subset _) (by simp)

/-- In a tree a climb arrives, since the nodes on its path are deeper than the current one. -/
theorem Tree.climb_isOk (tree : ns.Tree)
    (root : 1 ∈ reached) {depth fuel : Nat} {path : List Nat} {current : Node}
    (member : current ∈ ns.nodes) (hangs : Depth ns.Edge 1 depth current.id)
    (deeper : ∀ id ∈ path, ∃ level > depth, Depth ns.Edge 1 level id) (enough : depth < fuel) :
    ∃ found, ns.climb reached fuel path current = .ok found := by
  induction depth generalizing fuel path current with
  | zero =>
      obtain ⟨fuel, rfl⟩ := Nat.exists_eq_add_of_lt enough
      have isRoot : current.id = 1 := by
        generalize current.id = id at hangs
        cases hangs
        rfl
      exact ⟨path, by rw [climb, isRoot, if_pos root]⟩
  | succ depth induction =>
      obtain ⟨fuel, rfl⟩ := Nat.exists_eq_add_of_le' (show 1 ≤ fuel by omega)
      rw [climb]
      by_cases arrived : current.id ∈ reached
      · exact ⟨path, if_pos arrived⟩
      · have unseen : current.id ∉ path := by
          intro membership
          obtain ⟨level, lower, other⟩ := deeper current.id membership
          have same := Depth.unique tree.functional hangs other
          omega
        obtain ⟨parent, up, above⟩ : ∃ parent, ns.Edge current.id parent ∧
            Depth ns.Edge 1 depth parent := by
          cases hangs with
          | step up above => exact ⟨_, up, above⟩
        obtain ⟨node, nodeMember, notRoot, same, nodeParent⟩ := up
        obtain rfl := tree.eq_of_id nodeMember member same
        obtain ⟨directory, directoryMember, directoryId, isDirectory⟩ :=
          tree.parents node member notRoot
        have located : ns.node? node.parent = some directory :=
          directoryId ▸ tree.node?_of_mem directoryMember
        rw [if_neg arrived, if_neg unseen]
        simp only [located, if_neg (not_not.mpr isDirectory)]
        refine induction directoryMember (by rwa [directoryId, nodeParent]) ?_ (by omega)
        intro id membership
        rcases List.mem_cons.mp membership with rfl | membership
        · exact ⟨depth + 1, by omega, hangs⟩
        · obtain ⟨level, lower, other⟩ := deeper id membership
          exact ⟨level, by omega, other⟩

theorem Tree.climbAll_isOk (tree : ns.Tree)
    (root : 1 ∈ reached) {nodes : List Node} (members : ∀ node ∈ nodes, node ∈ ns.nodes) :
    ns.climbAll reached nodes = .ok () := by
  induction nodes generalizing reached with
  | nil => rfl
  | cons node nodes induction =>
      rw [List.forall_mem_cons] at members
      obtain ⟨depth, hangs⟩ := tree.reaches node members.1
      have short := tree.depth_lt hangs
      have unseen : ∀ id ∈ ([] : List Nat), ∃ level > depth, Depth ns.Edge 1 level id := by simp
      obtain ⟨found, climbed⟩ := tree.climb_isOk root members.1 hangs unseen
        (show depth < ns.nodes.length + 1 by omega)
      rw [climbAll, climbed]
      exact induction (List.mem_append_right found root) members.2

theorem tree_of_checks (count : ns.nodes.length ≤ nodeLimit)
    (bound : ns.nextId ≤ identityLimit) (single : ∀ node ∈ ns.nodes, Admissible ns.nextId node)
    (pairs : ns.nodes.Pairwise Apart) {root : Node} (rooted : ns.node? 1 = some root)
    (reaches : ∀ node ∈ ns.nodes, ns.ReachesRoot node.id) : ns.Tree := by
  obtain ⟨rootMember, rootId⟩ := mem_of_node? rooted
  have nodup : (ns.nodes.map Node.id).Nodup := List.pairwise_map.mpr (pairs.imp And.left)
  have separate : ∀ {first second : Node}, first ∈ ns.nodes → second ∈ ns.nodes →
      first ≠ second → Apart first second := by
    intro first second left right different
    have : Std.Symm Apart := ⟨fun first second apart =>
      ⟨apart.1.symm, fun same => apart.2 ⟨same.1.symm, same.2.symm⟩⟩⟩
    exact pairs.forall left right different
  refine ⟨⟨root, rootMember, rootId, (single root rootMember).root rootId⟩,
    fun node member => (single node member).positive, nodup, ?_, ?_, ?_,
    fun node member => (single node member).names, fun node member => (single node member).kinds,
    fun node member => (single node member).modes, fun node member => (single node member).below,
    bound, count⟩
  · intro node member notRoot
    obtain ⟨depth, hangs⟩ := reaches node member
    generalize place : node.id = id at hangs
    cases hangs with
    | root => exact (notRoot place).elim
    | step up _ =>
        obtain ⟨⟨other, otherMember, -, same, parent⟩, directory, located, isDirectory⟩ := up
        obtain ⟨directoryMember, directoryId⟩ := mem_of_node? located
        obtain rfl := List.inj_on_of_nodup_map nodup otherMember member (same.trans place.symm)
        exact ⟨directory, directoryMember, directoryId.trans parent.symm, isDirectory⟩
  · intro node member
    obtain ⟨depth, hangs⟩ := reaches node member
    exact ⟨depth, hangs.mono And.left⟩
  · intro first firstMember second secondMember sameParent sameName
    by_contra different
    exact (separate firstMember secondMember different).2 ⟨sameParent, sameName⟩

theorem Tree.admissible (tree : ns.Tree) {node : Node}
    (member : node ∈ ns.nodes) : Admissible ns.nextId node where
  positive := tree.positive node member
  below := tree.below node member
  kinds := tree.kinds node member
  modes := tree.modes node member
  root := by
    intro isRoot
    obtain ⟨root, rootMember, rootId, rest⟩ := tree.root
    rwa [tree.eq_of_id member rootMember (isRoot.trans rootId.symm)]
  names := tree.names node member

theorem Tree.pairwise_apart (tree : ns.Tree) : ns.nodes.Pairwise Apart := by
  have ids : ns.nodes.Pairwise fun first second => first.id ≠ second.id :=
    List.pairwise_map.mp tree.nodup
  refine ids.imp_of_mem ?_
  intro first second left right different
  refine ⟨different, ?_⟩
  rintro ⟨sameParent, sameName⟩
  exact different (congrArg Node.id (tree.siblings first left second right sameParent sameName))

/-- `restore` accepts the nodes of a tree and nothing else. -/
theorem restore_eq_ok_iff {nodes : List Node} {nextId : Nat} :
    restore nodes nextId = .ok ns ↔ ns = { nodes, sequence := 0, nextId } ∧ ns.Tree := by
  have split : restore nodes nextId = .ok ns ↔
      ¬(nodes = [] ∨ nodeLimit < nodes.length ∨ nextId < 2 ∨ identityLimit < nextId) ∧
      admitAll nextId [] nodes = .ok () ∧
      ¬(({ nodes, sequence := 0, nextId } : Namespace).node? 1).isNone ∧
      ({ nodes, sequence := 0, nextId } : Namespace).climbAll [1] nodes = .ok () ∧
      ns = { nodes, sequence := 0, nextId } := by
    simp only [restore, except_throw_bind, except_check_eq_ok, except_bind_eq_ok]
    constructor
    · rintro ⟨sizes, _, admitted, rooted, _, climbed, built⟩
      exact ⟨sizes, admitted, rooted, climbed, (Except.ok.inj built).symm⟩
    · rintro ⟨sizes, admitted, rooted, climbed, rfl⟩
      exact ⟨sizes, (), admitted, rooted, (), climbed, rfl⟩
  rw [split]
  constructor
  · rintro ⟨sizes, admitted, rooted, climbed, rfl⟩
    refine ⟨rfl, ?_⟩
    simp only [not_or, not_lt] at sizes
    obtain ⟨single, -, pairs⟩ := admitAll_eq_ok_iff.mp admitted
    rw [Option.isNone_iff_eq_none] at rooted
    obtain ⟨root, rooted⟩ := Option.ne_none_iff_exists'.mp rooted
    refine tree_of_checks sizes.2.1 sizes.2.2.2 single pairs rooted ?_
    refine reachesRoot_of_climbAll ?_ List.mem_cons_self (fun node member => member) climbed
    intro id member
    rw [List.mem_singleton.mp member]
    exact ⟨0, .root⟩
  · rintro ⟨rfl, tree⟩
    obtain ⟨root, rootMember, rootId, -⟩ := tree.root
    have rootBelow := tree.below root rootMember
    obtain ⟨located, found, -⟩ := tree.node?_root
    refine ⟨?_, ?_, by rw [found]; simp, tree.climbAll_isOk List.mem_cons_self
      (fun node member => member), rfl⟩
    · simp only [not_or, not_lt]
      refine ⟨List.ne_nil_of_mem rootMember, tree.count, ?_, tree.bound⟩
      rw [rootId] at rootBelow
      exact rootBelow
    · refine admitAll_eq_ok_iff.mpr ⟨fun node member => tree.admissible member, ?_,
        tree.pairwise_apart⟩
      simp

theorem admitAll_ne_diverged {nextId : Nat} {before nodes : List Node} :
    admitAll nextId before nodes ≠ .error .diverged := by
  induction nodes generalizing before with
  | nil => simp [admitAll]
  | cons node nodes induction =>
      refine except_bind_ne_error ?_ fun _ => induction
      unfold admitNode
      split_ifs <;> simp [throw, throwThe, MonadExceptOf.throw, bind, Except.bind, pure,
        Except.pure, Thrown.error, Thrown.diverged]

/-- `restore` ends on every list of nodes. -/
theorem restore_ne_diverged (nodes : List Node) (nextId : Nat) :
    restore nodes nextId ≠ .error .diverged := by
  unfold restore
  split_ifs
  · simp [except_throw_bind, Thrown.error, Thrown.diverged]
  · refine except_bind_ne_error admitAll_ne_diverged fun _ => ?_
    dsimp only
    split_ifs
    · simp [except_throw_bind, Thrown.error, Thrown.diverged]
    · refine except_bind_ne_error (climbAll_ne_diverged fun node member => member) fun _ => ?_
      simp [pure, Except.pure]

end Namespace

end Storage
end Postgamma
