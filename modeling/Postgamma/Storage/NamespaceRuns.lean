import Postgamma.Storage.NamespaceRestore

/-!
# Runs of the namespace

A namespace is built by `new Namespace()` or `restore` and then changed in place by `apply` and
`replay`, whether they return or throw. `Evolves` is what any of them does to it: a chain of
accepted changes, with the identities they issue in order.
-/

namespace Postgamma
namespace Storage

open Text Json ParentTree

namespace Namespace

/-- Assign the number of the last record. -/
def setSequence (ns : Namespace) (sequence : Nat) : Namespace := { ns with sequence }

theorem Tree.setSequence {ns : Namespace} (tree : ns.Tree) (sequence : Nat) :
    (ns.setSequence sequence).Tree where
  root := tree.root
  positive := tree.positive
  nodup := tree.nodup
  parents := tree.parents
  reaches := tree.reaches
  siblings := tree.siblings
  names := tree.names
  kinds := tree.kinds
  modes := tree.modes
  below := tree.below
  bound := tree.bound
  count := tree.count

theorem property_commutes (sequence : Nat) (value : Option Value) (name : Utf16) :
    Commutes (setSequence · sequence) (property value name) := by
  unfold property
  split
  · exact .throw _
  · exact .throw _
  · exact .pure _

theorem applyCreate_commutes (sequence : Nat) (node : Option Value) (parent : Nat) (name : Utf16) :
    Commutes (setSequence · sequence) (applyCreate node parent name) := by
  refine .get_bind (fun _ => rfl) fun ns => .bind (property_commutes _ _ _) fun id =>
    .bind (property_commutes _ _ _) fun kind => .bind (property_commutes _ _ _) fun mode => ?_
  split
  · dsimp only
    split_ifs
    · exact .throw _
    · exact .bind (.modified fun _ => rfl) fun _ => .modified fun _ => rfl
  · exact .throw _

theorem meets_setSequence (ns : Namespace) (sequence target fuel start : Nat) :
    (ns.setSequence sequence).meets target fuel start = ns.meets target fuel start := by
  induction fuel generalizing start with
  | zero => rfl
  | succ fuel induction =>
      simp only [meets, induction]
      rfl

theorem applyMove_commutes (sequence : Nat) (change : Value) (parent : Nat) (name : Utf16) :
    Commutes (setSequence · sequence) (applyMove change parent name) := by
  have assign (node : Node) : Commutes (setSequence · sequence) (do
      modify (·.setParent node.id parent)
      modify (·.setName node.id name) : Program Thrown Namespace Unit) :=
    .bind (.modified fun _ => rfl) fun _ => .modified fun _ => rfl
  have blind (ns : Namespace) := meets_setSequence ns sequence
  refine .get_bind (fun ns => by simp only [blind]; rfl) fun ns =>
    .bind (property_commutes _ _ _) fun id => ?_
  dsimp only
  split
  · exact .throw _
  · rename_i node _
    split_ifs
    · exact .throw _
    · split
      · exact .throw _
      · exact .throw _
      · split
        · exact assign node
        · split_ifs
          · exact .throw _
          · exact .bind (.modified fun _ => rfl) fun _ => assign node

theorem applyRemove_commutes (sequence : Nat) (parent : Nat) (name : Utf16) :
    Commutes (setSequence · sequence) (applyRemove parent name) := by
  refine .get_bind (fun _ => rfl) fun ns => ?_
  split
  · exact .throw _
  · dsimp only
    split_ifs
    · exact .throw _
    · exact .modified fun _ => rfl

theorem apply_commutes (sequence : Nat) (change : Value) :
    Commutes (setSequence · sequence) (apply change) := by
  refine .get_bind (fun _ => rfl) fun ns => .bind (property_commutes _ _ _) fun op => ?_
  dsimp only
  refine .bind ?_ fun subject => .bind (property_commutes _ _ _) fun parent =>
    .bind (property_commutes _ _ _) fun name => ?_
  · unfold subjectOf
    split_ifs
    · exact property_commutes _ _ _
    · exact .pure _
  · split
    · split_ifs
      · exact .throw _
      · exact applyCreate_commutes _ _ _ _
      · exact applyMove_commutes _ _ _ _
      · exact applyRemove_commutes _ _ _
      · exact .throw _
    · exact .throw _

/-- The identities that a change has added. -/
def issued (ns after : Namespace) : List Nat :=
  (after.nodes.map Node.id).filter fun id => (ns.node? id).isNone

/-- One namespace turns into another by accepted changes, which issue the listed identities. -/
inductive Evolves (ns : Namespace) : List Nat → Namespace → Prop where
  | refl : Evolves ns [] ns
  | applied {ids : List Nat} {middle after : Namespace} {name : Utf16}
      (before : Evolves ns ids middle) (step : middle.Applied name after) :
      Evolves ns (ids ++ middle.issued after) after
  | numbered {ids : List Nat} {middle : Namespace} (before : Evolves ns ids middle)
      (sequence : Nat) : Evolves ns ids (middle.setSequence sequence)

theorem Evolves.trans {ns middle after : Namespace} {first second : List Nat}
    (left : ns.Evolves first middle) (right : middle.Evolves second after) :
    ns.Evolves (first ++ second) after := by
  induction right with
  | refl => simpa using left
  | applied _ step induction =>
      rw [← List.append_assoc]
      exact .applied induction step
  | numbered _ sequence induction => exact .numbered induction sequence

variable {ns after : Namespace}

theorem Tree.evolves {ids : List Nat} (tree : ns.Tree)
    (evolves : ns.Evolves ids after) : after.Tree := by
  induction evolves with
  | refl => exact tree
  | applied _ step induction => exact induction.applied step
  | numbered _ sequence induction => exact induction.setSequence sequence

theorem Applied.nextId_le {name : Utf16} (step : ns.Applied name after) :
    ns.nextId ≤ after.nextId := by
  cases step with
  | create node directory _ _ _ fresh => exact Nat.le_succ_of_le fresh
  | move | replace | remove => exact le_rfl

theorem issued_eq_nil (old : ∀ node ∈ after.nodes, ∃ other ∈ ns.nodes, other.id = node.id) :
    ns.issued after = [] := by
  apply List.filter_eq_nil_iff.mpr
  intro id member
  obtain ⟨node, nodeMember, rfl⟩ := List.mem_map.mp member
  obtain ⟨other, otherMember, same⟩ := old node nodeMember
  cases found : ns.node? node.id with
  | none =>
      have absent := List.find?_eq_none.mp found other otherMember
      simp [same] at absent
  | some _ => simp

/-- A change issues at most one identity, which no node has had. -/
theorem Tree.issued_cases {name : Utf16} (tree : ns.Tree) (step : ns.Applied name after) :
    ns.issued after = [] ∨
      ∃ id, ns.issued after = [id] ∧ ns.nextId ≤ id ∧ after.nextId = id + 1 := by
  cases step with
  | create node directory found isDirectory valid fresh =>
      refine .inr ⟨node.id, ?_, fresh, rfl⟩
      have known : ∀ id ∈ ns.nodes.map Node.id, ¬(ns.node? id).isNone := by
        intro id member
        obtain ⟨other, otherMember, rfl⟩ := List.mem_map.mp member
        simp [tree.node?_of_mem otherMember]
      have unknown : ns.node? node.id = none := by
        apply List.find?_eq_none.mpr
        intro other otherMember
        have below := tree.below other otherMember
        simp
        omega
      simp only [issued, Namespace.insert, setNextId, List.map_append, List.filter_append]
      rw [List.filter_eq_nil_iff.mpr (by simpa using known)]
      simp [unknown]
  | move node _ parent name =>
      refine .inl (issued_eq_nil ?_)
      rw [nodes_move]
      intro other member
      obtain ⟨old, oldMember, rfl⟩ := List.mem_map.mp member
      exact ⟨old, oldMember, by simp⟩
  | replace node _ replaced parent name =>
      refine .inl (issued_eq_nil ?_)
      rw [nodes_move]
      intro other member
      obtain ⟨old, oldMember, rfl⟩ := List.mem_map.mp member
      exact ⟨old, (List.mem_filter.mp oldMember).1, by simp⟩
  | remove =>
      refine .inl (issued_eq_nil ?_)
      intro other member
      exact ⟨other, (List.mem_filter.mp member).1, rfl⟩

theorem Tree.issued_increasing {ids : List Nat} (tree : ns.Tree) (evolves : ns.Evolves ids after) :
    ns.nextId ≤ after.nextId ∧ ids.Pairwise (· < ·) ∧
      ∀ id ∈ ids, ns.nextId ≤ id ∧ id < after.nextId := by
  induction evolves with
  | refl => simp
  | @applied ids middle after _ before step induction =>
      obtain ⟨grown, increasing, range⟩ := induction
      have next := step.nextId_le
      have older : ∀ id ∈ ids, ns.nextId ≤ id ∧ id < after.nextId := by
        intro id member
        have bounds := range id member
        omega
      rcases (tree.evolves before).issued_cases step with none | ⟨id, one, fresh, top⟩
      · rw [none, List.append_nil]
        exact ⟨grown.trans next, increasing, older⟩
      · rw [one]
        refine ⟨grown.trans next, ?_, ?_⟩
        · refine List.pairwise_append.mpr ⟨increasing, List.pairwise_singleton _ _, ?_⟩
          intro other member last lastMember
          have bounds := range other member
          rw [List.mem_singleton.mp lastMember]
          omega
        · intro other member
          rcases List.mem_append.mp member with member | member
          · exact older other member
          · rw [List.mem_singleton.mp member]
            omega
  | numbered _ sequence induction => exact induction

theorem evolves_of_apply {change : Value}
    (accepted : apply change ns = .ok () after) : ns.Evolves (ns.issued after) after := by
  obtain ⟨name, -, step⟩ := applied_of_apply accepted
  simpa using Evolves.applied .refl step

/-- A replay applies a chain of changes, also where it throws. -/
theorem evolves_replayFrom (ns : Namespace) (offset : Nat) (rest : Bytes) :
    ∃ ids, ns.Evolves ids (ns.replayFrom offset rest).1 := by
  fun_induction replayFrom ns offset rest with
  | case8 ns offset rest _ _ _ _ _ _ _ change _ thrown next refused =>
      rw [eq_of_apply_error refused]
      exact ⟨[], .refl⟩
  | case9 ns offset rest _ _ _ _ _ _ _ change _ _ next accepted induction =>
      obtain ⟨ids, evolves⟩ := induction
      exact ⟨_, (Evolves.numbered (evolves_of_apply accepted) _).trans evolves⟩
  | _ => exact ⟨[], .refl⟩

theorem evolves_replay (ns : Namespace) (bytes : Bytes) :
    ∃ ids, ns.Evolves ids (ns.replay bytes).1 := by
  unfold replay
  split_ifs
  · exact ⟨[], .refl⟩
  · exact evolves_replayFrom ns 0 bytes

/-- One call on a namespace, and the namespace behind it. -/
inductive Call (ns : Namespace) : Namespace → Prop where
  | accepted {change : Value} {after : Namespace} (accepted : apply change ns = .ok () after) :
      Call ns after
  | refused {change : Value} {thrown : Thrown} {after : Namespace}
      (refused : apply change ns = .error thrown after) : Call ns after
  | replayed (bytes : Bytes) : Call ns (ns.replay bytes).1
  | numbered (sequence : Nat) : Call ns (ns.setSequence sequence)

/-- The namespaces that calls build from a new or a restored one. -/
inductive Reachable : Namespace → Prop where
  | initial : Reachable Namespace.initial
  | restored {nodes : List Node} {nextId : Nat} {ns : Namespace}
      (accepted : restore nodes nextId = .ok ns) : Reachable ns
  | called {ns after : Namespace} (before : Reachable ns) (call : ns.Call after) :
      Reachable after

theorem evolves_of_call (call : ns.Call after) : ∃ ids, ns.Evolves ids after := by
  cases call with
  | accepted accepted => exact ⟨_, evolves_of_apply accepted⟩
  | refused refused => exact ⟨[], eq_of_apply_error refused ▸ .refl⟩
  | replayed bytes => exact evolves_replay ns bytes
  | numbered sequence => exact ⟨[], .numbered .refl sequence⟩

theorem evolves_of_calls (calls : Relation.ReflTransGen Call ns after) :
    ∃ ids, ns.Evolves ids after := by
  induction calls with
  | refl => exact ⟨[], .refl⟩
  | tail _ call induction =>
      obtain ⟨first, left⟩ := induction
      obtain ⟨second, right⟩ := evolves_of_call call
      exact ⟨_, left.trans right⟩

theorem Reachable.tree (reachable : Reachable ns) : ns.Tree := by
  induction reachable with
  | initial => exact tree_initial
  | restored accepted => exact (restore_eq_ok_iff.mp accepted).2
  | called _ call induction =>
      obtain ⟨ids, evolves⟩ := evolves_of_call call
      exact induction.evolves evolves

/-- The ancestor walk ends from every starting point. -/
theorem Tree.walk_ends (tree : ns.Tree) (target start : Nat) :
    (ns.meets target (ns.nodes.length + 1) start).isSome := by
  cases found : ns.node? start with
  | none => simp [meets, found]
  | some node =>
      obtain ⟨member, rfl⟩ := mem_of_node? found
      obtain ⟨depth, hangs⟩ := tree.reaches node member
      have short := tree.depth_lt hangs
      exact tree.meets_isSome target hangs (by omega)

/-- Every reachable namespace is a tree, and stays one without issuing an identity twice. A
refused change leaves it as it was, and the walk of a move ends. -/
theorem reachable_invariant {ns : Namespace} (reachable : Reachable ns) :
    ns.Tree ∧
      (∀ change thrown after, apply change ns = .error thrown after → after = ns) ∧
      (∀ target start, (ns.meets target (ns.nodes.length + 1) start).isSome) ∧
      ∀ after, Relation.ReflTransGen Call ns after →
        ns.nextId ≤ after.nextId ∧
          ∃ ids, ns.Evolves ids after ∧ ids.Pairwise (· < ·) ∧ ∀ id ∈ ids, ns.nextId ≤ id := by
  refine ⟨reachable.tree, fun _ _ _ => eq_of_apply_error, reachable.tree.walk_ends, ?_⟩
  intro after calls
  obtain ⟨ids, evolves⟩ := evolves_of_calls calls
  obtain ⟨grown, increasing, range⟩ := reachable.tree.issued_increasing evolves
  exact ⟨grown, ids, evolves, increasing, fun id member => (range id member).1⟩

def rootIdentity : SafeInt := ⟨1, by norm_num⟩

def firstFile (name : Utf16) : Change :=
  .create
    { id := ⟨2, by norm_num⟩, parent := rootIdentity, name,
      kind := ⟨1, by norm_num⟩, mode := ⟨0o600, by norm_num⟩ }

def withFirstFile (name : Utf16) : Namespace where
  nodes := [rootNode, { id := 2, parent := 1, name, kind := 1, mode := 0o600 }]
  sequence := 0
  nextId := 3

theorem apply_firstFile {name : Utf16} (valid : ValidName name) :
    apply (firstFile name).value initial = .ok () (withFirstFile name) := by
  have allowed : ¬((initial.node? 1).map Node.kind ≠ some 2 ∨ ¬ValidName name) := by
    simpa [initial, node?, rootNode] using valid
  have free : ¬(2 < initial.nextId ∨ identityLimit ≤ 2 ∨ ¬(1 = 1 ∨ 1 = 2) ∨ 0o7777 < 0o600 ∨
      (initial.lookup 1 name).isSome ∨ nodeLimit ≤ initial.nodes.length) := by
    simp [initial, lookup, rootNode, identityLimit, nodeLimit]
  have outer : apply (firstFile name).value initial =
      (if (initial.node? 1).map Node.kind ≠ some 2 ∨ ¬ValidName name then
        throw (.error "Invalid namespace parent/name")
      else applyCreate ((firstFile name).value.member (ascii "node")) 1 name :
        Program Thrown Namespace Unit) initial := rfl
  have inner : applyCreate ((firstFile name).value.member (ascii "node")) 1 name initial =
      (if 2 < initial.nextId ∨ identityLimit ≤ 2 ∨ ¬(1 = 1 ∨ 1 = 2) ∨ 0o7777 < 0o600 ∨
          (initial.lookup 1 name).isSome ∨ nodeLimit ≤ initial.nodes.length then
        (throw (.error "Invalid namespace creation") : Program Thrown Namespace Unit)
      else set (withFirstFile name)) initial := rfl
  rw [outer, if_neg allowed, inner, if_neg free]
  rfl

theorem reachable_invariant_firstFile : (withFirstFile (ascii "a")).Tree :=
  (reachable_invariant (.called .initial (.accepted (apply_firstFile (by decide))))).1

end Namespace

end Storage
end Postgamma
