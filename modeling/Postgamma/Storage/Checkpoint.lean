import Postgamma.Storage.NamespaceRuns

/-!
# Snapshots of the namespace

The binary snapshot of `storage/checkpoint.ts` with its checksum, and the reader that opens a
slot with it. A snapshot reads back as the node map in which every name has passed through the
encoder and the decoder, so the round trip is exact for lossless names and for no others.
-/

namespace Postgamma
namespace Storage

open Text Json LittleEndian

/-- `checkpointMagic`, the first word of a snapshot. -/
def checkpointMagic : Nat := 0x324e4750

/-- `retiredMagic`, the first word of a retired slot. -/
def retiredMagic : Nat := 0x524e4750

def headerBytes : Nat := 32

def slotLimit : Nat := journalLimit / 2

namespace Checkpoint

def nodeBytes (node : Node) : Bytes :=
  words [node.id, node.parent, node.kind, node.mode, (Text.encode node.name).length] ++
    Text.encode node.name

/-- The bytes of all nodes. -/
def body (nodes : List Node) : Bytes := nodes.flatMap nodeBytes

/-- The size that `snapshot` adds up. -/
def snapshotSize (ns : Namespace) : Nat :=
  headerBytes + (ns.nodes.map fun node => 20 + (Text.encode node.name).length).sum

/-- The snapshot with a given checksum. -/
def frame (ns : Namespace) (generation checksum : Nat) : Bytes :=
  words [checkpointMagic, snapshotSize ns, generation, ns.nextId, ns.nodes.length, checksum, 0, 0]
    ++ body ns.nodes

/-- `snapshot`. The checksum covers the snapshot with a zero in the place of the checksum. -/
def snapshot (ns : Namespace) (generation : Nat) : Except Thrown Bytes :=
  if generation < 1 ∨ 0xffffffff < generation then
    .error (.error "Namespace checkpoint generation exhausted")
  else if slotLimit < snapshotSize ns ∨ nodeLimit < ns.nodes.length then
    .error (.error "Namespace snapshot exceeds its limit")
  else
    let bytes := frame ns generation 0
    .ok (setUint32 bytes 20 (crc32 bytes))

/-- What `restore` returns. -/
structure Restored where
  /-- The namespace of the snapshot. -/
  ns : Namespace
  generation : Nat
  /-- Its length in the slot. -/
  size : Nat
  deriving DecidableEq, Repr

/-- The loop of `restore` over the nodes from a position on, with the position behind them. -/
def readNodes (bytes : Bytes) (size : Nat) : Nat → Nat → Except Thrown (List Node × Nat)
  | 0, position => .ok ([], position)
  | count + 1, position =>
      if size < position + 20 then .error (.error "Incomplete namespace snapshot node")
      else
        let length := getUint32 bytes (position + 16)
        if 255 < length ∨ size < position + 20 + length then
          .error (.error "Invalid namespace snapshot name length")
        else
          match Text.decode ((bytes.drop (position + 20)).take length) with
          | none => .error ⟨"TypeError", "The encoded data was not valid for encoding utf-8"⟩
          | some name => do
              let (nodes, final) ← readNodes bytes size count (position + 20 + length)
              let node : Node :=
                { id := getUint32 bytes position, parent := getUint32 bytes (position + 4),
                  kind := getUint32 bytes (position + 8), mode := getUint32 bytes (position + 12),
                  name }
              return (node :: nodes, final)

def restore (bytes : Bytes) : Except Thrown Restored :=
  if bytes.length < headerBytes then .error (.error "Incomplete namespace snapshot")
  else
    let size := getUint32 bytes 4
    let count := getUint32 bytes 16
    if getUint32 bytes 0 ≠ checkpointMagic ∨ size < headerBytes ∨ slotLimit < size ∨
        bytes.length < size ∨ count = 0 ∨ nodeLimit < count ∨ getUint32 bytes 8 = 0 ∨
        getUint32 bytes 24 ≠ 0 ∨ getUint32 bytes 28 ≠ 0 then
      .error (.error "Invalid namespace snapshot header")
    else if crc32 (setUint32 (bytes.take size) 20 0) ≠ getUint32 bytes 20 then
      .error (.error "Corrupt namespace snapshot")
    else do
      let (nodes, final) ← readNodes bytes size count headerBytes
      if final ≠ size then throw (.error "Trailing namespace snapshot bytes")
      let ns ← Namespace.restore nodes (getUint32 bytes 12)
      return { ns, generation := getUint32 bytes 8, size }

/-- The node as it comes back from a snapshot. -/
def reread (node : Node) : Node := { node with name := roundTrip node.name }

/-- The fields of a node fit the words that hold them. -/
structure Fits (node : Node) : Prop where
  /-- The identity fits. -/
  id : node.id < 2 ^ 32
  parent : node.parent < 2 ^ 32
  kind : node.kind < 2 ^ 32
  /-- The permission bits fit. -/
  mode : node.mode < 2 ^ 32
  name : (Text.encode node.name).length ≤ 255

theorem nodeBytes_length (node : Node) :
    (nodeBytes node).length = 20 + (Text.encode node.name).length := by
  simp [nodeBytes]

theorem snapshotSize_eq (ns : Namespace) : snapshotSize ns = 32 + (body ns.nodes).length := by
  simp [snapshotSize, headerBytes, body, List.length_flatMap, nodeBytes_length]

theorem frame_length (ns : Namespace) (generation checksum : Nat) :
    (frame ns generation checksum).length = snapshotSize ns := by
  simp [frame, snapshotSize_eq]

theorem setUint32_frame (ns : Namespace) (generation old new : Nat) :
    setUint32 (frame ns generation old) 20 new = frame ns generation new := by
  have position : (words [checkpointMagic, snapshotSize ns, generation, ns.nextId,
    ns.nodes.length]).length = 20 := rfl
  exact setUint32_at old new position

/-- The bytes of the snapshot that `snapshot` returns. -/
def sealed (ns : Namespace) (generation : Nat) : Bytes :=
  frame ns generation (crc32 (frame ns generation 0))

theorem sealed_length (ns : Namespace) (generation : Nat) :
    (sealed ns generation).length = snapshotSize ns := frame_length ns generation _

variable {ns : Namespace}

theorem fits_of_tree (tree : ns.Tree) {node : Node} (member : node ∈ ns.nodes) : Fits node := by
  have small : ∀ {other : Node}, other ∈ ns.nodes → other.id < 2 ^ 31 := fun otherMember =>
    (tree.below _ otherMember).trans_le tree.bound
  have kinds := tree.kinds node member
  have modes := tree.modes node member
  refine ⟨(small member).trans (by norm_num), ?_, by omega, by omega, ?_⟩
  · by_cases isRoot : node.id = 1
    · rw [((tree.admissible member).root isRoot).1]
      norm_num
    · obtain ⟨parent, parentMember, same, -⟩ := tree.parents node member isRoot
      exact same ▸ (small parentMember).trans (by norm_num)
  · by_cases isRoot : node.id = 1
    · rw [((tree.admissible member).root isRoot).2.1]
      exact Nat.zero_le 255
    · exact (tree.names node member isRoot).2.2.2.2

/-- The largest supported namespace stays below one slot. -/
theorem snapshotSize_le (tree : ns.Tree) : snapshotSize ns ≤ slotLimit := by
  have each : ∀ size ∈ ns.nodes.map fun node => 20 + (Text.encode node.name).length,
      size ≤ 275 := by
    intro size member
    obtain ⟨node, nodeMember, rfl⟩ := List.mem_map.mp member
    have short := (fits_of_tree tree nodeMember).name
    omega
  have total := List.sum_le_card_nsmul _ 275 each
  have count := tree.count
  simp only [List.length_map, smul_eq_mul, nodeLimit] at total count
  simp only [snapshotSize, headerBytes, slotLimit, journalLimit]
  omega

theorem snapshot_eq (tree : ns.Tree) {generation : Nat} (positive : 1 ≤ generation)
    (small : generation ≤ 0xffffffff) : snapshot ns generation = .ok (sealed ns generation) := by
  have size := snapshotSize_le tree
  have count := tree.count
  rw [snapshot, if_neg (by omega), if_neg (by omega)]
  exact congrArg Except.ok (setUint32_frame ns generation 0 _)

theorem readNodes_body {nodes : List Node} (fits : ∀ node ∈ nodes, Fits node)
    {front tail : Bytes} {size position : Nat} (start : front.length = position)
    (room : position + (body nodes).length ≤ size) :
    readNodes (front ++ (body nodes ++ tail)) size nodes.length position =
      .ok (nodes.map reread, position + (body nodes).length) := by
  induction nodes generalizing front position with
  | nil => rfl
  | cons node nodes induction =>
      rw [List.forall_mem_cons] at fits
      obtain ⟨fit, fits⟩ := fits
      have split : body (node :: nodes) = nodeBytes node ++ body nodes := rfl
      have whole : front ++ (body (node :: nodes) ++ tail) =
          (front ++ nodeBytes node) ++ (body nodes ++ tail) := by
        rw [split]
        simp only [List.append_assoc]
      have opened : front ++ (body (node :: nodes) ++ tail) = front ++ (words [node.id,
          node.parent, node.kind, node.mode, (Text.encode node.name).length] ++
          (Text.encode node.name ++ (body nodes ++ tail))) := by
        rw [split, nodeBytes]
        simp only [List.append_assoc]
      have read : ∀ (index : Nat) {value : Nat}, [node.id, node.parent, node.kind, node.mode,
          (Text.encode node.name).length][index]? = some value → value < 2 ^ 32 →
          ∀ {offset : Nat}, position + 4 * index = offset →
            getUint32 (front ++ (body (node :: nodes) ++ tail)) offset = value := by
        intro index value found small offset place
        rw [opened]
        exact getUint32_words found small (by rw [start, place])
      have nameFits := fit.name
      have lengths := split ▸ room
      rw [List.length_append, nodeBytes_length] at lengths
      have nameBytes : ((front ++ (body (node :: nodes) ++ tail)).drop (position + 20)).take
          (Text.encode node.name).length = Text.encode node.name := by
        rw [opened, ← List.append_assoc, ← List.append_assoc]
        rw [List.append_assoc (front ++ _), List.drop_left' (by simp [start]), List.take_left']
        rfl
      have next : (front ++ nodeBytes node).length =
          position + 20 + (Text.encode node.name).length := by
        rw [List.length_append, nodeBytes_length]
        omega
      have rest : readNodes (front ++ (body (node :: nodes) ++ tail)) size nodes.length
          (position + 20 + (Text.encode node.name).length) = .ok (nodes.map reread,
            position + 20 + (Text.encode node.name).length + (body nodes).length) := by
        rw [whole]
        exact induction fits next (by omega)
      have id := read 0 rfl fit.id (Nat.add_zero position)
      have parent := read 1 rfl fit.parent rfl
      have kind := read 2 rfl fit.kind rfl
      have mode := read 3 rfl fit.mode rfl
      have length := read 4 rfl (by omega) rfl
      have ending : position + (body (node :: nodes)).length =
          position + 20 + (Text.encode node.name).length + (body nodes).length := by
        rw [split, List.length_append, nodeBytes_length]
        omega
      rw [List.length_cons, readNodes, if_neg (by omega)]
      simp only [length]
      rw [if_neg (by omega), nameBytes, Text.decode_encode]
      simp only [rest, id, parent, kind, mode, ending]
      rfl

/-- A snapshot with anything behind it reads as its nodes, checked by `Namespace.restore`. -/
theorem restore_sealed (tree : ns.Tree) {generation : Nat}
    (positive : 1 ≤ generation) (small : generation ≤ 0xffffffff) (tail : Bytes) :
    restore (sealed ns generation ++ tail) =
      (Namespace.restore (ns.nodes.map reread) ns.nextId).map fun restored =>
        { ns := restored, generation, size := snapshotSize ns } := by
  have size := snapshotSize_le tree
  have count := tree.count
  have bound := tree.bound
  have nonempty : ns.nodes.length ≠ 0 := by
    obtain ⟨root, member, -⟩ := tree.root
    exact (List.length_pos_of_mem member).ne'
  simp only [slotLimit, journalLimit, nodeLimit, identityLimit] at size count bound
  have checksum := crc32_lt (frame ns generation 0)
  have length : (sealed ns generation ++ tail).length = snapshotSize ns + tail.length := by
    rw [List.length_append, sealed_length]
  have atLeast := snapshotSize_eq ns
  have read : ∀ (index : Nat) {value : Nat}, [checkpointMagic, snapshotSize ns, generation,
      ns.nextId, ns.nodes.length, crc32 (frame ns generation 0), 0, 0][index]? = some value →
      value < 2 ^ 32 → ∀ {offset : Nat}, 4 * index = offset →
        getUint32 (sealed ns generation ++ tail) offset = value := by
    intro index value found valueSmall offset position
    have front : ([] : Bytes).length + 4 * index = offset := by simpa using position
    rw [sealed, frame, List.append_assoc]
    exact getUint32_words found valueSmall front
  have magic := read 0 rfl (by decide) rfl
  have sizeWord := read 1 rfl (by omega) rfl
  have generationWord := read 2 rfl (by omega) rfl
  have nextWord := read 3 rfl (by omega) rfl
  have countWord := read 4 rfl (by omega) rfl
  have checksumWord := read 5 rfl checksum rfl
  have sixth := read 6 rfl (by norm_num) rfl
  have seventh := read 7 rfl (by norm_num) rfl
  have prefixed : (sealed ns generation ++ tail).take (snapshotSize ns) = sealed ns generation :=
    List.take_left' (sealed_length ns generation)
  have nodes : readNodes (sealed ns generation ++ tail) (snapshotSize ns) ns.nodes.length 32 =
      .ok (ns.nodes.map reread, snapshotSize ns) := by
    rw [atLeast, sealed, frame, List.append_assoc]
    exact readNodes_body (fun node member => fits_of_tree tree member) rfl le_rfl
  unfold restore
  rw [if_neg (by simp only [headerBytes]; omega)]
  simp only [magic, sizeWord, generationWord, nextWord, countWord, checksumWord, sixth, seventh,
    prefixed]
  rw [if_neg (by simp only [headerBytes, slotLimit, journalLimit, nodeLimit]; omega)]
  rw [sealed, setUint32_frame, if_neg (by simp), ← sealed, show headerBytes = 32 from rfl, nodes]
  simp only [bind, Except.bind, ne_eq, not_true_eq_false, if_false]
  cases Namespace.restore (ns.nodes.map reread) ns.nextId <;> rfl

/-- A snapshot with lossless names and anything behind it reads back. -/
theorem restore_sealed_of_lossless (tree : ns.Tree)
    (lossless : ∀ node ∈ ns.nodes, Lossless node.name) {generation : Nat}
    (positive : 1 ≤ generation) (small : generation ≤ 0xffffffff) (tail : Bytes) :
    restore (sealed ns generation ++ tail) =
      .ok { ns := ns.setSequence 0, generation, size := snapshotSize ns } := by
  have unchanged : ns.nodes.map reread = ns.nodes := by
    refine (List.map_congr_left fun node member => ?_).trans (List.map_id ns.nodes)
    show ({ node with name := roundTrip node.name } : Node) = node
    rw [lossless node member]
  rw [restore_sealed tree positive small, unchanged,
    Namespace.restore_eq_ok_iff.mpr ⟨rfl, tree.setSequence 0⟩]
  rfl

/-- The round trip of a namespace through its snapshot returns what was written. -/
def RoundTrips (ns : Namespace) (generation : Nat) : Prop :=
  ∃ bytes restored, snapshot ns generation = .ok bytes ∧ restore bytes = .ok restored ∧
    restored.generation = generation ∧ (∀ node, node ∈ restored.ns.nodes ↔ node ∈ ns.nodes) ∧
    restored.ns.nextId = ns.nextId ∧ restored.size = bytes.length

theorem roundTrips_iff_lossless (tree : ns.Tree) {generation : Nat}
    (positive : 1 ≤ generation) (small : generation ≤ 0xffffffff) :
    RoundTrips ns generation ↔ ∀ node ∈ ns.nodes, Lossless node.name := by
  have written := snapshot_eq tree positive small
  constructor
  · rintro ⟨bytes, restored, stored, read, -, same, -⟩ node member
    obtain rfl : sealed ns generation = bytes := Except.ok.inj (written.symm.trans stored)
    rw [← List.append_nil (sealed ns generation), restore_sealed tree positive small] at read
    cases outcome : Namespace.restore (ns.nodes.map reread) ns.nextId with
    | error thrown =>
        rw [outcome] at read
        simp [Except.map] at read
    | ok result =>
        rw [outcome] at read
        obtain rfl := Except.ok.inj read
        obtain ⟨rfl, -⟩ := Namespace.restore_eq_ok_iff.mp outcome
        have back : reread node ∈ ns.nodes := (same _).mp (List.mem_map_of_mem member)
        exact congrArg Node.name (tree.eq_of_id back member rfl)
  · intro lossless
    refine ⟨_, { ns := ns.setSequence 0, generation, size := snapshotSize ns }, written, ?_, rfl,
      fun node => Iff.rfl, rfl, (sealed_length ns generation).symm⟩
    rw [← List.append_nil (sealed ns generation)]
    exact restore_sealed_of_lossless tree lossless positive small []

/-- The namespaces that accepted changes build from the empty one. -/
inductive Built : Namespace → Prop where
  | initial : Built Namespace.initial
  | accepted {ns after : Namespace} {change : Value} (before : Built ns)
      (accepted : Namespace.apply change ns = .ok () after) : Built after

theorem Built.tree (built : Built ns) : ns.Tree := by
  induction built with
  | initial => exact Namespace.tree_initial
  | accepted _ accepted induction =>
      obtain ⟨name, -, step⟩ := Namespace.applied_of_apply accepted
      exact induction.applied step

/-- The round trip is exact when every name is well formed and starts with no byte order mark. -/
theorem roundTrips_iff_names {ns : Namespace} (built : Built ns) {generation : Nat}
    (positive : 1 ≤ generation) (small : generation ≤ 0xffffffff) :
    RoundTrips ns generation ↔
      ∀ node ∈ ns.nodes, WellFormed node.name ∧ node.name.head? ≠ some 0xFEFF := by
  rw [roundTrips_iff_lossless built.tree positive small]
  simp only [lossless_iff]

theorem roundTrips_firstFile : RoundTrips (Namespace.withFirstFile (ascii "a")) 1 := by
  have built : Built (Namespace.withFirstFile (ascii "a")) :=
    .accepted .initial (Namespace.apply_firstFile (by decide))
  refine (roundTrips_iff_names built le_rfl (by norm_num)).mpr ?_
  simp [Namespace.withFirstFile, rootNode, WellFormed, ascii]

/-- The decoder takes a name for a byte order mark, and the snapshot is refused. -/
theorem not_roundTrips_markFile :
    Built (Namespace.withFirstFile [0xFEFF]) ∧ ¬RoundTrips (Namespace.withFirstFile [0xFEFF]) 1 ∧
      (restore (sealed (Namespace.withFirstFile [0xFEFF]) 1)).isOk = false := by
  have built : Built (Namespace.withFirstFile [0xFEFF]) :=
    .accepted .initial (Namespace.apply_firstFile (by decide))
  refine ⟨built, ?_, ?_⟩
  · rw [roundTrips_iff_lossless built.tree le_rfl (by norm_num)]
    simp [Namespace.withFirstFile, lossless_iff]
  · rw [← List.append_nil (sealed _ 1), restore_sealed built.tree le_rfl (by norm_num)]
    rfl

end Checkpoint

end Storage
end Postgamma
