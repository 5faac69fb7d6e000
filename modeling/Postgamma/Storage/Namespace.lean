import Postgamma.Library.Json
import Postgamma.Library.LittleEndian
import Postgamma.Library.Program

/-!
# The namespace of the browser store

The in-memory tree of `storage/namespace.ts`: its changes and their journal records, `apply`,
`restore` and `replay`. A map keyed by node id is the list of its nodes in insertion order, which
is the order in which the code iterates over it. A change read from the journal is an arbitrary
JSON value, and `apply` takes it as such.
-/

namespace Postgamma
namespace Storage

open Text Json LittleEndian

/-- The error object that a failing operation throws. -/
structure Thrown where
  name : String
  message : String
  deriving DecidableEq, Repr

namespace Thrown

def error (message : String) : Thrown := ⟨"Error", message⟩

/-- The error of reading a property of `undefined` or `null`. -/
def noProperty : Thrown := ⟨"TypeError", "Cannot read properties"⟩

/-- Stands for a loop that does not end. No namespace that the store can build has one. -/
def diverged : Thrown := ⟨"Divergence", "loop without end"⟩

end Thrown

/-- A file or directory. -/
structure Node where
  /-- Identity of the node, its key in the node map. -/
  id : Nat
  /-- Identity of the directory that holds the node. -/
  parent : Nat
  /-- Name inside the directory. -/
  name : Utf16
  /-- One for a file, two for a directory. -/
  kind : Nat
  /-- Permission bits. -/
  mode : Nat
  deriving DecidableEq, Repr

/-- The node of a creation as the caller passes it. -/
structure NewNode where
  /-- Identity asked for. -/
  id : SafeInt
  /-- Directory to create in. -/
  parent : SafeInt
  name : Utf16
  kind : SafeInt
  /-- Permission bits. -/
  mode : SafeInt
  deriving DecidableEq

/-- A change of the namespace as the callers of the journal pass it. -/
inductive Change where
  /-- Add a node. -/
  | create (node : NewNode)
  /-- Move a node to a directory and name, replacing what is there. -/
  | move (id parent : SafeInt) (name : Utf16)
  /-- Remove the node at a directory and name. -/
  | remove (parent : SafeInt) (name : Utf16)
  deriving DecidableEq

/-- `legacyMagic`, the first word of every journal record. -/
def legacyMagic : Nat := 0x314e4750

def journalLimit : Nat := 16 * 1024 * 1024

def nodeLimit : Nat := 16384

/-- The first identity that no node may have. -/
def identityLimit : Nat := 0x80000000

def Change.stringify : Change → Utf16
  | .create node =>
      record [(ascii "op", quote (ascii "create")),
        (ascii "node", record [(ascii "id", integer node.id.val),
          (ascii "parent", integer node.parent.val), (ascii "name", quote node.name),
          (ascii "kind", integer node.kind.val), (ascii "mode", integer node.mode.val)])]
  | .move id parent name =>
      record [(ascii "op", quote (ascii "move")), (ascii "id", integer id.val),
        (ascii "parent", integer parent.val), (ascii "name", quote name)]
  | .remove parent name =>
      record [(ascii "op", quote (ascii "remove")), (ascii "parent", integer parent.val),
        (ascii "name", quote name)]

/-- A change as the script value that `apply` reads. -/
def Change.value : Change → Value
  | .create node =>
      .record [(ascii "op", .string (ascii "create")),
        (ascii "node", .record [(ascii "id", .number node.id.number),
          (ascii "parent", .number node.parent.number), (ascii "name", .string node.name),
          (ascii "kind", .number node.kind.number), (ascii "mode", .number node.mode.number)])]
  | .move id parent name =>
      .record [(ascii "op", .string (ascii "move")), (ascii "id", .number id.number),
        (ascii "parent", .number parent.number), (ascii "name", .string name)]
  | .remove parent name =>
      .record [(ascii "op", .string (ascii "remove")), (ascii "parent", .number parent.number),
        (ascii "name", .string name)]

/-- `encode`: the journal record of a change. The checksum covers the record with a zero in the
place of the checksum. -/
def encode (change : Change) (sequence : Nat) : Except Thrown Bytes :=
  let payload := Text.encode change.stringify
  if payload.length > 4096 ∨ sequence < 1 ∨ identityLimit ≤ sequence then
    .error (.error "Namespace record exceeds the format")
  else
    let bytes := u32 legacyMagic ++ (u32 payload.length ++ (u32 sequence ++ (u32 0 ++ payload)))
    .ok (setUint32 bytes 12 (crc32 bytes))

/-- `Namespace`. -/
structure Namespace where
  /-- The node map in insertion order. -/
  nodes : List Node
  /-- Number of the last record since the last checkpoint. -/
  sequence : Nat
  /-- The least identity that no node has had. -/
  nextId : Nat
  deriving DecidableEq, Repr

/-- The root directory of a new namespace. -/
def rootNode : Node := { id := 1, parent := 0, name := [], kind := 2, mode := 0o700 }

namespace Namespace

/-- `new Namespace()`. -/
def initial : Namespace := { nodes := [rootNode], sequence := 0, nextId := 2 }

/-- `nodes.get` at an identity. -/
def node? (ns : Namespace) (id : Nat) : Option Node := ns.nodes.find? fun node => node.id = id

def lookup (ns : Namespace) (parent : Nat) (name : Utf16) : Option Node :=
  ns.nodes.find? fun node => node.parent = parent ∧ node.name = name

def children (ns : Namespace) (parent : Nat) : List Node :=
  ns.nodes.filter fun node => node.parent = parent

/-- `nodes.set` of a new key. -/
def insert (ns : Namespace) (node : Node) : Namespace := { ns with nodes := ns.nodes ++ [node] }

def delete (ns : Namespace) (id : Nat) : Namespace :=
  { ns with nodes := ns.nodes.filter fun node => node.id ≠ id }

/-- Assign the parent of a node in place. -/
def setParent (ns : Namespace) (id parent : Nat) : Namespace :=
  { ns with nodes := ns.nodes.map fun node => if node.id = id then { node with parent } else node }

/-- Assign the name of a node in place. -/
def setName (ns : Namespace) (id : Nat) (name : Utf16) : Namespace :=
  { ns with nodes := ns.nodes.map fun node => if node.id = id then { node with name } else node }

/-- Assign the next identity. -/
def setNextId (ns : Namespace) (nextId : Nat) : Namespace := { ns with nextId }

end Namespace

/-- `validName`, and the name rule of `restore`. -/
def ValidName (name : Utf16) : Prop :=
  name ≠ [] ∧ name ≠ ascii "." ∧ name ≠ ascii ".." ∧ ¬(0 ∈ name ∨ 0x2F ∈ name) ∧
    (Text.encode name).length ≤ 255

instance (name : Utf16) : Decidable (ValidName name) := inferInstanceAs (Decidable (_ ∧ _))

/-- A directory entry blocks its removal or replacement while it has children. -/
def Namespace.Occupied (ns : Namespace) (node : Node) : Prop :=
  node.kind = 2 ∧ ns.children node.id ≠ []

instance (ns : Namespace) (node : Node) : Decidable (ns.Occupied node) :=
  inferInstanceAs (Decidable (_ ∧ _))

/-- Read a property of a script value; `none` is `undefined`. -/
def property (value : Option Value) (name : Utf16) : Program Thrown Namespace (Option Value) :=
  match value with
  | none | some .null => throw .noProperty
  | some value => pure (value.member name)

/-- The string that a script value is. -/
def stringOf : Option Value → Option Utf16
  | some (.string text) => some text
  | _ => none

/-- The natural number that a script value is. -/
def naturalOf : Option Value → Option Nat
  | some (.number number) =>
      match number.integer? with
      | some value => if 0 ≤ value then some value.toNat else none
      | none => none
  | _ => none

namespace Namespace

/-- The ancestor walk of a move: whether it meets a node, or `none` while it has not ended. -/
def meets (ns : Namespace) (target : Nat) : Nat → Nat → Option Bool
  | 0, _ => none
  | fuel + 1, id =>
      match ns.node? id with
      | none => some false
      | some node => if node.id = target then some true else ns.meets target fuel node.parent

/-- The creation branch of `apply`. Identities are compared with bounds below the safe integers,
so the safe integer test adds nothing to them. -/
def applyCreate (node : Option Value) (parent : Nat) (name : Utf16) :
    Program Thrown Namespace Unit := do
  let ns ← get
  let id ← property node (ascii "id")
  let kind ← property node (ascii "kind")
  let mode ← property node (ascii "mode")
  match naturalOf id, naturalOf kind, naturalOf mode with
  | some id, some kind, some mode =>
      if id < ns.nextId ∨ identityLimit ≤ id ∨ ¬(kind = 1 ∨ kind = 2) ∨ 0o7777 < mode ∨
          (ns.lookup parent name).isSome ∨ nodeLimit ≤ ns.nodes.length then
        throw (.error "Invalid namespace creation")
      modify (·.insert { id, parent, name, kind, mode })
      modify (·.setNextId (id + 1))
  | _, _, _ => throw (.error "Invalid namespace creation")

/-- The move branch of `apply`. -/
def applyMove (change : Value) (parent : Nat) (name : Utf16) : Program Thrown Namespace Unit := do
  let ns ← get
  let id ← property (some change) (ascii "id")
  let replaced := ns.lookup parent name
  match (naturalOf id).bind ns.node? with
  | none => throw (.error "Invalid namespace move")
  | some node =>
      if node.id = 1 ∨ replaced = some node then
        throw (.error "Invalid namespace move")
      match ns.meets node.id (ns.nodes.length + 1) parent with
      | none => throw .diverged
      | some true => throw (.error "Namespace cycle")
      | some false => pure ()
      match replaced with
      | none => pure ()
      | some replaced =>
          if replaced.kind ≠ node.kind ∨ ns.Occupied replaced then
            throw (.error "Invalid namespace replacement")
          modify (·.delete replaced.id)
      modify (·.setParent node.id parent)
      modify (·.setName node.id name)

/-- The removal branch of `apply`. -/
def applyRemove (parent : Nat) (name : Utf16) : Program Thrown Namespace Unit := do
  let ns ← get
  match ns.lookup parent name with
  | none => throw (.error "Invalid namespace removal")
  | some replaced =>
      if ns.Occupied replaced then
        throw (.error "Invalid namespace removal")
      modify (·.delete replaced.id)

/-- The object that carries the parent and the name of a change. -/
def subjectOf (change : Value) (op : Option Utf16) : Program Thrown Namespace (Option Value) :=
  if op = some (ascii "create") then property (some change) (ascii "node")
  else pure (some change)

/-- `apply`, on the namespace in place. -/
def apply (change : Value) : Program Thrown Namespace Unit := do
  let ns ← get
  let op := stringOf (← property (some change) (ascii "op"))
  let subject ← subjectOf change op
  let parent ← property subject (ascii "parent")
  let name ← property subject (ascii "name")
  match naturalOf parent, stringOf name with
  | some parent, some name =>
      if (ns.node? parent).map Node.kind ≠ some 2 ∨ ¬ValidName name then
        throw (.error "Invalid namespace parent/name")
      else if op = some (ascii "create") then applyCreate subject parent name
      else if op = some (ascii "move") then applyMove change parent name
      else if op = some (ascii "remove") then applyRemove parent name
      else throw (.error "Unknown namespace operation")
  | _, _ => throw (.error "Invalid namespace parent/name")

/-- What `replay` returns besides the namespace. -/
structure Replayed where
  /-- Length of the records replayed. -/
  validBytes : Nat
  /-- Length of the torn tail behind them. -/
  discardedBytes : Nat
  deriving DecidableEq, Repr

/-- The payload of a record as a change. -/
def readPayload (payload : Bytes) : Except Thrown Value :=
  match Text.decode payload with
  | none => .error ⟨"TypeError", "The encoded data was not valid for encoding utf-8"⟩
  | some text =>
      match Json.parse text with
      | none => .error ⟨"SyntaxError", "Unexpected token in JSON"⟩
      | some change => .ok change

/-- The loop of `replay` over the bytes behind `offset`. The namespace is returned also where a
record is refused, because the records before it have been applied in place. -/
def replayFrom (ns : Namespace) (offset : Nat) (rest : Bytes) :
    Namespace × Except Thrown Replayed :=
  if rest.length < 16 then (ns, .ok ⟨offset, rest.length⟩)
  else
    let length := getUint32 rest 4
    if getUint32 rest 0 ≠ legacyMagic ∨ 4096 < length then
      (ns, .error (.error "Corrupt namespace header"))
    else if rest.length < 16 + length then (ns, .ok ⟨offset, rest.length⟩)
    else
      let record := rest.take (16 + length)
      if crc32 (setUint32 record 12 0) ≠ getUint32 record 12 then
        if record.length ≠ rest.length then
          (ns, .error (.error "Corrupt interior namespace record"))
        else (ns, .ok ⟨offset, rest.length⟩)
      else if getUint32 rest 8 ≠ ns.sequence + 1 then
        (ns, .error (.error "Namespace sequence mismatch"))
      else
        match readPayload (record.drop 16) with
        | .error thrown => (ns, .error thrown)
        | .ok change =>
            match apply change ns with
            | .error thrown next => (next, .error thrown)
            | .ok _ next =>
                replayFrom { next with sequence := next.sequence + 1 } (offset + record.length)
                  (rest.drop (16 + length))
termination_by rest.length
decreasing_by
  simp only [List.length_drop]
  omega

def replay (bytes : Bytes) (ns : Namespace) : Namespace × Except Thrown Replayed :=
  if journalLimit < bytes.length then
    (ns, .error (.error "Namespace journal exceeds its limit"))
  else ns.replayFrom 0 bytes

/-- The key under which `restore` looks for a second node of the same name. -/
def nameKey (node : Node) : Utf16 := natural node.parent ++ 0x3A :: node.name

/-- Check one node against those before it. -/
def admitNode (nextId : Nat) (before : List Node) (node : Node) : Except Thrown Unit := do
  if node.id < 1 ∨ nextId ≤ node.id ∨ (∃ other ∈ before, other.id = node.id) ∨
      ¬(node.kind = 1 ∨ node.kind = 2) ∨ 0o7777 < node.mode then
    throw (.error "Invalid namespace snapshot node")
  if node.id = 1 then
    if node.parent ≠ 0 ∨ node.name ≠ [] ∨ node.kind ≠ 2 then
      throw (.error "Invalid namespace snapshot root")
  else if ¬ValidName node.name then
    throw (.error "Invalid namespace snapshot name")
  if ∃ other ∈ before, nameKey other = nameKey node then
    throw (.error "Duplicate namespace snapshot name")

/-- The first loop of `restore`: the nodes entered so far are those `before`. -/
def admitAll (nextId : Nat) (before : List Node) : List Node → Except Thrown Unit
  | [] => .ok ()
  | node :: nodes => do
      admitNode nextId before node
      admitAll nextId (before ++ [node]) nodes

/-- The inner loop of the second pass of `restore`: climb until a node known to reach the root. -/
def climb (ns : Namespace) (reached : List Nat) :
    Nat → List Nat → Node → Except Thrown (List Nat)
  | 0, _, _ => .error .diverged
  | fuel + 1, path, current =>
      if current.id ∈ reached then .ok path
      else if current.id ∈ path then .error (.error "Namespace snapshot cycle")
      else
        match ns.node? current.parent with
        | none => .error (.error "Invalid namespace snapshot parent")
        | some parent =>
            if parent.kind ≠ 2 then .error (.error "Invalid namespace snapshot parent")
            else ns.climb reached fuel (current.id :: path) parent

/-- The second pass of `restore` over the nodes that are left. -/
def climbAll (ns : Namespace) (reached : List Nat) : List Node → Except Thrown Unit
  | [] => .ok ()
  | node :: nodes => do
      let path ← ns.climb reached (ns.nodes.length + 1) [] node
      ns.climbAll (path ++ reached) nodes

def restore (nodes : List Node) (nextId : Nat) : Except Thrown Namespace := do
  if nodes = [] ∨ nodeLimit < nodes.length ∨ nextId < 2 ∨ identityLimit < nextId then
    throw (.error "Invalid namespace snapshot size or next ID")
  admitAll nextId [] nodes
  let ns : Namespace := { nodes, sequence := 0, nextId }
  if (ns.node? 1).isNone then
    throw (.error "Missing namespace snapshot root")
  ns.climbAll [1] nodes
  return ns

end Namespace

end Storage
end Postgamma
